import Settle.Proofs.Windower.Steps
import Settle.Watch

/-!
# What one operation does to a watch

Each operation on a watch that is performed is described by one lemma: `edge_eq_ok`, `poll_eq_ok`,
`takeJob_eq_ok`, `settle_eq_ok` and `unreadable_eq_ok`. The other operations cannot fail, and their
definitions say what they do; `ApplyCase` lists all of them. As for windowers, counts are given as
natural numbers, and proofs about watches cite these lemmas and do not unfold the operations.
-/

namespace Settle.Watch

variable {w v : Watch} {now : Instant}

/-- Another tally leaves the rest of the windower as it is. -/
@[simp] theorem windower_setTally (w : Watch) (tally : Tally) :
    (w.setTally tally).windower = { w.windower with tally } := rfl

/-- What the handler returned does not matter to the windower. -/
@[simp] theorem windower_handled (w : Watch) (failure : Option String) :
    (w.handled failure).windower = w.windower := by
  cases failure <;> rfl

/-- It does not matter to the task that waits. -/
@[simp] theorem task_handled (w : Watch) (failure : Option String) :
    (w.handled failure).task = w.task := by
  cases failure <;> rfl

/-- It does not matter to the level. -/
@[simp] theorem level_handled (w : Watch) (failure : Option String) :
    (w.handled failure).level = w.level := by
  cases failure <;> rfl

/-- How the handler ended is no other fault than the handler's own. -/
theorem has_active_handled (w : Watch) (failure : Option String) {f : Fault}
    (hf : f ≠ .handlerFailed) :
    (w.handled failure).faults.active.has f = w.faults.active.has f := by
  cases failure <;> simp [handled, hf.symm]

/-- An edge is taken in by the windower; a degraded one raises a fault. -/
theorem edge_eq_ok {armable : Bool} {answer : EdgeAnswer}
    (h : w.edge now armable = .ok (answer, v)) :
    ∃ windower, w.windower.edge now armable = .ok (answer, windower) ∧
      v = { w with
        windower
        faults := if answer.outcome = .degraded then w.faults.raise .timerUnavailable
          else w.faults } := by
  simp only [edge, bind_eq_ok_iff, Prod.exists] at h
  obtain ⟨answer', windower, hedge, h⟩ := h
  split at h
  · next hdegraded =>
    rw [pure_eq_ok_iff, Prod.mk.injEq] at h
    obtain ⟨rfl, rfl⟩ := h
    exact ⟨windower, hedge, by rw [if_pos hdegraded]⟩
  · next hother =>
    rw [pure_eq_ok_iff, Prod.mk.injEq] at h
    obtain ⟨rfl, rfl⟩ := h
    exact ⟨windower, hedge, by rw [if_neg hother]⟩

/-- Queueing a task replaces the one that waits, which is then coalesced. -/
theorem enqueue_eq_ok {report : Report} (h : w.enqueue report = .ok v) :
    ∃ coalesced, coalesced.toNat = w.windower.tally.coalesced.toNat + w.task.toList.length ∧
      v = { w.setTally { w.windower.tally with coalesced } with task := some report } := by
  unfold enqueue at h
  split at h
  · next hnone =>
    rw [pure_eq_ok_iff] at h
    exact ⟨w.windower.tally.coalesced, by rw [hnone]; rfl, h.symm⟩
  · next hsome =>
    simp only [bind_eq_ok_iff, pure_eq_ok_iff] at h
    obtain ⟨coalesced, hplus, rfl⟩ := h
    refine ⟨coalesced, ?_, rfl⟩
    rw [hsome]
    exact (Word.plus_eq_ok_iff _ _ _).mp hplus

/-- What can come of a poll: a verdict that leaves the watch alone, or a window that closes and
becomes a task. -/
inductive PollCase (w : Watch) (now : Instant) : Verdict → Watch → Prop where
  /-- No window closes. -/
  | quiet {verdict : Verdict} (asked : w.windower.poll now = .ok (verdict, w.windower))
      (open_ : ∀ report, verdict ≠ .expired report) : PollCase w now verdict w
  /-- The open window closes. -/
  | expired {report : Report} {windower : Windower} {coalesced : Count}
      (asked : w.windower.poll now = .ok (.expired report, windower))
      (replaced : coalesced.toNat = windower.tally.coalesced.toNat + w.task.toList.length) :
      PollCase w now (.expired report)
        { w with
          windower := { windower with tally := { windower.tally with coalesced } }
          task := some report }

/-- These are all the polls. -/
theorem poll_eq_ok {verdict : Verdict} (h : w.poll now = .ok (verdict, v)) :
    PollCase w now verdict v := by
  simp only [poll, bind_eq_ok_iff, Prod.exists] at h
  obtain ⟨verdict', windower, hpoll, h⟩ := h
  split at h
  · next report =>
    simp only [bind_eq_ok_iff, pure_eq_ok_iff, Prod.mk.injEq] at h
    obtain ⟨after, henqueue, rfl, rfl⟩ := h
    obtain ⟨coalesced, hcount, rfl⟩ := enqueue_eq_ok henqueue
    exact .expired hpoll hcount
  · next hopen =>
    rw [pure_eq_ok_iff, Prod.mk.injEq] at h
    obtain ⟨rfl, rfl⟩ := h
    -- A verdict other than the closing of a window leaves the windower as it was.
    have hsame : windower = w.windower := by
      cases Windower.poll_eq_ok hpoll with
      | stop _ => rfl
      | idle _ => rfl
      | wait _ _ _ => rfl
      | expired _ _ _ _ => exact absurd rfl (hopen _)
    subst hsame
    exact .quiet hpoll hopen

/-- A poll does not tear down. -/
theorem PollCase.disarmed_iff {verdict : Verdict} (h : PollCase w now verdict v) :
    v.windower.activity = .disarmed ↔ w.windower.activity = .disarmed := by
  cases h with
  | quiet _ _ => exact Iff.rfl
  | expired asked _ => exact (Windower.poll_eq_ok asked).disarmed_iff

/-- The timer is told to stop after the teardown and only then. -/
theorem PollCase.stop_iff {verdict : Verdict} (h : PollCase w now verdict v) :
    verdict = .stop ↔ w.windower.activity = .disarmed := by
  cases h with
  | quiet asked _ => exact (Windower.poll_eq_ok asked).stop_iff
  | expired asked _ => exact (Windower.poll_eq_ok asked).stop_iff

/-- What the worker is told to do. -/
def jobNow (w : Watch) : Job :=
  if w.windower.isDisarmed then .stop
  else match w.task with
    | none => .nothing
    | some report => .run report

/-- Asking for a task empties the queue; after the teardown the task that waited is cancelled. -/
theorem takeJob_eq_ok {job : Job} (h : w.takeJob = .ok (job, v)) :
    job = w.jobNow ∧
      ∃ cancelled, cancelled.toNat = w.windower.tally.cancelled.toNat +
          (if w.windower.isDisarmed then w.task.toList.length else 0) ∧
        v = { w.setTally { w.windower.tally with cancelled } with task := none } := by
  unfold takeJob at h
  unfold jobNow
  cases hdis : w.windower.isDisarmed with
  | false =>
    rw [hdis, if_neg Bool.false_ne_true] at h
    refine ⟨?_, w.windower.tally.cancelled, rfl, ?_⟩
    · cases htask : w.task <;> rw [htask, pure_eq_ok_iff, Prod.mk.injEq] at h <;> exact h.1.symm
    · cases htask : w.task <;> rw [htask, pure_eq_ok_iff, Prod.mk.injEq] at h <;> exact h.2.symm
  | true =>
    rw [hdis, if_pos rfl] at h
    cases htask : w.task with
    | none =>
      rw [htask, pure_eq_ok_iff, Prod.mk.injEq] at h
      exact ⟨h.1.symm, w.windower.tally.cancelled, rfl, h.2.symm⟩
    | some report =>
      simp only [htask, bind_eq_ok_iff, pure_eq_ok_iff, Prod.mk.injEq] at h
      obtain ⟨cancelled, hplus, hjob, rfl⟩ := h
      exact ⟨hjob.symm, cancelled, (Word.plus_eq_ok_iff _ _ _).mp hplus, rfl⟩

/-- Settling delivers an event with the next number, stores the level and withdraws the fault of
failed readings. -/
theorem settle_eq_ok {level : Bool} {window : Report} {event : Event}
    (h : w.settle level window now = .ok (event, v)) :
    ∃ delivered, delivered.toNat = w.windower.tally.delivered.toNat + 1 ∧
      delivered.toNat ≤ w.windower.tally.edges.toNat ∧
      event = { source := w.source, level, sequence := delivered, settled := now, window } ∧
      v = { w with
        windower := { w.windower with tally := { w.windower.tally with delivered } }
        level
        faults := (w.faults.clear .levelReadFailed).2 } := by
  simp only [settle, bind_eq_ok_iff, pure_eq_ok_iff, Prod.exists, Prod.mk.injEq] at h
  obtain ⟨delivered, windower, hdeliver, rfl, rfl⟩ := h
  obtain ⟨hnext, hle, rfl⟩ := Windower.deliver_eq_ok hdeliver
  exact ⟨delivered, hnext, hle, rfl, rfl⟩

/-- A failed reading is counted, and is a fault. -/
theorem unreadable_eq_ok {message : String} (h : w.unreadable message = .ok v) :
    ∃ failed, failed.toNat = w.windower.tally.failed.toNat + 1 ∧
      v = { w with
        windower := { w.windower with tally := { w.windower.tally with failed } }
        faults := w.faults.fail .levelReadFailed message } := by
  simp only [unreadable, bind_eq_ok_iff, pure_eq_ok_iff] at h
  obtain ⟨failed, hplus, rfl⟩ := h
  exact ⟨failed, (Word.plus_eq_ok_iff _ _ _).mp hplus, rfl⟩

/-! ## All operations -/

/-- What can come of an operation: its answer, and the watch after it. -/
inductive ApplyCase (w : Watch) : Op → Answer → Watch → Prop where
  /-- An edge. -/
  | edge {now : Instant} {armable : Bool} {answer : EdgeAnswer} {v : Watch}
      (done : w.edge now armable = .ok (answer, v)) :
      ApplyCase w (.edge now armable) (.edge answer) v
  /-- A poll. -/
  | poll {now : Instant} {verdict : Verdict} {v : Watch} (done : w.poll now = .ok (verdict, v)) :
      ApplyCase w (.poll now) (.verdict verdict) v
  /-- The worker asks for a task. -/
  | takeJob {job : Job} {v : Watch} (done : w.takeJob = .ok (job, v)) :
      ApplyCase w .takeJob (.job job) v
  /-- A task is settled. -/
  | settle {level : Bool} {window : Report} {now : Instant} {event : Event} {v : Watch}
      (done : w.settle level window now = .ok (event, v)) :
      ApplyCase w (.settle level window now) (.event event) v
  /-- The line could not be read for a task. -/
  | unreadable {message : String} {v : Watch} (done : w.unreadable message = .ok v) :
      ApplyCase w (.unreadable message) .done v
  /-- The handler has ended. -/
  | handled (failure : Option String) : ApplyCase w (.handled failure) .done (w.handled failure)
  /-- The teardown. -/
  | disarm : ApplyCase w .disarm (.wasPending w.disarm.1) w.disarm.2
  /-- Somebody takes the unreported faults. -/
  | takeUnreported :
      ApplyCase w .takeUnreported (.faults w.takeUnreported.1) w.takeUnreported.2
  /-- Somebody takes a snapshot. -/
  | snapshot : ApplyCase w .snapshot (.snapshot w.snapshot) w

/-- These are all the operations. -/
theorem apply_eq_ok {op : Op} {answer : Answer} (h : w.apply op = .ok (answer, v)) :
    ApplyCase w op answer v := by
  cases op with
  | edge now armable =>
    simp only [apply, bind_eq_ok_iff, pure_eq_ok_iff, Prod.exists, Prod.mk.injEq] at h
    obtain ⟨answer', v', hdone, rfl, rfl⟩ := h
    exact .edge hdone
  | poll now =>
    simp only [apply, bind_eq_ok_iff, pure_eq_ok_iff, Prod.exists, Prod.mk.injEq] at h
    obtain ⟨verdict, v', hdone, rfl, rfl⟩ := h
    exact .poll hdone
  | takeJob =>
    simp only [apply, bind_eq_ok_iff, pure_eq_ok_iff, Prod.exists, Prod.mk.injEq] at h
    obtain ⟨job, v', hdone, rfl, rfl⟩ := h
    exact .takeJob hdone
  | settle level window now =>
    simp only [apply, bind_eq_ok_iff, pure_eq_ok_iff, Prod.exists, Prod.mk.injEq] at h
    obtain ⟨event, v', hdone, rfl, rfl⟩ := h
    exact .settle hdone
  | unreadable message =>
    simp only [apply, bind_eq_ok_iff, pure_eq_ok_iff, Prod.mk.injEq] at h
    obtain ⟨v', hdone, rfl, rfl⟩ := h
    exact .unreadable hdone
  | handled failure => cases h; exact .handled failure
  | disarm => cases h; exact .disarm
  | takeUnreported => cases h; exact .takeUnreported
  | snapshot => cases h; exact .snapshot

/-! ## After the teardown -/

/-- A watch that is torn down ignores every edge. -/
theorem edge_of_disarmed (now : Instant) (armable : Bool)
    (h : w.windower.activity = .disarmed) :
    w.edge now armable = .ok ({ outcome := .ignored, asked := none }, w) :=
  bind_eq_ok_iff.mpr ⟨_, w.windower.edge_of_disarmed now armable h, rfl⟩

/-- A watch that is torn down tells the timer to stop. -/
theorem poll_of_disarmed (now : Instant) (h : w.windower.activity = .disarmed) :
    w.poll now = .ok (.stop, w) :=
  bind_eq_ok_iff.mpr ⟨_, w.windower.poll_of_disarmed now h, rfl⟩

/-- A watch that is torn down has no other job for the worker than to stop. -/
theorem jobNow_of_disarmed (h : w.windower.activity = .disarmed) : w.jobNow = .stop := by
  rw [jobNow, if_pos (Windower.isDisarmed_eq_true_iff.mpr h)]

/-- A second teardown does nothing. -/
theorem disarm_of_disarmed (h : w.windower.activity = .disarmed) : w.disarm = (false, w) := by
  have hpending : w.windower.isPending = false := by
    rw [Windower.isPending, h]
  have hsame : w.windower.disarm.2 = w.windower := by
    rw [Windower.disarm, ← h]
  rw [disarm, hsame]
  exact congrArg (·, w) hpending

end Settle.Watch
