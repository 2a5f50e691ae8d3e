import Settle.Proofs.Watch.Shift

/-!
# Every closed window is accounted for

A closed window becomes a task. A task waits in the queue until it is replaced by the next one
(coalesced), cancelled by the teardown, or taken by the worker; a task that was taken is in hand
until the worker records it as settled or as unreadable. So at every moment each closed window is in
exactly one of six places, four of which are counts (`Balanced.ended`). When nothing is in hand, the
remaining place is the queue, and the check that a snapshot offers succeeds: its checked sum is the
exact one, because it does not exceed the number of closed windows (`accounted_eq_ok_true_iff`).

At most one task is ever cancelled: the first question of the worker after the teardown empties the
queue, and no window closes after that (`Balanced.cancelled_of`).

Main statement: `windows_accounted`.
-/

namespace Settle

/-! ## The checked sum of a tally -/

/-- A sum that is checked at each step is the exact sum, if that is a word. -/
theorem Word.foldlM_plus_eq_ok_iff (xs : List UInt64) (a c : UInt64) :
    xs.foldlM Word.plus a = .ok c ↔ c.toNat = a.toNat + xs.foldr (fun x n => x.toNat + n) 0 := by
  induction xs generalizing a with
  | nil =>
    rw [List.foldlM_nil, pure_eq_ok_iff, List.foldr_nil, Nat.add_zero, UInt64.toNat_inj, eq_comm]
  | cons x xs ih =>
    rw [List.foldlM_cons, bind_eq_ok_iff, List.foldr_cons]
    constructor
    · rintro ⟨b, hplus, hrest⟩
      rw [(ih b).mp hrest, (Word.plus_eq_ok_iff a x b).mp hplus, Nat.add_assoc]
    · intro hc
      -- The first partial sum is a word, since the whole sum is one.
      have hword : c.toNat < UInt64.size := c.toNat_lt
      have hb : (UInt64.ofNat (a.toNat + x.toNat)).toNat = a.toNat + x.toNat :=
        UInt64.toNat_ofNat_of_lt (by omega)
      exact ⟨_, (Word.plus_eq_ok_iff _ _ _).mpr hb, (ih _).mpr (by omega)⟩

/-- How many closed windows have come to one of the four ends that are counted. -/
def Tally.endings (t : Tally) : Nat :=
  t.delivered.toNat + t.failed.toNat + t.coalesced.toNat + t.cancelled.toNat

/-- The checked sum of the ends and the queue is the exact one, if that is a word. -/
theorem Tally.ended_eq_ok_iff (t : Tally) (waiting : Bool) (c : Count) :
    t.ended waiting = .ok c ↔ c.toNat = t.endings + (if waiting then 1 else 0) := by
  have hqueued : (Tally.queued waiting).toNat = if waiting then 1 else 0 := by
    cases waiting <;> rfl
  rw [Tally.ended, Word.foldlM_plus_eq_ok_iff, ← hqueued, Tally.endings]
  simp only [List.foldr_cons, List.foldr_nil, Nat.add_zero, Nat.add_assoc]

/-- The check of a tally succeeds exactly when the ends and the queue make up the closed windows. -/
theorem Tally.accounted_eq_ok_true_iff (t : Tally) (waiting : Bool) :
    t.accounted waiting = .ok true ↔
      t.endings + (if waiting then 1 else 0) = t.closed.toNat := by
  simp only [Tally.accounted, bind_eq_ok_iff, pure_eq_ok_iff, beq_iff_eq]
  constructor
  · rintro ⟨c, hc, rfl⟩
    exact ((t.ended_eq_ok_iff waiting _).mp hc).symm
  · intro h
    exact ⟨t.closed, (t.ended_eq_ok_iff waiting _).mpr h.symm, rfl⟩

/-! ## What edges and polls leave alone -/

/-- Two tallies agree on what became of windows. -/
structure Tally.SameEnds (t u : Tally) : Prop where
  closed : u.closed = t.closed
  endings : u.endings = t.endings
  cancelled : u.cancelled = t.cancelled

/-- An edge changes nothing about windows that have closed. -/
theorem Windower.EdgeCase.sameEnds {w v : Windower} {now : Instant} {armable : Bool}
    {answer : EdgeAnswer} (h : EdgeCase w now armable answer v) : w.tally.SameEnds v.tally := by
  cases h <;> exact ⟨rfl, rfl, rfl⟩

namespace Shift

variable {s t : Shift} {watch : Watch}

/-! ## The invariant -/

/-- The books of a shift are in order. -/
structure Balanced (s : Shift) : Prop where
  /-- Each closed window has come to an end, waits in the queue, or is in hand. -/
  ended : s.watch.windower.tally.endings + s.watch.task.toList.length + s.inHand.toList.length =
    s.watch.windower.tally.closed.toNat
  /-- At most one task was cancelled. -/
  cancelled_le : s.watch.windower.tally.cancelled.toNat ≤ 1
  /-- A task is cancelled only after the teardown, and then no task waits any more. -/
  cancelled_of : s.watch.windower.tally.cancelled.toNat ≠ 0 →
    s.watch.windower.activity = .disarmed ∧ s.watch.task = none

/-- The books of a new shift are empty. -/
theorem balanced_start (source : UInt32) (length : Micros) (level : Bool) :
    (start source length level).Balanced where
  ended := rfl
  cancelled_le := Nat.zero_le 1
  cancelled_of h := absurd rfl h

/-- What an operation does to the task in the queue, the hand and the tally is all that the books
depend on. -/
theorem Balanced.of_sameEnds (hs : s.Balanced)
    (hends : s.watch.windower.tally.SameEnds t.watch.windower.tally)
    (htask : t.watch.task = s.watch.task) (hhand : t.inHand = s.inHand)
    (htorn : s.watch.windower.activity = .disarmed → t.watch.windower.activity = .disarmed) :
    t.Balanced where
  ended := by
    rw [hends.endings, hends.closed, htask, hhand]
    exact hs.ended
  cancelled_le := by
    rw [hends.cancelled]
    exact hs.cancelled_le
  cancelled_of h := by
    rw [hends.cancelled] at h
    obtain ⟨hdis, hnone⟩ := hs.cancelled_of h
    exact ⟨htorn hdis, htask.trans hnone⟩

/-- The books say nothing about levels and faults. -/
theorem Balanced.of_windower_eq (hs : s.Balanced)
    (hwindower : t.watch.windower = s.watch.windower) (htask : t.watch.task = s.watch.task)
    (hhand : t.inHand = s.inHand) : t.Balanced := by
  refine hs.of_sameEnds ?_ htask hhand ?_ <;> rw [hwindower]
  · exact ⟨rfl, rfl, rfl⟩
  · exact id

/-- An edge closes no window and ends no task. -/
theorem Balanced.edge (hs : s.Balanced) {now : Instant} {armable : Bool} {answer : EdgeAnswer}
    (done : s.watch.edge now armable = .ok (answer, watch)) : Balanced { s with watch } := by
  obtain ⟨windower, hedge, rfl⟩ := Watch.edge_eq_ok done
  have hcase := Windower.edge_eq_ok hedge
  exact hs.of_sameEnds hcase.sameEnds rfl rfl hcase.disarmed_iff.mpr

/-- A window that closes is counted as closed and becomes the waiting task; the task it replaces is
counted as coalesced. -/
theorem Balanced.poll (hs : s.Balanced) {now : Instant} {verdict : Verdict}
    (done : s.watch.poll now = .ok (verdict, watch)) : Balanced { s with watch } := by
  cases Watch.poll_eq_ok done with
  | quiet _ _ => exact hs
  | @expired report windower coalesced asked replaced =>
    cases Windower.poll_eq_ok asked with
    | @expired window total closed collecting due before count =>
      -- A window is open, so nothing was torn down and nothing was cancelled.
      have hzero : s.watch.windower.tally.cancelled.toNat = 0 := by
        by_contra hne
        have htorn := (hs.cancelled_of hne).1
        rw [collecting] at htorn
        cases htorn
      have hended := hs.ended
      refine ⟨?_, hs.cancelled_le, fun hne => absurd hzero hne⟩
      simp only [Tally.endings, Option.toList_some, List.length_singleton] at hended replaced ⊢
      omega

/-- Taking a task moves it from the queue into the worker's hand, or cancels it. -/
theorem Balanced.takeJob (hs : s.Balanced) {job : Job} (hempty : s.inHand = none)
    (done : s.watch.takeJob = .ok (job, watch)) :
    Balanced { watch, inHand := (Watch.Answer.job job).taken? } := by
  obtain ⟨rfl, cancelled, hcount, rfl⟩ := Watch.takeJob_eq_ok done
  have hended := hs.ended
  have hle := s.watch.task.length_toList_le
  rw [hempty, Option.toList_none, List.length_nil] at hended
  cases hdis : s.watch.windower.isDisarmed with
  | true =>
    have htorn := Windower.isDisarmed_eq_true_iff.mp hdis
    have hhand : (Watch.Answer.job s.watch.jobNow).taken? = none := by
      rw [Watch.jobNow, if_pos hdis]
      rfl
    rw [hdis, if_pos rfl] at hcount
    rw [hhand]
    refine ⟨?_, ?_, fun _ => ⟨htorn, rfl⟩⟩
    · simp only [Tally.endings, Watch.windower_setTally, Option.toList_none, List.length_nil]
        at hended ⊢
      omega
    · -- If a task was cancelled before, no task waits now.
      show cancelled.toNat ≤ 1
      by_cases hzero : s.watch.windower.tally.cancelled.toNat = 0
      · omega
      · have hnone := (hs.cancelled_of hzero).2
        have hcancelled := hs.cancelled_le
        rw [hnone, Option.toList_none, List.length_nil] at hcount
        omega
  | false =>
    have hhand : (Watch.Answer.job s.watch.jobNow).taken? = s.watch.task := by
      rw [Watch.jobNow, hdis, if_neg Bool.false_ne_true]
      cases s.watch.task <;> rfl
    rw [hdis, if_neg Bool.false_ne_true, Nat.add_zero] at hcount
    rw [hhand]
    refine ⟨?_, ?_, ?_⟩
    · simp only [Tally.endings, Watch.windower_setTally, Option.toList_none, List.length_nil]
        at hended ⊢
      omega
    · exact hcount ▸ hs.cancelled_le
    · intro hne
      exact ⟨(hs.cancelled_of (hcount ▸ hne)).1, rfl⟩

/-- Settling moves the task from the worker's hand to the deliveries. -/
theorem Balanced.settle (hs : s.Balanced) {task window : Report} {level : Bool} {now : Instant}
    {event : Event} (holds : s.inHand = some task)
    (done : s.watch.settle level window now = .ok (event, watch)) :
    Balanced { watch, inHand := none } := by
  obtain ⟨delivered, hnext, -, -, rfl⟩ := Watch.settle_eq_ok done
  have hended := hs.ended
  refine ⟨?_, hs.cancelled_le, hs.cancelled_of⟩
  simp only [holds, Tally.endings, Option.toList_some, Option.toList_none, List.length_singleton,
    List.length_nil] at hended ⊢
  omega

/-- A failed reading moves the task from the worker's hand to the failures. -/
theorem Balanced.unreadable (hs : s.Balanced) {task : Report} {message : String}
    (holds : s.inHand = some task) (done : s.watch.unreadable message = .ok watch) :
    Balanced { watch, inHand := none } := by
  obtain ⟨failed, hnext, rfl⟩ := Watch.unreadable_eq_ok done
  have hended := hs.ended
  refine ⟨?_, hs.cancelled_le, hs.cancelled_of⟩
  simp only [holds, Tally.endings, Option.toList_some, Option.toList_none, List.length_singleton,
    List.length_nil] at hended ⊢
  omega

/-- Every step of a shift keeps its books in order. -/
theorem Balanced.step (hs : s.Balanced) {op : Watch.Op} {answer : Watch.Answer}
    (h : s.step op = .ok (answer, t)) : t.Balanced := by
  cases step_eq_ok h with
  | edge done => exact hs.edge done
  | poll done => exact hs.poll done
  | takeJob empty done => exact hs.takeJob empty done
  | settle holds done => exact hs.settle holds done
  | unreadable holds done => exact hs.unreadable holds done
  | handled failure =>
    exact hs.of_windower_eq (Watch.windower_handled _ _) (Watch.task_handled _ _) rfl
  | disarm => exact hs.of_sameEnds ⟨rfl, rfl, rfl⟩ rfl rfl fun _ => rfl
  | takeUnreported => exact hs.of_windower_eq rfl rfl rfl
  | snapshot => exact hs

/-- The books are in order after every run. -/
theorem balanced_of_run {source : UInt32} {length : Micros} {level : Bool}
    {ops : List Watch.Op} {answers : List Watch.Answer}
    (h : run step (start source length level) ops = .ok (answers, s)) : s.Balanced :=
  run_invariant (balanced_start source length level) (fun _ _ _ _ hm hstep => hm.step hstep) h

/-- When nothing is in hand, the check of a snapshot succeeds. -/
theorem Balanced.accounted (hs : s.Balanced) (hempty : s.inHand = none) :
    s.watch.snapshot.accounted = .ok true := by
  have hended := hs.ended
  rw [hempty, Option.toList_none, List.length_nil, Nat.add_zero, Option.length_toList] at hended
  exact (Tally.accounted_eq_ok_true_iff _ _).mpr hended

/-- **Window accounting.** In whatever order edges, polls, snapshots, the teardown and the steps of
one worker come, the closed windows are those delivered, failed, coalesced and cancelled, the one
that waits and the one in hand. So the check of a snapshot succeeds whenever nothing is in hand, and
at most one task is ever cancelled. -/
theorem windows_accounted {source : UInt32} {length : Micros} {level : Bool}
    {ops : List Watch.Op} {answers : List Watch.Answer}
    (h : run step (start source length level) ops = .ok (answers, s)) :
    s.watch.windower.tally.delivered.toNat + s.watch.windower.tally.failed.toNat +
          s.watch.windower.tally.coalesced.toNat + s.watch.windower.tally.cancelled.toNat +
        (if s.watch.task.isSome then 1 else 0) + (if s.inHand.isSome then 1 else 0) =
      s.watch.windower.tally.closed.toNat ∧
    (s.inHand = none → s.watch.snapshot.accounted = .ok true) ∧
    s.watch.windower.tally.cancelled.toNat ≤ 1 := by
  have hs := balanced_of_run h
  have hended := hs.ended
  rw [Option.length_toList, Option.length_toList] at hended
  exact ⟨hended, hs.accounted, hs.cancelled_le⟩

/-- Three windows close: the first is coalesced, the second delivered, the third cancelled. -/
def threeWindows : List Watch.Op :=
  [.edge 0 true, .poll 10, .edge 20 true, .poll 30, .takeJob, .settle true ⟨20, 30, 1, 2⟩ 31,
    .edge 40 true, .poll 50, .disarm, .takeJob]

/-- After `threeWindows` nothing is in hand, and the check succeeds. -/
theorem windows_accounted_threeWindows :
    ∃ answers s, run step (start 7 10 false) threeWindows = .ok (answers, s) ∧ s.inHand = none ∧
      s.watch.windower.tally.closed = 3 ∧ s.watch.windower.tally.cancelled = 1 ∧
      s.watch.snapshot.accounted = .ok true := by
  have hrun : (run step (start 7 10 false) threeWindows).map (fun p =>
      (p.2.inHand, p.2.watch.windower.tally.closed, p.2.watch.windower.tally.cancelled)) =
      .ok (none, 3, 1) := rfl
  obtain ⟨⟨answers, s⟩, h, hs⟩ := map_eq_ok_iff.mp hrun
  simp only [Prod.mk.injEq] at hs
  exact ⟨answers, s, h, hs.1, hs.2.1, hs.2.2, (windows_accounted h).2.1 hs.1⟩

end Shift

end Settle
