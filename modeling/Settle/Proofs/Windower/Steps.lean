import Settle.Proofs.Run
import Settle.Windower

/-!
# What one operation does to a windower

An operation that is performed leaves one of a few marks. This file lists them once: `EdgeCase` for
an edge, `PollCase` for a poll, `deliver_eq_ok` for a delivery, and `ApplyCase` for all of them
together. Each case names the activity it starts from, the guard that led to it and the exact state
after it, with every count given as a natural number. What is preserved by windowing is proved by
cases on these lists; nothing else unfolds the operations.
-/

namespace Settle

namespace OpenWindow

/-- The first carried edge, once an edge at `now` is carried too. -/
def firstCarried (w : OpenWindow) (now : Instant) : Instant :=
  match w.carried with
  | none => now
  | some c => c.first

/-- The first carried edge is the one that was carried before, or else the new one. -/
theorem toNat_firstCarried (w : OpenWindow) (now : Instant) :
    (w.firstCarried now).toNat = (w.carried.map fun c => c.first.toNat).getD now.toNat := by
  unfold firstCarried
  cases w.carried <;> rfl

end OpenWindow

namespace Windower

variable {w v : Windower} {now : Instant} {armable : Bool}

/-- A windower says that it is torn down when it is. -/
theorem isDisarmed_eq_true_iff : w.isDisarmed = true ↔ w.activity = .disarmed := by
  unfold isDisarmed
  cases w.activity <;> simp

/-- The phase tells whether the windower is idle. -/
theorem phase_eq_idle_iff : w.phase = .idle ↔ w.activity = .idle := by
  unfold phase
  cases w.activity <;> simp

/-- The phase tells the instants of the open window. -/
theorem phase_of_collecting {window : OpenWindow} (h : w.activity = .collecting window) :
    w.phase = .pending window.opened window.deadline := by
  rw [phase, h]

/-- If the phase tells of a window, this window is open. -/
theorem exists_collecting_of_phase {opened deadline : Instant}
    (h : w.phase = .pending opened deadline) :
    ∃ window, w.activity = .collecting window ∧ window.opened = opened ∧
      window.deadline = deadline := by
  unfold phase at h
  split at h
  · cases h
  · next window hwindow =>
    cases h
    exact ⟨window, hwindow, rfl, rfl⟩
  · cases h

/-! ## Edges -/

/-- The windower after it has counted an edge at `now`: the number of edges and the gaps are new. -/
def counted (w : Windower) (now : Instant) (edges : Count) (shortest longest : Option Micros) :
    Windower :=
  { w with
    tally := { w.tally with edges, shortestGap := shortest, longestGap := longest },
    lastEdge := some now }

/-- Accepting an edge adds one to the number of edges, and touches the gaps and the last edge. -/
theorem accept_eq_ok (h : w.accept now = .ok v) :
    ∃ edges shortest longest, edges.toNat = w.tally.edges.toNat + 1 ∧
      v = w.counted now edges shortest longest := by
  rw [accept, bind_eq_ok_iff] at h
  obtain ⟨edges, hplus, h⟩ := h
  rw [pure_eq_ok_iff] at h
  have hcount : edges.toNat = w.tally.edges.toNat + 1 := (Word.plus_eq_ok_iff _ _ _).mp hplus
  cases hlast : w.lastEdge with
  | none =>
    rw [hlast] at h
    exact ⟨edges, w.tally.shortestGap, w.tally.longestGap, hcount, h.symm⟩
  | some before =>
    rw [hlast] at h
    by_cases hgap : 0 < Word.since now before
    · refine ⟨edges, some (Tally.least (Word.since now before) w.tally.shortestGap),
        some (Tally.greatest (Word.since now before) w.tally.longestGap), hcount, ?_⟩
      rw [← h]
      simp only [Tally.noteGap, if_pos hgap, counted]
    · refine ⟨edges, w.tally.shortestGap, w.tally.longestGap, hcount, ?_⟩
      rw [← h]
      simp only [Tally.noteGap, if_neg hgap, counted]

/-- What can become of an edge at `now`: the answer, and the windower after it. -/
inductive EdgeCase (w : Windower) (now : Instant) (armable : Bool) :
    EdgeAnswer → Windower → Prop where
  /-- The windower is torn down. -/
  | ignored (torn : w.activity = .disarmed) : EdgeCase w now armable { outcome := .ignored } w
  /-- No window is open and the timer can be armed. -/
  | opened {edges : Count} {shortest longest : Option Micros} (idle : w.activity = .idle)
      (arms : armable = true) (count : edges.toNat = w.tally.edges.toNat + 1) :
      EdgeCase w now armable
        { outcome := .opened (Word.later now w.length), asked := some (Word.later now w.length) }
        { w.counted now edges shortest longest with
          activity := .collecting
            { opened := now, deadline := Word.later now w.length, edges := 1 } }
  /-- No window is open and the timer cannot be armed. -/
  | degraded {edges unarmed : Count} {shortest longest : Option Micros} (idle : w.activity = .idle)
      (fails : armable = false) (count : edges.toNat = w.tally.edges.toNat + 1)
      (missed : unarmed.toNat = w.tally.unarmed.toNat + 1) :
      EdgeCase w now armable
        { outcome := .degraded, asked := some (Word.later now w.length) }
        { w.counted now edges shortest longest with
          tally := { (w.counted now edges shortest longest).tally with unarmed } }
  /-- The edge falls into the open window. -/
  | absorbed {window : OpenWindow} {edges inside : Count} {shortest longest : Option Micros}
      (collecting : w.activity = .collecting window) (early : now < window.deadline)
      (count : edges.toNat = w.tally.edges.toNat + 1)
      (more : inside.toNat = window.edges.toNat + 1) :
      EdgeCase w now armable { outcome := .absorbed }
        { w.counted now edges shortest longest with
          activity := .collecting { window with edges := inside } }
  /-- The edge comes too late for the open window. -/
  | carried {window : OpenWindow} {edges waiting : Count} {shortest longest : Option Micros}
      (collecting : w.activity = .collecting window) (late : window.deadline ≤ now)
      (count : edges.toNat = w.tally.edges.toNat + 1)
      (more : waiting.toNat = window.carriedEdges.toNat + 1) :
      EdgeCase w now armable { outcome := .carried }
        { w.counted now edges shortest longest with
          activity := .collecting
            { window with carried := some { first := window.firstCarried now, edges := waiting } } }

/-- These are all the edges. -/
theorem edge_eq_ok {answer : EdgeAnswer} (h : w.edge now armable = .ok (answer, v)) :
    EdgeCase w now armable answer v := by
  unfold edge at h
  cases hact : w.activity with
  | disarmed =>
    simp only [hact, pure_eq_ok_iff, Prod.mk.injEq] at h
    obtain ⟨rfl, rfl⟩ := h
    exact .ignored hact
  | idle =>
    simp only [hact, bind_eq_ok_iff] at h
    obtain ⟨u, haccept, h⟩ := h
    obtain ⟨edges, shortest, longest, hcount, rfl⟩ := accept_eq_ok haccept
    cases armable with
    | true =>
      simp only [start, if_true, pure_eq_ok_iff, Prod.mk.injEq] at h
      obtain ⟨rfl, rfl⟩ := h
      exact .opened hact rfl hcount
    | false =>
      simp only [start, Bool.false_eq_true, if_false, bind_eq_ok_iff, pure_eq_ok_iff,
        Prod.mk.injEq] at h
      obtain ⟨unarmed, hplus, rfl, rfl⟩ := h
      exact .degraded hact rfl hcount ((Word.plus_eq_ok_iff _ _ _).mp hplus)
  | collecting window =>
    simp only [hact, bind_eq_ok_iff, pure_eq_ok_iff, Prod.exists, Prod.mk.injEq] at h
    obtain ⟨u, haccept, outcome, after, htake, rfl, rfl⟩ := h
    obtain ⟨edges, shortest, longest, hcount, rfl⟩ := accept_eq_ok haccept
    unfold OpenWindow.take at htake
    split at htake
    · next hlate =>
      simp only [bind_eq_ok_iff, pure_eq_ok_iff, Prod.mk.injEq] at htake
      obtain ⟨waiting, hplus, rfl, rfl⟩ := htake
      exact .carried hact hlate hcount ((Word.plus_eq_ok_iff _ _ _).mp hplus)
    · next hearly =>
      simp only [bind_eq_ok_iff, pure_eq_ok_iff, Prod.mk.injEq] at htake
      obtain ⟨inside, hplus, rfl, rfl⟩ := htake
      exact .absorbed hact (UInt64.not_le.mp hearly) hcount ((Word.plus_eq_ok_iff _ _ _).mp hplus)

/-- An edge neither tears a windower down nor brings one back. -/
theorem EdgeCase.disarmed_iff {answer : EdgeAnswer} (h : EdgeCase w now armable answer v) :
    v.activity = .disarmed ↔ w.activity = .disarmed := by
  cases h with
  | ignored _ => exact Iff.rfl
  | opened idle _ _ => simp [idle]
  | degraded _ _ _ _ => exact Iff.rfl
  | absorbed collecting _ _ _ => simp [collecting]
  | carried collecting _ _ _ => simp [collecting]

/-- Only a windower that is torn down ignores an edge. -/
theorem EdgeCase.ignored_iff {answer : EdgeAnswer} (h : EdgeCase w now armable answer v) :
    answer.outcome = .ignored ↔ w.activity = .disarmed := by
  cases h with
  | ignored torn => simp [torn]
  | opened idle _ _ => simp [idle]
  | degraded idle _ _ _ => simp [idle]
  | absorbed collecting _ _ _ => simp [collecting]
  | carried collecting _ _ _ => simp [collecting]

/-- An edge is counted once unless it is ignored. -/
theorem EdgeCase.edges_eq {answer : EdgeAnswer} (h : EdgeCase w now armable answer v) :
    v.tally.edges.toNat = w.tally.edges.toNat + if answer.outcome = .ignored then 0 else 1 := by
  cases h with
  | ignored _ => rfl
  | opened _ _ count => exact count
  | degraded _ _ count _ => exact count
  | absorbed _ _ count _ => exact count
  | carried _ _ count _ => exact count

/-- An edge ends no task. -/
theorem EdgeCase.ends_eq {answer : EdgeAnswer} (h : EdgeCase w now armable answer v) :
    v.tally.delivered = w.tally.delivered ∧ v.tally.failed = w.tally.failed ∧
      v.tally.coalesced = w.tally.coalesced ∧ v.tally.cancelled = w.tally.cancelled := by
  cases h <;> exact ⟨rfl, rfl, rfl, rfl⟩

/-! ## Polls -/

/-- What can come of a poll at `now`: the verdict, and the windower after it. -/
inductive PollCase (w : Windower) (now : Instant) : Verdict → Windower → Prop where
  /-- The windower is torn down. -/
  | stop (torn : w.activity = .disarmed) : PollCase w now .stop w
  /-- No window is open. -/
  | idle (idle : w.activity = .idle) : PollCase w now .idle w
  /-- The open window is not due. -/
  | wait {window : OpenWindow} {us : Micros} (collecting : w.activity = .collecting window)
      (early : now < window.deadline) (rest : us.toNat + now.toNat = window.deadline.toNat) :
      PollCase w now (.wait us) w
  /-- The open window is due and closes. -/
  | expired {window : OpenWindow} {total closed : Count}
      (collecting : w.activity = .collecting window) (due : window.deadline ≤ now)
      (before : total.toNat + window.carriedEdges.toNat = w.tally.edges.toNat)
      (count : closed.toNat = w.tally.closed.toNat + 1) :
      PollCase w now (.expired (report window total))
        { w with activity := window.next w.length, tally := { w.tally with closed } }

/-- These are all the polls. -/
theorem poll_eq_ok {verdict : Verdict} (h : w.poll now = .ok (verdict, v)) :
    PollCase w now verdict v := by
  unfold poll at h
  cases hact : w.activity with
  | disarmed =>
    simp only [hact, pure_eq_ok_iff, Prod.mk.injEq] at h
    obtain ⟨rfl, rfl⟩ := h
    exact .stop hact
  | idle =>
    simp only [hact, pure_eq_ok_iff, Prod.mk.injEq] at h
    obtain ⟨rfl, rfl⟩ := h
    exact .idle hact
  | collecting window =>
    simp only [hact] at h
    split at h
    · next hearly =>
      simp only [bind_eq_ok_iff, pure_eq_ok_iff, Prod.mk.injEq] at h
      obtain ⟨us, hminus, rfl, rfl⟩ := h
      exact .wait hact hearly ((Word.minus_eq_ok_iff _ _ _).mp hminus)
    · next hdue =>
      simp only [bind_eq_ok_iff, pure_eq_ok_iff, Prod.mk.injEq] at h
      obtain ⟨total, hminus, closed, hplus, rfl, rfl⟩ := h
      exact .expired hact (UInt64.not_lt.mp hdue) ((Word.minus_eq_ok_iff _ _ _).mp hminus)
        ((Word.plus_eq_ok_iff _ _ _).mp hplus)

/-- Closing a window tears nothing down. -/
theorem next_ne_disarmed (window : OpenWindow) (length : Micros) :
    window.next length ≠ .disarmed := by
  unfold OpenWindow.next
  cases window.carried <;> simp

/-- A poll neither tears a windower down nor brings one back. -/
theorem PollCase.disarmed_iff {verdict : Verdict} (h : PollCase w now verdict v) :
    v.activity = .disarmed ↔ w.activity = .disarmed := by
  cases h with
  | stop _ => exact Iff.rfl
  | idle _ => exact Iff.rfl
  | wait _ _ _ => exact Iff.rfl
  | expired collecting _ _ _ => simp [collecting, next_ne_disarmed]

/-- The timer is told to stop just when the windower is torn down. -/
theorem PollCase.stop_iff {verdict : Verdict} (h : PollCase w now verdict v) :
    verdict = .stop ↔ w.activity = .disarmed := by
  cases h with
  | stop torn => simp [torn]
  | idle idle => simp [idle]
  | wait collecting _ _ => simp [collecting]
  | expired collecting _ _ _ => simp [collecting]

/-- A poll ends no task by itself. -/
theorem PollCase.ends_eq {verdict : Verdict} (h : PollCase w now verdict v) :
    v.tally.delivered = w.tally.delivered ∧ v.tally.failed = w.tally.failed ∧
      v.tally.coalesced = w.tally.coalesced ∧ v.tally.cancelled = w.tally.cancelled := by
  cases h <;> exact ⟨rfl, rfl, rfl, rfl⟩

/-- What a poll says that closes no window. -/
theorem PollCase.unclosed {verdict : Verdict} (h : PollCase w now verdict v)
    (unclosed : ∀ report, verdict ≠ .expired report) :
    (verdict = .stop ∧ w.activity = .disarmed) ∨ (verdict = .idle ∧ w.activity = .idle) ∨
      ∃ window us, verdict = .wait us ∧ w.activity = .collecting window ∧ now < window.deadline ∧
        us.toNat + now.toNat = window.deadline.toNat := by
  cases h with
  | stop torn => exact .inl ⟨rfl, torn⟩
  | idle idle => exact .inr (.inl ⟨rfl, idle⟩)
  | wait collecting early rest => exact .inr (.inr ⟨_, _, rfl, collecting, early, rest⟩)
  | expired _ _ _ _ => exact absurd rfl (unclosed _)

/-! ## Deliveries -/

/-- A delivery has the next number, which is at most the number of edges. -/
theorem deliver_eq_ok {n : Count} (h : w.deliver = .ok (n, v)) :
    n.toNat = w.tally.delivered.toNat + 1 ∧ n.toNat ≤ w.tally.edges.toNat ∧
      v = { w with tally := { w.tally with delivered := n } } := by
  rw [deliver, bind_eq_ok_iff] at h
  obtain ⟨delivered, hplus, h⟩ := h
  split at h
  · next hle =>
    rw [pure_eq_ok_iff, Prod.mk.injEq] at h
    obtain ⟨rfl, rfl⟩ := h
    exact ⟨(Word.plus_eq_ok_iff _ _ _).mp hplus, UInt64.le_iff_toNat_le.mp hle, rfl⟩
  · cases h

/-! ## All operations -/

/-- What can come of an operation: the answer, and the windower after it. -/
inductive ApplyCase (w : Windower) : Op → Answer → Windower → Prop where
  /-- An edge. -/
  | edge {now : Instant} {armable : Bool} {answer : EdgeAnswer} {v : Windower}
      (act : EdgeCase w now armable answer v) : ApplyCase w (.edge now armable) (.edge answer) v
  /-- A poll. -/
  | poll {now : Instant} {verdict : Verdict} {v : Windower} (act : PollCase w now verdict v) :
      ApplyCase w (.poll now) (.verdict verdict) v
  /-- A delivery. -/
  | deliver {n : Count} (next : n.toNat = w.tally.delivered.toNat + 1)
      (le : n.toNat ≤ w.tally.edges.toNat) :
      ApplyCase w .deliver (.sequence n) { w with tally := { w.tally with delivered := n } }
  /-- The teardown. -/
  | disarm : ApplyCase w .disarm (.wasPending w.isPending) w.disarm.2

/-- These are all the operations. -/
theorem apply_eq_ok {op : Op} {answer : Answer} (h : w.apply op = .ok (answer, v)) :
    ApplyCase w op answer v := by
  cases op with
  | edge now armable =>
    simp only [apply, bind_eq_ok_iff, pure_eq_ok_iff, Prod.exists, Prod.mk.injEq] at h
    obtain ⟨answer', v', hedge, rfl, rfl⟩ := h
    exact .edge (edge_eq_ok hedge)
  | poll now =>
    simp only [apply, bind_eq_ok_iff, pure_eq_ok_iff, Prod.exists, Prod.mk.injEq] at h
    obtain ⟨verdict, v', hpoll, rfl, rfl⟩ := h
    exact .poll (poll_eq_ok hpoll)
  | deliver =>
    simp only [apply, bind_eq_ok_iff, pure_eq_ok_iff, Prod.exists, Prod.mk.injEq] at h
    obtain ⟨n, v', hdeliver, rfl, rfl⟩ := h
    obtain ⟨hnext, hle, rfl⟩ := deliver_eq_ok hdeliver
    exact .deliver hnext hle
  | disarm =>
    simp only [apply, pure_eq_ok_iff, Prod.mk.injEq] at h
    obtain ⟨rfl, rfl⟩ := h
    exact .disarm

end Windower

end Settle
