import Settle.Proofs.Watch.Steps

/-!
# The worker does not reach upstream

A watch is worked from two sides. *Upstream* are the edges, the timer's polls and the teardown: they
open and close windows. Downstream are the worker, who takes tasks and records what came of them,
and the callers, who ask for snapshots and take the unreported faults. Both sides write into one
tally, and a poll that closes a window looks at the queue; yet nothing that is done downstream
changes what upstream is answered.

The reason is that a windower neither reads the four counts of what became of closed windows nor
needs them: without them (`Windower.upstream`) it gives the same answers (`edge_upstream`,
`poll_upstream`). So the upstream operations of a run of the watch are by themselves a run of the
windower (`run_upstream`), and a run is determined by its first state and its operations.

Main statement: `upstream_unaffected`.
-/

namespace Settle

/-! ## The windower without the ends of tasks -/

/-- A tally without the counts of what became of closed windows. -/
def Tally.upstream (t : Tally) : Tally :=
  { t with delivered := 0, coalesced := 0, cancelled := 0, failed := 0 }

/-- Gaps are noted upstream. -/
theorem Tally.upstream_noteGap (t : Tally) (gap : Micros) :
    t.upstream.noteGap gap = (t.noteGap gap).upstream := by
  by_cases hgap : 0 < gap <;> simp [noteGap, hgap, upstream]

namespace Windower

/-- A windower without the counts of what became of closed windows. -/
def upstream (w : Windower) : Windower := { w with tally := w.tally.upstream }

/-- An answer and the windower after it, as they are upstream. -/
def seenUpstream {α : Type} (p : α × Windower) : α × Windower := (p.1, p.2.upstream)

/-- An edge is counted alike. -/
theorem accept_upstream (w : Windower) (now : Instant) :
    w.upstream.accept now = upstream <$> w.accept now := by
  simp only [accept, map_bind, map_pure]
  refine congrArg (Word.plus w.tally.edges 1 >>= ·) (funext fun edges => ?_)
  cases hlast : w.lastEdge with
  | none => simp [upstream, hlast, Tally.upstream]
  | some before =>
    simp only [upstream, hlast, ← Tally.upstream_noteGap]
    rfl

/-- A window is opened alike. -/
theorem start_upstream (w : Windower) (now : Instant) (armable : Bool) :
    w.upstream.start now armable = seenUpstream <$> w.start now armable := by
  cases armable <;> simp [start, seenUpstream, upstream, Tally.upstream]

/-- An edge is answered alike. -/
theorem edge_upstream (w : Windower) (now : Instant) (armable : Bool) :
    w.upstream.edge now armable = seenUpstream <$> w.edge now armable := by
  unfold edge
  cases hact : w.activity with
  | disarmed => simp [upstream, hact, seenUpstream]
  | idle =>
    simp only [show w.upstream.activity = .idle from hact, accept_upstream, bind_map_left,
      start_upstream, map_bind]
  | collecting window =>
    simp only [show w.upstream.activity = .collecting window from hact, accept_upstream,
      bind_map_left, map_bind, map_pure]
    rfl

/-- A poll is answered alike. -/
theorem poll_upstream (w : Windower) (now : Instant) :
    w.upstream.poll now = seenUpstream <$> w.poll now := by
  unfold poll
  cases hact : w.activity with
  | disarmed => simp [upstream, hact, seenUpstream]
  | idle => simp [upstream, hact, seenUpstream]
  | collecting window =>
    simp only [show w.upstream.activity = .collecting window from hact]
    by_cases hearly : now < window.deadline
    · simp [hearly, seenUpstream]
    · simp [hearly, seenUpstream, upstream, Tally.upstream]

end Windower

namespace Watch

variable {w v : Watch} {op : Op} {answer : Answer}

/-! ## The windower in a run of the watch -/

/-- What an operation is upstream: an edge, a poll, the teardown, or nothing. -/
def Op.upstream? : Op → Option Windower.Op
  | .edge now armable => some (.edge now armable)
  | .poll now => some (.poll now)
  | .disarm => some .disarm
  | _ => none

/-- What an answer is upstream. -/
def Answer.upstream? : Answer → Option Windower.Answer
  | .edge a => some (.edge a)
  | .verdict a => some (.verdict a)
  | .wasPending a => some (.wasPending a)
  | _ => none

/-- What is done downstream changes no more of the windower than the counts of what became of closed
windows. -/
theorem upstream_eq_of_downstream (h : w.apply op = .ok (answer, v)) (hop : op.upstream? = none) :
    answer.upstream? = none ∧ v.windower.upstream = w.windower.upstream := by
  cases apply_eq_ok h with
  | takeJob done =>
    obtain ⟨-, cancelled, -, rfl⟩ := takeJob_eq_ok done
    exact ⟨rfl, rfl⟩
  | settle done =>
    obtain ⟨delivered, -, -, -, rfl⟩ := settle_eq_ok done
    exact ⟨rfl, rfl⟩
  | unreadable done =>
    obtain ⟨failed, -, rfl⟩ := unreadable_eq_ok done
    exact ⟨rfl, rfl⟩
  | handled failure => exact ⟨rfl, by rw [windower_handled]⟩
  | takeUnreported => exact ⟨rfl, rfl⟩
  | snapshot => exact ⟨rfl, rfl⟩
  | edge _ => cases hop
  | poll _ => cases hop
  | disarm => cases hop

/-- An operation upstream is one of the windower alone: the queue is looked at only to count a task
as coalesced. -/
theorem apply_upstream (h : w.apply op = .ok (answer, v)) {op' : Windower.Op}
    (hop : op.upstream? = some op') :
    ∃ answer', answer.upstream? = some answer' ∧
      w.windower.upstream.apply op' = .ok (answer', v.windower.upstream) := by
  cases apply_eq_ok h with
  | @edge now armable answer v done =>
    cases hop
    obtain ⟨windower, hedge, rfl⟩ := edge_eq_ok done
    refine ⟨.edge answer, rfl, ?_⟩
    rw [Windower.apply, Windower.edge_upstream, hedge]
    rfl
  | @poll now verdict v done =>
    cases hop
    refine ⟨.verdict verdict, rfl, ?_⟩
    rw [Windower.apply, Windower.poll_upstream]
    cases poll_eq_ok done with
    | quiet asked _ =>
      rw [asked]
      rfl
    | expired asked _ =>
      rw [asked]
      rfl
  | disarm =>
    cases hop
    exact ⟨.wasPending w.disarm.1, rfl, rfl⟩
  | _ => cases hop

/-- The upstream operations of a run are a run of the windower alone. -/
theorem run_upstream {ops : List Op} {answers : List Answer}
    (h : run apply w ops = .ok (answers, v)) :
    run Windower.apply w.windower.upstream (ops.filterMap Op.upstream?) =
      .ok (answers.filterMap Answer.upstream?, v.windower.upstream) := by
  refine run_filterMap (fun w => w.windower.upstream) (fun w op answer v hstep => ?_) h
  cases hop : op.upstream? with
  | none => exact .inl ⟨rfl, upstream_eq_of_downstream hstep hop⟩
  | some op' =>
    obtain ⟨answer', hanswer, happly⟩ := apply_upstream hstep hop
    exact .inr ⟨op', answer', rfl, hanswer, happly⟩

/-- **The worker does not reach upstream.** Take two runs of a watch from one state, in which the
same edges, polls and teardowns come in the same order, and between them whatever else is done to
the watch. Then all edges, polls and teardowns are answered alike, down to the deadlines that the
timer was asked to arm and the reports of closed windows, and the watch is left in the same phase,
with the same last edge and the same counts of edges, closed windows, unarmed edges and gaps. -/
theorem upstream_unaffected {w s t : Watch} {ops ops' : List Op} {answers answers' : List Answer}
    (h : run apply w ops = .ok (answers, s)) (h' : run apply w ops' = .ok (answers', t))
    (same : ops.filterMap Op.upstream? = ops'.filterMap Op.upstream?) :
    answers.filterMap Answer.upstream? = answers'.filterMap Answer.upstream? ∧
      s.snapshot.phase = t.snapshot.phase ∧ s.snapshot.lastEdge = t.snapshot.lastEdge ∧
      s.snapshot.tally.edges = t.snapshot.tally.edges ∧
      s.snapshot.tally.closed = t.snapshot.tally.closed ∧
      s.snapshot.tally.unarmed = t.snapshot.tally.unarmed ∧
      s.snapshot.tally.shortestGap = t.snapshot.tally.shortestGap ∧
      s.snapshot.tally.longestGap = t.snapshot.tally.longestGap := by
  have hrun := run_upstream h
  rw [same, run_upstream h', Except.ok.injEq, Prod.mk.injEq] at hrun
  obtain ⟨hanswers, hwindower⟩ := hrun
  have hshared {α : Type} (f : Windower → α) : f s.windower.upstream = f t.windower.upstream :=
    (congrArg f hwindower).symm
  exact ⟨hanswers.symm, hshared Windower.phase, hshared Windower.lastEdge,
    hshared fun w => w.tally.edges, hshared fun w => w.tally.closed,
    hshared fun w => w.tally.unarmed, hshared fun w => w.tally.shortestGap,
    hshared fun w => w.tally.longestGap⟩

/-- A prompt worker: the first of two windows is delivered before the second closes. -/
def promptWorker : List Op :=
  [.edge 0 true, .poll 10, .takeJob, .settle true ⟨0, 10, 1, 1⟩ 11, .handled none, .edge 20 false,
    .edge 21 true, .edge 35 true, .poll 31, .disarm, .takeJob]

/-- A slow worker and a curious caller: the same two windows are coalesced. -/
def slowWorker : List Op :=
  [.snapshot, .edge 0 true, .poll 10, .edge 20 false, .unreadable "no", .takeUnreported,
    .edge 21 true, .handled (some "no"), .edge 35 true, .poll 31, .snapshot, .takeJob, .disarm]

/-- The two workers leave the same upstream, though one window is coalesced by the slow one. -/
theorem upstream_unaffected_slowWorker :
    promptWorker.filterMap Op.upstream? = slowWorker.filterMap Op.upstream? ∧
    ∃ answers s answers' t, run apply (new 7 10 false) promptWorker = .ok (answers, s) ∧
      run apply (new 7 10 false) slowWorker = .ok (answers', t) ∧
      s.snapshot.tally.coalesced = 0 ∧ t.snapshot.tally.coalesced = 1 ∧
      answers.filterMap Answer.upstream? = answers'.filterMap Answer.upstream? ∧
      s.snapshot.tally.closed = t.snapshot.tally.closed := by
  have same : promptWorker.filterMap Op.upstream? = slowWorker.filterMap Op.upstream? := rfl
  have hprompt : (run apply (new 7 10 false) promptWorker).map
      (fun p => p.2.snapshot.tally.coalesced) = .ok 0 := rfl
  have hslow : (run apply (new 7 10 false) slowWorker).map
      (fun p => p.2.snapshot.tally.coalesced) = .ok 1 := rfl
  obtain ⟨⟨answers, s⟩, h, hs⟩ := map_eq_ok_iff.mp hprompt
  obtain ⟨⟨answers', t⟩, h', ht⟩ := map_eq_ok_iff.mp hslow
  obtain ⟨hanswers, -, -, -, hclosed, -⟩ := upstream_unaffected h h' same
  exact ⟨same, answers, s, answers', t, h, h', hs, ht, hanswers, hclosed⟩

end Watch

end Settle
