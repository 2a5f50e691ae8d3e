import Settle.Proofs.Windower.Steps

/-!
# A windower in plain fields

A windower holds its open window as one value, and when the window is gone, all of it is gone. The
same windowing can be done on plain fields that are always there: a phase, the number of edges in
the window, the edges that came too late for it. Nothing in their types ties them to each other. Each
branch of each operation sets the fields that it changes, and a branch that forgets one leaves
something behind for a window that has nothing to do with it.

This file defines windowing on plain fields (`Fields`) and lays a windower out in them (`fields`).
The layout commutes with every operation, halts included (`apply_fields`), so a run on plain fields
is a run of the windower, laid out (`run_fields`).
-/

namespace Settle.Windower

/-- The windower of one line in plain fields. -/
structure Fields where
  /-- The length of every window. -/
  length : Micros
  /-- Where windowing stands. -/
  phase : Phase := .idle
  /-- The instant of the last accepted edge. -/
  lastEdge : Option Instant := none
  /-- How many edges the open window has so far. -/
  windowEdges : Count := 0
  /-- The edges that came too late for the open window. -/
  carryOver : Option Carried := none
  /-- What is counted. -/
  tally : Tally := {}
deriving DecidableEq, Repr

namespace Fields

/-- Whether a window is open. -/
def isPending (f : Fields) : Bool :=
  match f.phase with
  | .pending _ _ => true
  | _ => false

/-- Counts an edge at `now` and the gap since the last one. -/
def accept (f : Fields) (now : Instant) : Except Halt Fields := do
  let edges ← Word.plus f.tally.edges 1
  let tally := { f.tally with edges }
  let tally := match f.lastEdge with
    | none => tally
    | some before => tally.noteGap (Word.since now before)
  return { f with tally, lastEdge := some now }

/-- Takes in one edge at `now`. The carry-over is not touched when a window opens, and the number of
edges in the window is not touched when an edge is carried. -/
def edge (f : Fields) (now : Instant) (armable : Bool) : Except Halt (EdgeAnswer × Fields) :=
  match f.phase with
  | .disarmed => return ({ outcome := .ignored }, f)
  | .idle => do
    let f ← f.accept now
    let deadline := Word.later now f.length
    if armable then
      return ({ outcome := .opened deadline, asked := some deadline },
        { f with phase := .pending now deadline, windowEdges := 1 })
    else do
      let unarmed ← Word.plus f.tally.unarmed 1
      return ({ outcome := .degraded, asked := some deadline },
        { f with tally := { f.tally with unarmed } })
  | .pending _ deadline => do
    let f ← f.accept now
    if deadline ≤ now then do
      let carry := f.carryOver.getD { first := now, edges := 0 }
      let edges ← Word.plus carry.edges 1
      return ({ outcome := .carried }, { f with carryOver := some { carry with edges } })
    else do
      let windowEdges ← Word.plus f.windowEdges 1
      return ({ outcome := .absorbed }, { f with windowEdges })

/-- Leaves the open window, and goes on to the one that the carried edges open, if there are any. -/
def reopen (f : Fields) : Fields :=
  let idle := { f with phase := .idle, windowEdges := 0 }
  match f.carryOver with
  | none => idle
  | some carry =>
    { idle with
      carryOver := none
      phase := .pending carry.first (Word.later carry.first f.length)
      windowEdges := carry.edges }

/-- Says what is due at `now`, and closes the open window if it is due. -/
def poll (f : Fields) (now : Instant) : Except Halt (Verdict × Fields) :=
  match f.phase with
  | .disarmed => return (.stop, f)
  | .idle => return (.idle, f)
  | .pending opened deadline =>
    if now < deadline then do
      let us ← Word.minus deadline now
      return (.wait us, f)
    else do
      let total ← Word.minus f.tally.edges (f.carryOver.elim 0 Carried.edges)
      let closed ← Word.plus f.tally.closed 1
      return (.expired { opened, deadline, edges := f.windowEdges, total },
        { f with tally := { f.tally with closed } }.reopen)

/-- Counts one delivered event and says which one it is, from 1. -/
def deliver (f : Fields) : Except Halt (Count × Fields) := do
  let delivered ← Word.plus f.tally.delivered 1
  if delivered ≤ f.tally.edges then
    return (delivered, { f with tally := { f.tally with delivered } })
  else throw .deliveredTooMany

/-- Tears windowing down and says whether a window was open. -/
def disarm (f : Fields) : Bool × Fields :=
  (f.isPending, { f with phase := .disarmed, carryOver := none, windowEdges := 0 })

/-- Performs one operation. -/
def apply (f : Fields) : Op → Except Halt (Answer × Fields)
  | .edge now armable => do
    let (answer, f) ← f.edge now armable
    return (.edge answer, f)
  | .poll now => do
    let (verdict, f) ← f.poll now
    return (.verdict verdict, f)
  | .deliver => do
    let (n, f) ← f.deliver
    return (.sequence n, f)
  | .disarm =>
    let (b, f) := f.disarm
    return (.wasPending b, f)

end Fields

/-! ## The layout of a windower -/

/-- A windower laid out in plain fields. Where it has no open window, the fields of a window are
blank. -/
def fields (w : Windower) : Fields where
  length := w.length
  phase := w.phase
  lastEdge := w.lastEdge
  windowEdges := match w.activity with
    | .collecting window => window.edges
    | _ => 0
  carryOver := match w.activity with
    | .collecting window => window.carried
    | _ => none
  tally := w.tally

/-- A new windower is laid out in new fields. -/
@[simp] theorem fields_new (length : Micros) : fields { length } = { length } := rfl

/-- An answer and the windower after it, laid out. -/
def seenFields {α : Type} (p : α × Windower) : α × Fields := (p.1, p.2.fields)

/-- The fields tell alike whether a window is open. -/
theorem isPending_fields (w : Windower) : w.fields.isPending = w.isPending := by
  unfold Fields.isPending isPending fields phase
  cases w.activity <;> rfl

/-- An edge is counted alike. -/
theorem accept_fields (w : Windower) (now : Instant) :
    w.fields.accept now = fields <$> w.accept now := by
  simp only [Fields.accept, accept, map_bind, map_pure]
  rfl

/-- An edge is taken in alike. -/
theorem edge_fields (w : Windower) (now : Instant) (armable : Bool) :
    w.fields.edge now armable = seenFields <$> w.edge now armable := by
  unfold Fields.edge edge
  cases hact : w.activity with
  | disarmed =>
    have hphase : w.fields.phase = .disarmed := by rw [fields, phase, hact]
    simp only [hphase]
    rfl
  | idle =>
    have hphase : w.fields.phase = .idle := phase_eq_idle_iff.mpr hact
    simp only [hphase, accept_fields, bind_map_left, map_bind]
    refine bind_congr_of_ok fun u haccept => ?_
    obtain ⟨edges, shortest, longest, -, rfl⟩ := accept_eq_ok haccept
    cases armable <;> simp [start, seenFields, fields, phase, counted, hact]
  | collecting window =>
    have hphase : w.fields.phase = .pending window.opened window.deadline :=
      phase_of_collecting hact
    simp only [hphase, accept_fields, bind_map_left, map_bind]
    -- Counting the edge has not touched the window, so both sides take the edge into the same one.
    refine bind_congr_of_ok fun u haccept => ?_
    obtain ⟨edges, shortest, longest, -, rfl⟩ := accept_eq_ok haccept
    by_cases hlate : window.deadline ≤ now
    · cases hcarried : window.carried <;>
        simp [OpenWindow.take, OpenWindow.carriedEdges, hlate, hcarried, seenFields, fields, phase,
          counted, hact]
    · simp [OpenWindow.take, hlate, seenFields, fields, phase, counted, hact]

/-- A poll is answered alike. -/
theorem poll_fields (w : Windower) (now : Instant) :
    w.fields.poll now = seenFields <$> w.poll now := by
  unfold Fields.poll poll
  cases hact : w.activity with
  | disarmed =>
    have hphase : w.fields.phase = .disarmed := by rw [fields, phase, hact]
    simp only [hphase]
    rfl
  | idle =>
    have hphase : w.fields.phase = .idle := phase_eq_idle_iff.mpr hact
    simp only [hphase]
    rfl
  | collecting window =>
    have hphase : w.fields.phase = .pending window.opened window.deadline :=
      phase_of_collecting hact
    simp only [hphase]
    by_cases hearly : now < window.deadline
    · simp [hearly, seenFields]
    · cases hcarried : window.carried <;>
        simp [hearly, seenFields, fields, phase, hact, hcarried, OpenWindow.carriedEdges,
          OpenWindow.next, Fields.reopen, report]

/-- A delivery does not look at any window. -/
theorem deliver_fields (w : Windower) : w.fields.deliver = seenFields <$> w.deliver := by
  simp only [Fields.deliver, deliver, map_bind]
  refine bind_congr fun delivered => ?_
  by_cases hle : delivered ≤ w.tally.edges
  · simp [hle, seenFields, fields, phase]
  · simp only [fields, hle, if_false]
    rfl

/-- The teardown is answered alike. -/
theorem disarm_fields (w : Windower) : w.fields.disarm = seenFields w.disarm := by
  rw [Fields.disarm, isPending_fields]
  rfl

/-- **The layout commutes with every operation**: it is answered alike or halts alike, and the
windower after it is laid out in the fields after it. -/
theorem apply_fields (w : Windower) (op : Op) :
    w.fields.apply op = seenFields <$> w.apply op := by
  cases op with
  | edge now armable =>
    simp only [Fields.apply, apply, edge_fields, bind_map_left, map_bind, map_pure]
    rfl
  | poll now =>
    simp only [Fields.apply, apply, poll_fields, bind_map_left, map_bind, map_pure]
    rfl
  | deliver =>
    simp only [Fields.apply, apply, deliver_fields, bind_map_left, map_bind, map_pure]
    rfl
  | disarm =>
    simp only [Fields.apply, apply, disarm_fields]
    rfl

/-- A run on plain fields is a run of the windower, laid out, and it halts where that one halts. -/
theorem run_fields (w : Windower) (ops : List Op) :
    run Fields.apply w.fields ops = seenFields <$> run apply w ops :=
  run_view fields apply_fields w ops

/-- A run that does not halt is laid out step by step. -/
theorem run_fields_of_run {w v : Windower} {ops : List Op} {answers : List Answer}
    (h : run apply w ops = .ok (answers, v)) :
    run Fields.apply w.fields ops = .ok (answers, v.fields) := by
  rw [run_fields, h]
  rfl

end Settle.Windower
