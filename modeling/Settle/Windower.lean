import Settle.Tally
import Settle.Window

/-!
# The windower

The windower groups the edges of one line into windows. It has no clock of its own: whoever calls
it says what time it is. The first edge after quiet opens a window of fixed length; edges inside a
window are counted and do not extend it; the window closes when a timer polls at or past its
deadline. An edge at or past the deadline that comes before such a poll belongs to the next
window: it is counted at once and *carried*, and the poll that closes the old window opens the
next one at the first carried edge. Disarming is final.

The open window is a value of its own (`OpenWindow`), held only while one is open; so a windower
that is idle or disarmed has no edges in hand.
-/

namespace Settle

/-- Edges seen at or past the deadline of the window that is still open. -/
structure Carried where
  /-- The instant of the first of them. -/
  first : Instant
  /-- How many there are. -/
  edges : Count
deriving DecidableEq, Repr

/-- A window that has not been closed yet. -/
structure OpenWindow where
  /-- The instant of its first edge. -/
  opened : Instant
  /-- The first instant past it. -/
  deadline : Instant
  /-- Its edges so far. -/
  edges : Count
  /-- The edges that came too late for it. -/
  carried : Option Carried := none
deriving DecidableEq, Repr

/-- What the windower is doing. -/
inductive Activity where
  /-- No window is open. -/
  | idle
  /-- A window is open. -/
  | collecting (window : OpenWindow)
  /-- Torn down for good. -/
  | disarmed
deriving DecidableEq, Repr

/-- The windower of one line. -/
structure Windower where
  /-- The length of every window. -/
  length : Micros
  /-- What it is doing. -/
  activity : Activity := .idle
  /-- The instant of the last accepted edge. -/
  lastEdge : Option Instant := none
  /-- What it has counted. -/
  tally : Tally := {}
deriving DecidableEq, Repr

namespace OpenWindow

/-- How many edges are carried. -/
def carriedEdges (w : OpenWindow) : Count :=
  match w.carried with
  | none => 0
  | some c => c.edges

/-- Takes in one edge at `now`: inside the window it is absorbed, at or past the deadline it is
carried. -/
def take (w : OpenWindow) (now : Instant) : Except Halt (Outcome × OpenWindow) :=
  if w.deadline ≤ now then do
    let first := match w.carried with
      | none => now
      | some c => c.first
    let edges ← Word.plus w.carriedEdges 1
    return (.carried, { w with carried := some { first, edges } })
  else do
    let edges ← Word.plus w.edges 1
    return (.absorbed, { w with edges })

/-- What the windower does once this window is closed: it opens a window of the given length at the
first carried edge, if edges were carried. -/
def next (w : OpenWindow) (length : Micros) : Activity :=
  match w.carried with
  | none => .idle
  | some c => .collecting
      { opened := c.first, deadline := Word.later c.first length, edges := c.edges }

end OpenWindow

namespace Windower

/-! ## What is seen from outside -/

/-- Whether a window is open. -/
def isPending (w : Windower) : Bool :=
  match w.activity with
  | .collecting _ => true
  | _ => false

/-- Whether the windower is torn down. -/
def isDisarmed (w : Windower) : Bool :=
  match w.activity with
  | .disarmed => true
  | _ => false

/-- The phase shown outside. -/
def phase (w : Windower) : Phase :=
  match w.activity with
  | .idle => .idle
  | .collecting window => .pending window.opened window.deadline
  | .disarmed => .disarmed

/-! ## Operations -/

/-- Counts an edge at `now` and the gap since the last one. -/
def accept (w : Windower) (now : Instant) : Except Halt Windower := do
  let edges ← Word.plus w.tally.edges 1
  let tally := { w.tally with edges }
  let tally := match w.lastEdge with
    | none => tally
    | some before => tally.noteGap (Word.since now before)
  return { w with tally, lastEdge := some now }

/-- Opens a window at `now` if the timer can be armed; if it cannot, only counts the failure. -/
def start (w : Windower) (now : Instant) (armable : Bool) : Except Halt (EdgeAnswer × Windower) :=
  let deadline := Word.later now w.length
  if armable then
    return ({ outcome := .opened deadline, asked := some deadline },
      { w with activity := .collecting { opened := now, deadline, edges := 1 } })
  else do
    let unarmed ← Word.plus w.tally.unarmed 1
    return ({ outcome := .degraded, asked := some deadline },
      { w with tally := { w.tally with unarmed } })

/-- Takes in one edge at `now`. The timer is asked to arm a deadline only when the edge opens a
window, and `armable` is its answer. -/
def edge (w : Windower) (now : Instant) (armable : Bool) : Except Halt (EdgeAnswer × Windower) :=
  match w.activity with
  | .disarmed => return ({ outcome := .ignored }, w)
  | .idle => do
    let w ← w.accept now
    w.start now armable
  | .collecting window => do
    let w ← w.accept now
    let (outcome, window) ← window.take now
    return ({ outcome }, { w with activity := .collecting window })

/-- The report of an open window that closes when `total` edges are counted. -/
def report (window : OpenWindow) (total : Count) : Report :=
  { opened := window.opened, deadline := window.deadline, edges := window.edges, total }

/-- Says what is due at `now`, and closes the open window if it is due. The report's total leaves
out the carried edges, which belong to the next window. -/
def poll (w : Windower) (now : Instant) : Except Halt (Verdict × Windower) :=
  match w.activity with
  | .disarmed => return (.stop, w)
  | .idle => return (.idle, w)
  | .collecting window =>
    if now < window.deadline then do
      let us ← Word.minus window.deadline now
      return (.wait us, w)
    else do
      let total ← Word.minus w.tally.edges window.carriedEdges
      let closed ← Word.plus w.tally.closed 1
      return (.expired (report window total),
        { w with activity := window.next w.length, tally := { w.tally with closed } })

/-- Counts one delivered event and says which one it is, from 1. More deliveries than edges cannot
be. -/
def deliver (w : Windower) : Except Halt (Count × Windower) := do
  let delivered ← Word.plus w.tally.delivered 1
  if delivered ≤ w.tally.edges then
    return (delivered, { w with tally := { w.tally with delivered } })
  else throw .deliveredTooMany

/-- Tears the windower down and says whether a window was open. -/
def disarm (w : Windower) : Bool × Windower :=
  (w.isPending, { w with activity := .disarmed })

/-! ## Operations as data -/

/-- One operation on a windower. -/
inductive Op where
  /-- An edge at an instant, and whether the timer can be armed. -/
  | edge (now : Instant) (armable : Bool)
  /-- A poll at an instant. -/
  | poll (now : Instant)
  /-- A delivery. -/
  | deliver
  /-- The teardown. -/
  | disarm
deriving DecidableEq, Repr

/-- What an operation answers. -/
inductive Answer where
  /-- The answer to an edge. -/
  | edge (answer : EdgeAnswer)
  /-- The answer to a poll. -/
  | verdict (verdict : Verdict)
  /-- The number of the delivered event. -/
  | sequence (n : Count)
  /-- Whether a window was open at the teardown. -/
  | wasPending (b : Bool)
deriving DecidableEq, Repr

/-- Performs one operation. -/
def apply (w : Windower) : Op → Except Halt (Answer × Windower)
  | .edge now armable => do
    let (answer, w) ← w.edge now armable
    return (.edge answer, w)
  | .poll now => do
    let (verdict, w) ← w.poll now
    return (.verdict verdict, w)
  | .deliver => do
    let (n, w) ← w.deliver
    return (.sequence n, w)
  | .disarm =>
    let (b, w) := w.disarm
    return (.wasPending b, w)

/-! ## After the teardown -/

/-- A windower that was torn down is in the phase for that. -/
@[simp] theorem phase_disarm (w : Windower) : w.disarm.2.phase = .disarmed := rfl

/-- The teardown counts nothing. -/
@[simp] theorem tally_disarm (w : Windower) : w.disarm.2.tally = w.tally := rfl

/-- A windower that is torn down ignores every edge. -/
theorem edge_of_disarmed (w : Windower) (now : Instant) (armable : Bool)
    (h : w.activity = .disarmed) : w.edge now armable = .ok ({ outcome := .ignored }, w) := by
  simp [edge, h, pure, Except.pure]

/-- A windower that is torn down tells the timer to stop. -/
theorem poll_of_disarmed (w : Windower) (now : Instant) (h : w.activity = .disarmed) :
    w.poll now = .ok (.stop, w) := by
  simp [poll, h, pure, Except.pure]

end Windower

end Settle
