import Settle.Watch

/-!
# The hub of a line

The hub is a watch together with the two ways in which its contexts wake each other. Arming a
deadline wakes the timer, which is possible only while a timer is attached and online; the waking
leaves a token (`token`) that the timer finds when it next goes to sleep. A closed window wakes the
worker through a signal with room for one (`signal`), so signals that come too fast merge.

A snapshot taken through the hub also tells of the faults that nobody has been told about yet.
-/

namespace Settle

/-- A watch and the means of waking those who work on it. -/
structure Hub where
  /-- What is shared. -/
  watch : Watch
  /-- Whether a timer was ever attached. -/
  attached : Bool := false
  /-- Whether the timer is online. -/
  online : Bool := false
  /-- Whether the timer was woken since it last went to sleep. -/
  token : Bool := false
  /-- Whether the worker was signalled since it last took a signal. -/
  signal : Bool := false
deriving DecidableEq

namespace Hub

/-- Whether a deadline can be armed. -/
def armable (h : Hub) : Bool := h.online && h.attached

/-- Attaches a timer, which is then online. -/
def attach (h : Hub) : Hub := { h with attached := true, online := true }

/-- Takes the timer offline. -/
def detach (h : Hub) : Hub := { h with online := false }

/-- Wakes the timer, if one was ever attached. -/
def wake (h : Hub) : Hub := { h with token := h.token || h.attached }

/-- Signals the worker. -/
def raiseSignal (h : Hub) : Hub := { h with signal := true }

/-- Takes the signal, and says whether there was one. -/
def takeSignal (h : Hub) : Bool × Hub := (h.signal, { h with signal := false })

/-- Takes in one edge. If it opens a window, the timer is woken. -/
def edge (h : Hub) (now : Instant) : Except Halt (EdgeAnswer × Hub) := do
  let (answer, watch) ← h.watch.edge now h.armable
  let h := { h with watch }
  match answer.outcome with
  | .opened _ => return (answer, h.wake)
  | _ => return (answer, h)

/-- Takes a snapshot, and with it the faults that are to be told of. -/
def look (h : Hub) : (Snapshot × FaultSet) × Hub :=
  ((h.watch.snapshot, h.watch.takeUnreported.1), { h with watch := h.watch.takeUnreported.2 })

/-! ## Operations as data -/

/-- One operation on a hub. -/
inductive Op where
  /-- A timer is attached. -/
  | attach
  /-- The timer goes offline. -/
  | detach
  /-- The timer is woken. -/
  | wake
  /-- The worker is signalled. -/
  | signal
  /-- The signal is taken, if there is one. -/
  | takeSignal
  /-- An edge. -/
  | edge (now : Instant)
  /-- A snapshot, with the faults told of. -/
  | look
  /-- An operation on the watch alone. -/
  | watch (op : Watch.Op)
deriving DecidableEq, Repr

/-- What an operation answers. -/
inductive Answer where
  /-- Nothing. -/
  | done
  /-- The answer to an edge. -/
  | edge (answer : EdgeAnswer)
  /-- Whether there was a signal. -/
  | tookSignal (b : Bool)
  /-- A snapshot, and the faults told of. -/
  | look (snapshot : Snapshot) (told : FaultSet)
  /-- The answer of the watch. -/
  | watch (answer : Watch.Answer)
deriving DecidableEq

/-- Performs one operation. -/
def apply (h : Hub) : Op → Except Halt (Answer × Hub)
  | .attach => return (.done, h.attach)
  | .detach => return (.done, h.detach)
  | .wake => return (.done, h.wake)
  | .signal => return (.done, h.raiseSignal)
  | .takeSignal => return (.tookSignal h.takeSignal.1, h.takeSignal.2)
  | .edge now => do
    let (answer, h) ← h.edge now
    return (.edge answer, h)
  | .look => return (.look h.look.1.1 h.look.1.2, h.look.2)
  | .watch op => do
    let (answer, watch) ← h.watch.apply op
    return (.watch answer, { h with watch })

/-- What an answer has to say. -/
def Answer.notices : Answer → List Notice
  | .look snapshot told => Notice.ofFaults snapshot.source told
  | _ => []

/-- The report of the task that an answer hands to the worker. -/
def Answer.taken? : Answer → Option Report
  | .watch answer => answer.taken?
  | _ => none

/-! ## What the means of waking leave alone -/

/-- Attaching a timer leaves the watch alone. -/
@[simp] theorem watch_attach (h : Hub) : h.attach.watch = h.watch := rfl

/-- Detaching the timer leaves the watch alone. -/
@[simp] theorem watch_detach (h : Hub) : h.detach.watch = h.watch := rfl

/-- Waking the timer leaves the watch alone. -/
@[simp] theorem watch_wake (h : Hub) : h.wake.watch = h.watch := rfl

/-- Signalling the worker leaves the watch alone. -/
@[simp] theorem watch_raiseSignal (h : Hub) : h.raiseSignal.watch = h.watch := rfl

/-- Taking the signal leaves the watch alone. -/
@[simp] theorem watch_takeSignal (h : Hub) : h.takeSignal.2.watch = h.watch := rfl

/-- Looking leaves the signal alone. -/
@[simp] theorem signal_look (h : Hub) : h.look.2.signal = h.signal := rfl

end Hub

end Settle
