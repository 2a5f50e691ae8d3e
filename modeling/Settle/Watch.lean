import Settle.Fault.Record
import Settle.Notice
import Settle.Snapshot
import Settle.Windower

/-!
# The watch over a line

A watch is all that is known about one monitored line, and what the contexts that work on the line
share: producers report edges, a timer polls, a worker takes tasks and records how they ended, and
anybody may ask for a snapshot. Each operation is one step that nobody interrupts.

A window that closes becomes a task for the worker. There is room for one task: a window that
closes while a task still waits replaces it, and is counted as coalesced. After the teardown the
worker is told to stop, and a task that still waits is counted as cancelled.
-/

namespace Settle

/-- What the worker is to do. -/
inductive Job where
  /-- Read the line for this window and deliver its level. -/
  | run (report : Report)
  /-- Nothing. -/
  | nothing
  /-- Stop. -/
  | stop
deriving DecidableEq, Repr

/-- All that is known about one monitored line. -/
structure Watch where
  /-- The id of the line. -/
  source : UInt32
  /-- Its windows. -/
  windower : Windower
  /-- Its last settled level, or the level first read. -/
  level : Bool
  /-- Its faults. -/
  faults : FaultRecord := {}
  /-- The task that waits for the worker. -/
  task : Option Report := none
deriving DecidableEq

namespace Watch

/-- A new watch over a line that was read at `level`. -/
def new (source : UInt32) (length : Micros) (level : Bool) : Watch :=
  { source, windower := { length }, level }

/-- Changes what has been counted. -/
def setTally (w : Watch) (tally : Tally) : Watch :=
  { w with windower := { w.windower with tally } }

/-- Takes in one edge; that no deadline could be armed for it is a fault. -/
def edge (w : Watch) (now : Instant) (armable : Bool) : Except Halt (EdgeAnswer × Watch) := do
  let (answer, windower) ← w.windower.edge now armable
  let w := { w with windower }
  match answer.outcome with
  | .degraded => return (answer, { w with faults := w.faults.raise .timerUnavailable })
  | _ => return (answer, w)

/-- Queues the task of a closed window. -/
def enqueue (w : Watch) (report : Report) : Except Halt Watch :=
  match w.task with
  | none => return { w with task := some report }
  | some _ => do
    let coalesced ← Word.plus w.windower.tally.coalesced 1
    return { w.setTally { w.windower.tally with coalesced } with task := some report }

/-- Says what is due at `now`; a window that closes becomes a task. -/
def poll (w : Watch) (now : Instant) : Except Halt (Verdict × Watch) := do
  let (verdict, windower) ← w.windower.poll now
  let w := { w with windower }
  match verdict with
  | .expired report => do
    let w ← w.enqueue report
    return (verdict, w)
  | _ => return (verdict, w)

/-- Gives the worker what it is to do. -/
def takeJob (w : Watch) : Except Halt (Job × Watch) :=
  let taken := { w with task := none }
  if w.windower.isDisarmed then
    match w.task with
    | none => return (.stop, taken)
    | some _ => do
      let cancelled ← Word.plus w.windower.tally.cancelled 1
      return (.stop, taken.setTally { w.windower.tally with cancelled })
  else
    match w.task with
    | none => return (.nothing, taken)
    | some report => return (.run report, taken)

/-- Records that a task read the line at `level` at the instant `now`, and makes the event that is
delivered. -/
def settle (w : Watch) (level : Bool) (window : Report) (now : Instant) :
    Except Halt (Event × Watch) := do
  let (sequence, windower) ← w.windower.deliver
  let faults := (w.faults.clear .levelReadFailed).2
  return ({ source := w.source, level, sequence, settled := now, window },
    { w with windower, level, faults })

/-- Records that a task could not read the line. -/
def unreadable (w : Watch) (message : String) : Except Halt Watch := do
  let failed ← Word.plus w.windower.tally.failed 1
  let w := w.setTally { w.windower.tally with failed }
  return { w with faults := w.faults.fail .levelReadFailed message }

/-- Records that the handler succeeded, or the message of its failure. -/
def handled (w : Watch) (failure : Option String) : Watch :=
  match failure with
  | none => { w with faults := (w.faults.clear .handlerFailed).2 }
  | some message => { w with faults := w.faults.fail .handlerFailed message }

/-- Begins the teardown, and says whether a window was open. -/
def disarm (w : Watch) : Bool × Watch :=
  (w.windower.disarm.1, { w with windower := w.windower.disarm.2 })

/-- The faults that nobody has been told about yet. -/
def takeUnreported (w : Watch) : FaultSet × Watch :=
  (w.faults.takeUnreported.1, { w with faults := w.faults.takeUnreported.2 })

/-- Everything about the line at this instant. -/
def snapshot (w : Watch) : Snapshot :=
  { source := w.source
    level := w.level
    window := w.windower.length
    phase := w.windower.phase
    lastEdge := w.windower.lastEdge
    tally := w.windower.tally
    queued := w.task.isSome
    faults := w.faults.active
    healthy := w.faults.isHealthy
    running := !w.windower.isDisarmed
    lastError := w.faults.lastError }

/-! ## Operations as data -/

/-- One operation on a watch. -/
inductive Op where
  /-- An edge, and whether the timer can be armed. -/
  | edge (now : Instant) (armable : Bool)
  /-- A poll. -/
  | poll (now : Instant)
  /-- The worker asks what to do. -/
  | takeJob
  /-- A task read the line. -/
  | settle (level : Bool) (window : Report) (now : Instant)
  /-- A task could not read the line. -/
  | unreadable (message : String)
  /-- The handler succeeded, or failed with a message. -/
  | handled (failure : Option String)
  /-- The teardown begins. -/
  | disarm
  /-- Somebody takes the unreported faults. -/
  | takeUnreported
  /-- Somebody asks for a snapshot. -/
  | snapshot
deriving DecidableEq, Repr

/-- What an operation answers. -/
inductive Answer where
  /-- Nothing. -/
  | done
  /-- The answer to an edge. -/
  | edge (answer : EdgeAnswer)
  /-- The answer to a poll. -/
  | verdict (verdict : Verdict)
  /-- What the worker is to do. -/
  | job (job : Job)
  /-- The event to be delivered. -/
  | event (event : Event)
  /-- Whether a window was open. -/
  | wasPending (b : Bool)
  /-- A set of faults. -/
  | faults (s : FaultSet)
  /-- A snapshot. -/
  | snapshot (s : Snapshot)
deriving DecidableEq

/-- Performs one operation. -/
def apply (w : Watch) : Op → Except Halt (Answer × Watch)
  | .edge now armable => do
    let (answer, w) ← w.edge now armable
    return (.edge answer, w)
  | .poll now => do
    let (verdict, w) ← w.poll now
    return (.verdict verdict, w)
  | .takeJob => do
    let (job, w) ← w.takeJob
    return (.job job, w)
  | .settle level window now => do
    let (event, w) ← w.settle level window now
    return (.event event, w)
  | .unreadable message => do
    let w ← w.unreadable message
    return (.done, w)
  | .handled failure => return (.done, w.handled failure)
  | .disarm => return (.wasPending w.disarm.1, w.disarm.2)
  | .takeUnreported => return (.faults w.takeUnreported.1, w.takeUnreported.2)
  | .snapshot => return (.snapshot w.snapshot, w)

/-- The report of the task that an answer hands to the worker. -/
def Answer.taken? : Answer → Option Report
  | .job (.run report) => some report
  | _ => none

/-! ## What leaves the shared state alone -/

/-- A snapshot reads and does not write. -/
@[simp] theorem apply_snapshot (w : Watch) : w.apply .snapshot = .ok (.snapshot w.snapshot, w) :=
  rfl

/-- What a snapshot shows does not depend on what has been reported. -/
@[simp] theorem snapshot_takeUnreported (w : Watch) :
    w.takeUnreported.2.snapshot = w.snapshot := rfl

end Watch

end Settle
