import Settle.Hub
import Settle.Line
import Settle.Settings

/-!
# The live system of one line

While a line is monitored, several parties work on it at once: producers report its edges, a timer
polls the watch and sleeps in between, a worker reads the line for each closed window and runs the
handler, callers ask for snapshots, and at last somebody shuts the system down. This module lets
them take turns in any order. A step is what one party does without being interrupted: one
operation on the shared watch, one reading of the line or of the clock, one act of waking or of
going to sleep. Where a party stands between two of its steps is written down (`TimerAt`,
`WorkerAt`, `ClosingAt`), so that every order of the steps is a list of `Action`s.

A step of `System.step` shows what it did (`Sight`), or is *blocked*: the party whose turn it was
has to wait for another. Handlers, callers and the outside world are not parties of the system:
what they may do is left open in the actions.
-/

namespace Settle.Live

/-- Where the timer stands. -/
inductive TimerAt where
  /-- It is about to read the clock. -/
  | reading
  /-- It has read the clock and is about to poll. -/
  | polling (now : Instant)
  /-- Nothing was armed: it sleeps until it finds a token. -/
  | parking
  /-- A poll at `polled` said to wait for `us`: it sleeps until then, or until it finds a token. -/
  | napping (polled : Instant) (us : Micros)
  /-- A window was closed: it is about to signal the worker. -/
  | signalling
  /-- It was told to stop: it is about to go offline. -/
  | leaving
  /-- It has stopped. -/
  | stopped
deriving DecidableEq, Repr

/-- Where the worker stands. -/
inductive WorkerAt where
  /-- It waits for a signal. -/
  | waiting
  /-- It has taken a signal and is about to ask what to do. -/
  | taking
  /-- It has a task and is about to read the line. -/
  | sampling (report : Report)
  /-- It has read the line and is about to read the clock. -/
  | stamping (report : Report) (level : Bool)
  /-- It has read the clock and is about to record the delivery. -/
  | settling (report : Report) (level : Bool) (now : Instant)
  /-- It has recorded the delivery and is about to call the handler. -/
  | calling (event : Event)
  /-- The line could not be read for a task: it is about to record that. -/
  | failing (report : Report)
  /-- The handler is running. -/
  | handling (event : Event)
  /-- The handler has ended: the worker is about to record how. -/
  | concluding (failure : Option String)
  /-- It is about to take the unreported faults. -/
  | flushing
  /-- It has taken them and is about to tell of them. -/
  | telling (faults : FaultSet)
  /-- It has stopped. -/
  | stopped
deriving DecidableEq, Repr

/-- Where the shutdown stands. -/
inductive ClosingAt where
  /-- Nobody has asked for it. -/
  | running
  /-- It is about to disarm the watch. -/
  | disarming
  /-- It is about to wake the timer. -/
  | waking
  /-- It waits for the timer to stop. -/
  | joiningTimer
  /-- It is about to signal the worker. -/
  | signalling
  /-- It waits for the worker to stop. -/
  | joiningWorker
  /-- It is about to give the id back. -/
  | releasing
  /-- It is about to take a last snapshot. -/
  | looking
  /-- It is about to tell what the last snapshot says. -/
  | telling (snapshot : Snapshot) (faults : FaultSet)
  /-- It is done. -/
  | closed
deriving DecidableEq

/-- The live system of one line. -/
structure System where
  /-- What the parties share. -/
  hub : Hub
  /-- The line. -/
  line : Line
  /-- The clock. -/
  clock : Instant := 0
  /-- Where the timer stands. -/
  timer : TimerAt := .reading
  /-- Where the worker stands. -/
  worker : WorkerAt := .waiting
  /-- Where the shutdown stands. -/
  closing : ClosingAt := .running
  /-- The readings of the clock with which producers are about to report an edge. -/
  stamps : List Instant := []
  /-- The faults that callers have taken and are about to tell of. -/
  untold : List FaultSet := []
deriving DecidableEq

/-- What a step shows. -/
inductive Sight where
  /-- An edge was reported at an instant. -/
  | edge (now : Instant) (answer : EdgeAnswer)
  /-- The timer polled. -/
  | polled (now : Instant) (verdict : Verdict)
  /-- The worker asked what to do. -/
  | took (job : Job)
  /-- The worker read the line. -/
  | sampled (level : Option Bool)
  /-- The worker recorded that a task could not read the line. -/
  | failed
  /-- The worker recorded a delivery. -/
  | delivered (event : Event)
  /-- The worker called the handler, which begins to run. -/
  | called (event : Event)
  /-- The worker recorded how the handler ended. -/
  | handled (failure : Option String)
  /-- Somebody took the unreported faults. -/
  | drained (faults : FaultSet)
  /-- Somebody took a snapshot. -/
  | looked (snapshot : Snapshot)
  /-- The watch was disarmed. -/
  | disarmed (wasPending : Bool)
  /-- The id was given back. -/
  | released
  /-- Somebody had something to say. -/
  | notice (notice : Notice)
deriving DecidableEq

/-- Why a step is not taken. -/
inductive Stuck where
  /-- The party has to wait. -/
  | blocked
  /-- The shared state cannot be computed. -/
  | halted (halt : Halt)
deriving DecidableEq, Repr

/-- What comes of a step: why it was not taken, or what it shows and the system after it. -/
abbrev Turn := Except Stuck (List Sight × System)

namespace System

/-- A system that has just been started on a line that was read at `level`. -/
def start (settings : Settings) (level : Bool) (line : Line) : System :=
  { hub := Hub.attach { watch := Watch.new settings.source settings.window level }, line }

/-- The id of the line. -/
def source (s : System) : UInt32 := s.hub.watch.source

/-- Puts back the shared watch. -/
def setWatch (s : System) (watch : Watch) : System := { s with hub := { s.hub with watch } }

/-- Whether the system still owns its id. -/
def owning (s : System) : Bool :=
  match s.closing with
  | .looking => false
  | .telling .. => false
  | .closed => false
  | _ => true

/-- What there is to say about faults. -/
def tellOf (s : System) (faults : FaultSet) : List Sight :=
  (Notice.ofFaults s.source faults).map .notice

/-! ## The timer -/

/-- Where the timer goes after a poll at `now`. -/
def afterPoll (now : Instant) : Verdict → TimerAt
  | .stop => .leaving
  | .idle => .parking
  | .wait us => .napping now us
  | .expired _ => .signalling

/-- The timer wakes up because it finds a token. -/
def takeToken (s : System) : Turn :=
  if s.hub.token then
    .ok ([], { s with hub := { s.hub with token := false }, timer := .reading })
  else .error .blocked

/-- The timer's next step. -/
def timerStep (s : System) : Turn :=
  match s.timer with
  | .reading => .ok ([], { s with timer := .polling s.clock })
  | .polling now => do
    let (verdict, watch) ← (s.hub.watch.poll now).mapError .halted
    return ([.polled now verdict], { s.setWatch watch with timer := afterPoll now verdict })
  | .parking => s.takeToken
  | .napping .. => s.takeToken
  | .signalling => .ok ([], { s with hub := s.hub.raiseSignal, timer := .reading })
  | .leaving => .ok ([], { s with hub := s.hub.detach, timer := .stopped })
  | .stopped => .error .blocked

/-- The timer wakes up without a token: its time is over, or it wakes for no reason. -/
def rouse (s : System) : Turn :=
  match s.timer with
  | .parking => .ok ([], { s with timer := .reading })
  | .napping .. => .ok ([], { s with timer := .reading })
  | _ => .error .blocked

/-! ## The worker -/

/-- Where the worker goes with what it was told to do. -/
def afterJob : Job → WorkerAt
  | .run report => .sampling report
  | .nothing => .waiting
  | .stop => .stopped

/-- The worker reads the line for a task. -/
def sample (s : System) (report : Report) : List Sight × System :=
  let after := { s with line := s.line.read.2 }
  match s.line.read.1 with
  | some level => ([.sampled (some level)], { after with worker := .stamping report level })
  | none =>
    ([.sampled none, .notice (.readFailed s.source)], { after with worker := .failing report })

/-- Where the worker goes with the unreported faults it took. -/
def afterFlush (faults : FaultSet) : WorkerAt :=
  if faults.isEmpty then .waiting else .telling faults

/-- The worker's next step. -/
def workerStep (s : System) : Turn :=
  match s.worker with
  | .waiting =>
    if s.hub.signal then .ok ([], { s with hub := s.hub.takeSignal.2, worker := .taking })
    else .error .blocked
  | .taking => do
    let (job, watch) ← s.hub.watch.takeJob.mapError .halted
    return ([.took job], { s.setWatch watch with worker := afterJob job })
  | .sampling report => .ok (s.sample report)
  | .stamping report level => .ok ([], { s with worker := .settling report level s.clock })
  | .settling report level now => do
    let (event, watch) ← (s.hub.watch.settle level report now).mapError .halted
    return ([.delivered event], { s.setWatch watch with worker := .calling event })
  | .calling event => .ok ([.called event], { s with worker := .handling event })
  | .failing _ => do
    let watch ← (s.hub.watch.unreadable levelFailureMessage).mapError .halted
    return ([.failed], { s.setWatch watch with worker := .flushing })
  | .handling _ => .error .blocked
  | .concluding failure =>
    .ok ([.handled failure],
      { s.setWatch (s.hub.watch.handled failure) with worker := .flushing })
  | .flushing =>
    let faults := s.hub.watch.takeUnreported.1
    .ok ([.drained faults],
      { s.setWatch s.hub.watch.takeUnreported.2 with worker := afterFlush faults })
  | .telling faults => .ok (s.tellOf faults, { s with worker := .waiting })
  | .stopped => .error .blocked

/-- What there is to say about how the handler ended. -/
def tellOfHandling (s : System) (event : Event) : Option String → List Sight
  | none => []
  | some message => [.notice (.handlingFailed s.source event.sequence message)]

/-- The handler ends, with a message if it failed. -/
def reply (s : System) (failure : Option String) : Turn :=
  match s.worker with
  | .handling event =>
    .ok (s.tellOfHandling event failure, { s with worker := .concluding failure })
  | _ => .error .blocked

/-! ## Producers and callers -/

/-- A producer reports an edge at `now`. -/
def edge (s : System) (now : Instant) : Turn := do
  let (answer, hub) ← (s.hub.edge now).mapError .halted
  return ([.edge now answer], { s with hub })

/-- A producer that has read the clock reports its edge. -/
def enter (s : System) (i : Nat) : Turn :=
  match s.stamps[i]? with
  | none => .error .blocked
  | some now => { s with stamps := s.stamps.eraseIdx i }.edge now

/-- A caller takes a snapshot. -/
def look (s : System) : List Sight × System :=
  let told := s.hub.look.1.2
  ([.looked s.hub.look.1.1, .drained told],
    { s with
      hub := s.hub.look.2,
      untold := if told.isEmpty then s.untold else s.untold ++ [told] })

/-- A caller tells of the faults it took. -/
def tell (s : System) (i : Nat) : Turn :=
  match s.untold[i]? with
  | none => .error .blocked
  | some faults => .ok (s.tellOf faults, { s with untold := s.untold.eraseIdx i })

/-! ## The shutdown -/

/-- Somebody asks for the shutdown. Only the first to ask gets anything done. -/
def close (s : System) : System :=
  match s.closing with
  | .running => { s with closing := .disarming }
  | _ => s

/-- The shutdown's next step. -/
def closingStep (s : System) : Turn :=
  match s.closing with
  | .disarming =>
    let wasPending := s.hub.watch.disarm.1
    .ok ([.disarmed wasPending, .notice (.shuttingDown s.source wasPending)],
      { s.setWatch s.hub.watch.disarm.2 with closing := .waking })
  | .waking => .ok ([], { s with hub := s.hub.wake, closing := .joiningTimer })
  | .joiningTimer =>
    if s.timer = .stopped then .ok ([], { s with closing := .signalling }) else .error .blocked
  | .signalling => .ok ([], { s with hub := s.hub.raiseSignal, closing := .joiningWorker })
  | .joiningWorker =>
    if s.worker = .stopped then .ok ([], { s with closing := .releasing }) else .error .blocked
  | .releasing => .ok ([.released], { s with closing := .looking })
  | .looking =>
    let told := s.hub.look.1.2
    .ok ([.looked s.hub.look.1.1, .drained told],
      { s with hub := s.hub.look.2, closing := .telling s.hub.look.1.1 told })
  | .telling snapshot told =>
    .ok (s.tellOf told ++ [.notice (.stopped s.source snapshot.tally)],
      { s with closing := .closed })
  | .running => .error .blocked
  | .closed => .error .blocked

end System

/-! ## All steps -/

/-- Whose turn it is, and what it does where that is left open. -/
inductive Action where
  /-- The clock goes on. -/
  | advance (now : Instant)
  /-- The line's level is set. -/
  | setLevel (level : Bool)
  /-- The line begins to fail, or stops failing. -/
  | setFailing (failing : Bool)
  /-- The line's level is turned over. -/
  | toggle
  /-- A producer reports an edge at an instant of its choice. -/
  | edge (now : Instant)
  /-- A producer reads the clock. -/
  | stamp
  /-- A producer that has read the clock reports its edge. -/
  | enter (i : Nat)
  /-- The timer takes its next step. -/
  | timer
  /-- The timer wakes up without a token. -/
  | rouse
  /-- The worker takes its next step. -/
  | worker
  /-- The handler ends. -/
  | reply (failure : Option String)
  /-- A caller takes a snapshot. -/
  | look
  /-- A caller tells of the faults it took. -/
  | tell (i : Nat)
  /-- Somebody asks for the shutdown. -/
  | close
  /-- The shutdown takes its next step. -/
  | closing
deriving DecidableEq, Repr

/-- One step of the system. The clock never goes back. -/
def System.step (s : System) : Action → Turn
  | .advance now => if s.clock ≤ now then .ok ([], { s with clock := now }) else .error .blocked
  | .setLevel level => .ok ([], { s with line := s.line.setLevel level })
  | .setFailing failing => .ok ([], { s with line := s.line.setFailing failing })
  | .toggle => .ok ([], { s with line := s.line.toggle })
  | .edge now => s.edge now
  | .stamp => .ok ([], { s with stamps := s.stamps ++ [s.clock] })
  | .enter i => s.enter i
  | .timer => s.timerStep
  | .rouse => s.rouse
  | .worker => s.workerStep
  | .reply failure => s.reply failure
  | .look => .ok s.look
  | .tell i => s.tell i
  | .close => .ok ([], s.close)
  | .closing => s.closingStep

end Settle.Live
