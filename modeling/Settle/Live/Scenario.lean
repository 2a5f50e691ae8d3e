import Settle.Live.Stage

/-!
# Scenarios

A scenario is a list of steps on named slots, each of which holds one live system with its handler.
After every step the systems come to rest, and what can be seen of the system in question is shown.
Windows whose deadline is *near* always close before rest is reached, and all other windows stay
open; inside a burst of edges nobody takes a turn but the producer.
-/

namespace Settle.Live

/-- The last instant that is near. -/
def near : Instant := 999999999

/-- The instant with which an edge is reported. -/
inductive Stamp where
  /-- One that is given. -/
  | given (now : Instant)
  /-- The instant at which it is reported. -/
  | now
deriving DecidableEq, Repr

/-- A step of a scenario. -/
inductive Scenario.Step where
  /-- Start a system on a new line. -/
  | start (slot : String) (settings : Settings) (level failing : Bool) (handler : Handler)
  /-- Report edges. -/
  | burst (slot : String) (edges : List Stamp)
  /-- Change the line. -/
  | line (slot : String) (level : Option Bool) (failing toggle : Bool)
  /-- Release the handler. -/
  | release (slot : String)
  /-- Shut the system down. -/
  | shutdown (slot : String)
  /-- Shut the system down and give it up. -/
  | drop (slot : String)
  /-- Ask whether the clock goes back. -/
  | clock (slot : String)
  /-- Only look. -/
  | look (slot : String)
  /-- Ask whether an id is owned. -/
  | isClaimed (id : UInt32)
deriving DecidableEq, Repr

/-- What a step answers. -/
inductive Scenario.Reply where
  /-- Nothing. -/
  | none
  /-- A truth value. -/
  | flag (b : Bool)
  /-- The id of a system that was started. -/
  | started (id : UInt32)
  /-- What became of the edges. -/
  | outcomes (os : List Outcome)
deriving DecidableEq, Repr

/-- What can be seen of a system at rest. -/
structure Scenario.View where
  /-- A snapshot. -/
  snapshot : Snapshot
  /-- Whether a second snapshot is the same. -/
  steady : Bool
  /-- Whether the system can still be reached. -/
  reachable : Bool
  /-- The events that the handler was given during the step. -/
  events : List Event
  /-- Whether the handler is held up. -/
  held : Bool
  /-- How often the line was read. -/
  reads : Count
deriving DecidableEq

/-- What a step shows. -/
inductive Scenario.Shown where
  /-- No system was started; the line was read so often. -/
  | refused (refusal : Refusal) (reads : Count)
  /-- Whether an id is owned. -/
  | claimed (b : Bool)
  /-- An answer, and what can be seen of the system. -/
  | seen (reply : Reply) (view : View)
  /-- There is no such slot. -/
  | unknown
deriving DecidableEq

/-- A scenario in progress. -/
structure Scenario where
  /-- The world. -/
  world : World := {}
  /-- The players, by slot. -/
  players : List (String × Player) := []
  /-- All that was said. -/
  notices : List Notice := []
deriving DecidableEq

namespace Scenario

/-- The player in a slot. -/
def player? (sc : Scenario) (slot : String) : Option Player := sc.players.lookup slot

/-- Puts a player in a slot. -/
def setPlayer (sc : Scenario) (slot : String) (p : Player) : Scenario :=
  { sc with players := (slot, p) :: sc.players.filter (·.1 != slot) }

/-- Puts a player on the stage. -/
def enter (sc : Scenario) (p : Player) : Stage :=
  { world := sc.world, player := p, notices := sc.notices }

/-- Takes the player in a slot off the stage. -/
def leave (sc : Scenario) (slot : String) (st : Stage) : Scenario :=
  { sc.setPlayer slot st.player with world := st.world, notices := st.notices }

/-- Shuts a system down and gives it up. -/
def giveUp (st : Stage) : Stage :=
  let st := st.shutdown.rest near
  { st with player := { st.player with dropped := true } }

/-- What can be seen of the system on the stage, when it is at rest. -/
def view? (st : Stage) : Option View × Stage :=
  let first := st.look.rest near
  let second := first.look.rest near
  (do
    let snapshot ← first.snapshot
    let system ← first.system?
    return {
      snapshot
      steady := decide (second.snapshot = some snapshot)
      reachable := !first.player.dropped
      events := first.events
      held := first.held
      reads := system.line.reads },
    second)

/-- Lets the system on the stage come to rest, and shows what can be seen of it. -/
def conclude (sc : Scenario) (slot : String) (reply : Reply) (st : Stage) : Shown × Scenario :=
  let (view, st) := view? (st.rest near)
  (match view with
    | none => .unknown
    | some view => .seen reply view,
    sc.leave slot st)

/-- Reports one edge. -/
def report (st : Stage) : Stamp → Stage
  | .given now => st.perform (.edge now)
  | .now => st.edgeNow

/-- Changes the line of the system on the stage. -/
def changeLine (st : Stage) (level : Option Bool) (failing toggle : Bool) : Stage :=
  let st := st.perform (.setFailing failing)
  let st := match level with
    | none => st
    | some level => st.perform (.setLevel level)
  if toggle then st.perform .toggle else st

/-- The level of the line of the system on the stage. -/
def level (st : Stage) : Bool :=
  match st.system? with
  | none => false
  | some s => s.line.level

/-- What the clock of the system on the stage reads. -/
def clock (st : Stage) : Instant :=
  match st.system? with
  | none => 0
  | some s => s.clock

/-- Starts a system on a new line. A system that was in the slot before is given up after that. -/
def start (sc : Scenario) (slot : String) (settings : Settings) (line : Line)
    (handler : Handler) : Shown × Scenario :=
  let f := sc.world.start settings line
  let sc' := { sc with world := f.world, notices := sc.notices ++ f.notices }
  match f.result with
  | .error refusal => (.refused refusal f.line.reads, sc')
  | .ok number =>
    let sc' := match sc'.player? slot with
      | none => sc'
      | some old => sc'.leave slot (giveUp (sc'.enter old))
    sc'.conclude slot (.started settings.source) (sc'.enter { number, handler })

/-- Does something with the player in a slot. -/
def withPlayer (sc : Scenario) (slot : String) (f : Stage → Reply × Stage) : Shown × Scenario :=
  match sc.player? slot with
  | none => (.unknown, sc)
  | some p =>
    let (reply, st) := f (sc.enter p)
    sc.conclude slot reply st

/-- Takes one step. -/
def step (sc : Scenario) : Step → Shown × Scenario
  | .start slot settings level failing handler =>
    sc.start slot settings { level, failing } handler
  | .burst slot edges => sc.withPlayer slot fun st =>
    let st := edges.foldl report st
    (.outcomes st.outcomes, st)
  | .line slot level? failing toggle => sc.withPlayer slot fun st =>
    let st := changeLine st level? failing toggle
    (if toggle then .flag (level st) else .none, st)
  | .release slot => sc.withPlayer slot fun st =>
    (.flag st.held, if st.held then st.release else st)
  | .shutdown slot => sc.withPlayer slot fun st => (.none, st.shutdown)
  | .drop slot => sc.withPlayer slot fun st => (.none, giveUp st)
  | .clock slot => sc.withPlayer slot fun st => (.flag (decide (clock st ≤ clock st.look)), st)
  | .look slot => sc.withPlayer slot fun st => (.none, st)
  | .isClaimed id => (.claimed (sc.world.registry.isClaimed id), sc)

/-- Gives up all systems. -/
def finish (sc : Scenario) : Scenario :=
  sc.players.foldl (fun sc (slot, p) => sc.leave slot (giveUp (sc.enter p))) sc

/-- All that was said, as lines in the order of their characters. What was said depends on nobody's
pace, so the lines do not tell how long events took to settle. -/
def logLines (sc : Scenario) : List String :=
  (sc.notices.map Notice.timelessLine).mergeSort fun a b => decide (a ≤ b)

end Scenario

end Settle.Live
