import Settle.Live.Handler
import Settle.Live.Schedule

/-!
# The stage

On the stage one live system of a world is played by the schedule, with a handler of its own. What
the system shows is collected: the events that the handler was given, the answers to edges, the
snapshots, and all that was said.
-/

namespace Settle.Live

/-- Who plays a system. -/
structure Player where
  /-- The number of the system among the owners. -/
  number : Nat
  /-- The handler, for the events still to come. -/
  handler : Handler
  /-- The cue for the event that the handler was given last. -/
  cue : Cue := {}
  /-- Whether cues no longer hold the handler up. -/
  unheld : Bool := false
  /-- Whether nobody can reach the system any more except by its snapshots. -/
  dropped : Bool := false
deriving DecidableEq

/-- How the handler ends, if nothing holds it up. -/
def Player.ending? (p : Player) : Option (Option String) :=
  if p.cue.hold && !p.unheld then none else some p.cue.ending.message?

/-- A world, the player of one of its systems, and what has been shown. -/
structure Stage where
  /-- The world. -/
  world : World
  /-- The player. -/
  player : Player
  /-- The events that the handler was given. -/
  events : List Event := []
  /-- What became of edges. -/
  outcomes : List Outcome := []
  /-- The last snapshot. -/
  snapshot : Option Snapshot := none
  /-- What was said. -/
  notices : List Notice := []
deriving DecidableEq

namespace Stage

/-- Collects what a step shows. -/
def see (st : Stage) : Sight → Stage
  | .called e =>
    { st with
      player :=
        { st.player with cue := st.player.handler.next.1, handler := st.player.handler.next.2 },
      events := st.events ++ st.player.handler.keep e,
      notices := st.notices ++ st.player.handler.say e }
  | .edge _ answer => { st with outcomes := st.outcomes ++ [answer.outcome] }
  | .looked s => { st with snapshot := some s }
  | .notice n => { st with notices := st.notices ++ [n] }
  | _ => st

/-- Takes one step of the system, if it can be taken. -/
def perform (st : Stage) (a : Action) : Stage :=
  match st.world.act st.player.number a with
  | .error _ => st
  | .ok (sights, world) => sights.foldl see { st with world }

/-- The system that is played. -/
def system? (st : Stage) : Option System := st.world.system? st.player.number

/-- Whose turn it is. -/
def next? (st : Stage) (horizon : Instant) : Option Action := do
  let s ← st.system?
  s.next? horizon st.player.ending?

/-- Lets the schedule take a number of turns, or fewer if nobody has anything to do. -/
def play (horizon : Instant) : Nat → Stage → Stage
  | 0, st => st
  | n + 1, st =>
    match st.next? horizon with
    | none => st
    | some a => play horizon n (st.perform a)

/-- Lets the system come to rest. -/
def rest (st : Stage) (horizon : Instant) : Stage := st.play horizon patience

/-- Whether the handler is held up. -/
def held (st : Stage) : Bool :=
  match st.system? with
  | none => false
  | some s =>
    match s.worker with
    | .handling _ => st.player.ending?.isNone
    | _ => false

/-- Releases the handler from the cue that holds it up. -/
def release (st : Stage) : Stage :=
  { st with player := { st.player with cue := { st.player.cue with hold := false } } }

/-- A producer reports an edge with a reading of the clock. -/
def edgeNow (st : Stage) : Stage := (st.perform .stamp).perform (.enter 0)

/-- Asks for the shutdown and lets it disarm the watch; from then on nothing holds the handler
up. -/
def shutdown (st : Stage) : Stage :=
  let st := (st.perform .close).perform .closing
  { st with player := { st.player with unheld := true } }

/-- Takes a snapshot. -/
def look (st : Stage) : Stage := st.perform .look

end Stage

end Settle.Live
