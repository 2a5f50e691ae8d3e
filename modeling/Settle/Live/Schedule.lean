import Settle.Live.World

/-!
# A schedule

The parties of a live system may take turns in any order. This module picks one order, in which
callers tell what they have to tell, then the timer works until it sleeps, then the worker works
until it waits, then the shutdown goes on. The clock stands still while anybody has something to do,
and otherwise goes on to the next instant at which the timer has to wake, as long as that is not
past a given horizon.

Left to itself a system comes to rest: between two edges at most two windows can close, and each
closed window makes the worker take a bounded number of steps. `patience` is more than enough.
-/

namespace Settle.Live

/-- What the timer does next, if it can do anything up to the horizon. -/
def System.timerNext? (s : System) (horizon : Instant) : Option Action :=
  match s.timer with
  | .stopped => none
  | .parking => if s.hub.token then some .timer else none
  | .napping polled us =>
    let due := Word.later polled us
    if s.hub.token then some .timer
    else if horizon < due then none
    else if s.clock < due then some (.advance due)
    else some .rouse
  | _ => some .timer

/-- What the worker does next, if it can do anything. If the handler is running, it ends in the way
given, or goes on running. -/
def System.workerNext? (s : System) (ending : Option (Option String)) : Option Action :=
  match s.worker with
  | .stopped => none
  | .waiting => if s.hub.signal then some .worker else none
  | .handling _ => ending.map .reply
  | _ => some .worker

/-- What the shutdown does next, if it can do anything. -/
def System.closingNext? (s : System) : Option Action :=
  match s.closing with
  | .running => none
  | .closed => none
  | .joiningTimer => if s.timer = .stopped then some .closing else none
  | .joiningWorker => if s.worker = .stopped then some .closing else none
  | _ => some .closing

/-- Whose turn it is, if it is anybody's. -/
def System.next? (s : System) (horizon : Instant) (ending : Option (Option String)) :
    Option Action :=
  (if s.untold.isEmpty then none else some (.tell 0)) <|>
    s.timerNext? horizon <|> s.workerNext? ending <|> s.closingNext?

/-- A number of turns in which any system comes to rest. -/
def patience : Nat := 256

end Settle.Live
