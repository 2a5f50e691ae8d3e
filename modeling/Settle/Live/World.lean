import Settle.Launch
import Settle.Live.System
import Settle.Tap

/-!
# The world of owners

All lines of a process share one registry of ids. The world is that registry together with
everything that can own an id: bare claims, taps, and live systems. Owners are numbered in the order
in which they came up, and an owner that has let go of its id keeps its number.

Setting something up either succeeds and adds an owner, or fails and leaves the world as it was.
-/

namespace Settle.Live

/-- Something that can own an id. -/
inductive Owner where
  /-- A claim and nothing more. -/
  | claim (id : UInt32)
  /-- A tap. -/
  | tap (tap : Tap)
  /-- A live system. -/
  | system (system : System)
  /-- An owner that has let go. -/
  | gone
deriving DecidableEq

/-- The id that an owner has now. -/
def Owner.owned? : Owner → Option UInt32
  | .claim id => some id
  | .tap t => some t.id
  | .system s => if s.owning then some s.source else none
  | .gone => none

/-- The registry, and the owners. -/
structure World where
  /-- The ids that are owned. -/
  registry : Registry := {}
  /-- The owners, in the order in which they came up. -/
  owners : List Owner := []
deriving DecidableEq

/-- What comes of an attempt to add an owner. -/
structure Founding (ε α : Type) where
  /-- The world afterwards. -/
  world : World
  /-- The line afterwards. -/
  line : Line
  /-- What there was to say. -/
  notices : List Notice := []
  /-- What there is to know about the new owner, or why there is none. -/
  result : Except ε α

namespace World

/-- Gives an id back to the registry, if there is one to give back. -/
def giveBack (w : World) : Option UInt32 → World
  | none => w
  | some id => { w with registry := w.registry.release id }

/-- Adds an owner. -/
def add (w : World) (registry : Registry) (owner : Owner) : Nat × World :=
  (w.owners.length, { registry, owners := w.owners ++ [owner] })

/-- Claims an id. -/
def claim (w : World) (id : UInt32) : Except Shortage (Nat × World) := do
  let registry ← w.registry.claim id
  return w.add registry (.claim id)

/-- Acquires a tap, and reads its level. -/
def acquire (w : World) (id : UInt32) (line : Line) : Founding Shortage (Nat × Bool) :=
  let a := Tap.acquire w.registry id line
  match a.result with
  | .error e =>
    { world := { w with registry := a.registry }, line := a.line, notices := a.notices,
      result := .error e }
  | .ok (tap, level) =>
    { world := (w.add a.registry (.tap tap)).2, line := a.line, notices := a.notices,
      result := .ok (w.owners.length, level) }

/-- The name of the worker's task. -/
def workerTask : String := "edge-deferred"

/-- The name of the timer's task. -/
def timerTask : String := "edge-timer"

/-- The tasks of a system, with the sizes of their stacks, in the order in which they are
launched. -/
def tasks (settings : Settings) : List (String × UInt64) :=
  [(workerTask, settings.workerStackKib), (timerTask, settings.timerStackKib)]

/-- The first task that is not launched, and what stands in its way. -/
def unlaunched? (settings : Settings) (machine : Machine) : Option (String × Obstacle) :=
  (tasks settings).findSome? fun (name, kib) => (obstacle? machine name kib).map (name, ·)

/-- Starts a live system: the settings are checked, the line is acquired, and the tasks are
launched. If a task is not launched, the other one is stopped, and the id is given back. -/
def start (w : World) (settings : Settings) (line : Line) (machine : Machine := .ordinary) :
    Founding Refusal Nat :=
  match settings.check with
  | .error flaw => { world := w, line, result := .error (.settings flaw) }
  | .ok () =>
    let a := Tap.acquire w.registry settings.source line
    match a.result with
    | .error e =>
      { world := { w with registry := a.registry }, line := a.line, notices := a.notices,
        result := .error (.resource e) }
    | .ok (tap, level) =>
      match unlaunched? settings machine with
      | some (name, obstacle) =>
        { world := { w with registry := a.registry.release settings.source }, line := a.line,
          notices := a.notices ++ [.notLaunched name obstacle],
          result := .error (.resource (.taskNotStarted name)) }
      | none =>
        { world := (w.add a.registry (.system (.start settings level tap.line))).2,
          line := a.line,
          notices := a.notices ++ [.started settings.source settings.windowMs level],
          result := .ok w.owners.length }

/-- Lets go of a claim or a tap. -/
def letGo (w : World) (i : Nat) : World :=
  match w.owners[i]? with
  | some (.claim id) => { w.giveBack (some id) with owners := w.owners.set i .gone }
  | some (.tap tap) => { w.giveBack (some tap.id) with owners := w.owners.set i .gone }
  | _ => w

/-- The live system with a number. -/
def system? (w : World) (i : Nat) : Option System :=
  match w.owners[i]? with
  | some (.system s) => some s
  | _ => none

/-- The id that is let go of between two states of a system. -/
def released? (before after : System) : Option UInt32 :=
  if before.owning && !after.owning then some before.source else none

/-- One step of a live system. When the system lets go of its id, the registry has it back. -/
def act (w : World) (i : Nat) (a : Action) : Except Stuck (List Sight × World) :=
  match w.system? i with
  | none => .error .blocked
  | some s => do
    let (sights, s') ← s.step a
    return (sights,
      { w.giveBack (released? s s') with owners := w.owners.set i (.system s') })

/-- The tap with a number. -/
def tap? (w : World) (i : Nat) : Option Tap :=
  match w.owners[i]? with
  | some (.tap t) => some t
  | _ => none

/-- Changes the line of a tap. -/
def setTapLine (w : World) (i : Nat) (line : Line) : World :=
  match w.tap? i with
  | some t => { w with owners := w.owners.set i (.tap { t with line }) }
  | none => w

end World

end Settle.Live
