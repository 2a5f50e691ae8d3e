import Settle.Live.World

/-!
# The roster

The roster holds claims and taps in named slots. What comes into a slot displaces what was there,
and the displaced owner lets go of its id only after the newcomer has its own; so an owner cannot be
displaced by a newcomer of the same id.
-/

namespace Settle.Live

/-- Owners in slots. -/
structure Roster where
  /-- The world. -/
  world : World := {}
  /-- The numbers of the owners, by slot. -/
  slots : List (String × Nat) := []
deriving DecidableEq

namespace Roster

/-- An order to the roster. -/
inductive Order where
  /-- Claim an id. -/
  | claim (slot : String) (id : UInt32)
  /-- Acquire a tap on a new line. -/
  | acquire (slot : String) (id : UInt32) (level failing : Bool)
  /-- Change the line of a tap. -/
  | setLine (slot : String) (level : Option Bool) (failing : Bool)
  /-- Read the line of a tap. -/
  | read (slot : String)
  /-- Let go of what is in a slot. -/
  | release (slot : String)
  /-- Ask whether an id is owned. -/
  | isClaimed (id : UInt32)
deriving DecidableEq, Repr

/-- What an order shows. -/
inductive Shown where
  /-- An id was claimed. -/
  | claimed (id : UInt32)
  /-- A tap was acquired, its line at a level and read so often. -/
  | acquired (id : UInt32) (level : Bool) (reads : Count)
  /-- Nothing was claimed. -/
  | notClaimed (shortage : Shortage)
  /-- Nothing was acquired; the line was read so often. -/
  | notAcquired (shortage : Shortage) (reads : Count)
  /-- A line was changed. -/
  | changed
  /-- A line was read; by now it was read so often. -/
  | read (level : Option Bool) (reads : Count)
  /-- Whether there was anything to let go of. -/
  | released (b : Bool)
  /-- Whether an id is owned. -/
  | isClaimed (b : Bool)
  /-- There is nothing of that kind in the slot. -/
  | unknown
deriving DecidableEq, Repr

/-- What an order shows, and what there was to say. -/
structure Answer where
  /-- What it shows. -/
  shown : Shown
  /-- What there was to say. -/
  notices : List Notice := []
deriving DecidableEq, Repr

/-- Lets go of what is in a slot. -/
def vacate (r : Roster) (slot : String) : Roster :=
  match r.slots.lookup slot with
  | none => r
  | some i => { world := r.world.letGo i, slots := r.slots.filter (·.1 != slot) }

/-- Puts a new owner into a slot, and lets go of what was there. -/
def settle (r : Roster) (slot : String) (i : Nat) (world : World) : Roster :=
  let r := { r with world }.vacate slot
  { r with slots := (slot, i) :: r.slots }

/-- The number and the tap in a slot. -/
def tap? (r : Roster) (slot : String) : Option (Nat × Tap) := do
  let i ← r.slots.lookup slot
  let t ← r.world.tap? i
  return (i, t)

/-- Changes the line of the tap in a slot, and shows something about the line before and after. -/
def withLine (r : Roster) (slot : String) (f : Line → Line) (show? : Line → Line → Shown) :
    Shown × Roster :=
  match r.tap? slot with
  | none => (.unknown, r)
  | some (i, t) => (show? t.line (f t.line), { r with world := r.world.setTapLine i (f t.line) })

/-- Sets what there is to set about a line. -/
def adjust (level : Option Bool) (failing : Bool) (l : Line) : Line :=
  (l.setLevel (level.getD l.level)).setFailing failing

/-- Carries out an order. -/
def carryOut (r : Roster) : Order → Answer × Roster
  | .claim slot id =>
    match r.world.claim id with
    | .error e => ({ shown := .notClaimed e }, r)
    | .ok (i, world) => ({ shown := .claimed id }, r.settle slot i world)
  | .acquire slot id level failing =>
    let f := r.world.acquire id { level, failing }
    match f.result with
    | .error e =>
      ({ shown := .notAcquired e f.line.reads, notices := f.notices },
        { r with world := f.world })
    | .ok (i, level) =>
      ({ shown := .acquired id level f.line.reads, notices := f.notices },
        r.settle slot i f.world)
  | .setLine slot level failing =>
    let (shown, r) := r.withLine slot (adjust level failing) fun _ _ => .changed
    ({ shown }, r)
  | .read slot =>
    let (shown, r) := r.withLine slot (fun l => l.read.2)
      fun before after => .read before.read.1 after.reads
    ({ shown }, r)
  | .release slot => ({ shown := .released (r.slots.lookup slot).isSome }, r.vacate slot)
  | .isClaimed id => ({ shown := .isClaimed (r.world.registry.isClaimed id) }, r)

end Roster

end Settle.Live
