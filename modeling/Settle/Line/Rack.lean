import Settle.Line

/-!
# Racks of lines

A rack holds simulated lines behind numbered handles. Several handles may share one line: what is
done through one of them shows through the others.
-/

namespace Settle

/-- Lines behind handles. -/
structure Rack where
  /-- The lines. -/
  lines : List Line := []
  /-- For each handle, the position of its line. -/
  handles : List Nat := []
deriving DecidableEq, Repr

namespace Rack

/-- The line behind a handle. -/
def line (r : Rack) (handle : Nat) : Option Line := do
  let position ← r.handles[handle]?
  r.lines[position]?

/-- Changes the line behind a handle. -/
def setLine (r : Rack) (handle : Nat) (line : Line) : Rack :=
  match r.handles[handle]? with
  | none => r
  | some position => { r with lines := r.lines.set position line }

/-- Puts a new line on the rack, behind a handle of its own. -/
def create (r : Rack) (level : Bool) : Nat × Rack :=
  (r.handles.length,
    { lines := r.lines ++ [{ level }], handles := r.handles ++ [r.lines.length] })

/-- Makes another handle for the line behind a handle. -/
def share (r : Rack) (handle : Nat) : Nat × Rack :=
  (r.handles.length, { r with handles := r.handles ++ r.handles[handle]?.toList })

/-- What one does to a line. -/
inductive Op where
  /-- Make another handle for it. -/
  | share
  /-- Set its level. -/
  | setLevel (level : Bool)
  /-- Make its readings fail, or succeed again. -/
  | setFailing (failing : Bool)
  /-- Turn its level over. -/
  | toggle
  /-- Read whether it is high. -/
  | isHigh
  /-- Read whether it is low. -/
  | isLow
deriving DecidableEq, Repr

/-- What comes back. -/
inductive Answer where
  /-- Nothing. -/
  | done
  /-- A handle. -/
  | handle (n : Nat)
  /-- A level, or what was read. -/
  | flag (b : Bool)
  /-- The reading failed. -/
  | failed
deriving DecidableEq, Repr

/-- The answer to a reading. -/
def Answer.ofRead : Option Bool → Answer
  | none => .failed
  | some b => .flag b

/-- Does something to the line behind a handle, if there is one. -/
def apply (r : Rack) (handle : Nat) (op : Op) : Option (Answer × Rack) := do
  let line ← r.line handle
  match op with
  | .share => return (.handle (r.share handle).1, (r.share handle).2)
  | .setLevel level => return (.done, r.setLine handle (line.setLevel level))
  | .setFailing failing => return (.done, r.setLine handle (line.setFailing failing))
  | .toggle => return (.flag line.toggle.level, r.setLine handle line.toggle)
  | .isHigh => return (.ofRead line.read.1, r.setLine handle line.read.2)
  | .isLow => return (.ofRead line.readLow.1, r.setLine handle line.readLow.2)

/-! ## Sessions -/

/-- An order to a rack: a new line, or something done to the line behind a handle. -/
inductive Order where
  /-- A new line at a level. -/
  | create (level : Bool)
  /-- Something done to a line. -/
  | op (handle : Nat) (op : Op)
deriving DecidableEq, Repr

/-- What an order shows. -/
inductive Shown where
  /-- The handle of a new line. -/
  | created (handle : Nat)
  /-- The answer, and the line as it is then. -/
  | answered (answer : Answer) (line : Line)
  /-- There is no such handle. -/
  | unknown
deriving DecidableEq, Repr

/-- Carries out an order. -/
def carryOut (r : Rack) : Order → Shown × Rack
  | .create level => (.created (r.create level).1, (r.create level).2)
  | .op handle op =>
    match r.apply handle op with
    | none => (.unknown, r)
    | some (answer, next) =>
      match next.line handle with
      | none => (.unknown, next)
      | some line => (.answered answer line, next)

end Rack

end Settle
