import Settle.Word

/-!
# Simulated lines

A simulated line has a level that is set from outside, may be told to fail its readings, and counts
the readings, failed ones included. The level of a failing line can still be set; it shows once the
line no longer fails.
-/

namespace Settle

/-- A simulated line. -/
structure Line where
  /-- Its level; true is high. -/
  level : Bool := false
  /-- Whether its readings fail. -/
  failing : Bool := false
  /-- How often it was read. -/
  reads : Count := 0
deriving DecidableEq, Repr

namespace Line

/-- The name of the error that a line gives when it cannot be read. -/
def errorName : String := "SimLineError"

/-- The kind of that error. -/
def errorKind : String := "Other"

/-- Sets the level. -/
def setLevel (l : Line) (level : Bool) : Line := { l with level }

/-- Makes all readings from now on fail, or succeed again. -/
def setFailing (l : Line) (failing : Bool) : Line := { l with failing }

/-- Turns the level over. -/
def toggle (l : Line) : Line := { l with level := !l.level }

/-- Reads the line: its level, or nothing if the reading fails. -/
def read (l : Line) : Option Bool × Line :=
  (if l.failing then none else some l.level, { l with reads := l.reads + 1 })

/-- Reads whether the line is low. -/
def readLow (l : Line) : Option Bool × Line := (l.read.1.map (!·), l.read.2)

/-- A line that is turned over has the other level. -/
@[simp] theorem level_toggle (l : Line) : l.toggle.level = !l.level := rfl

/-- A line that is turned over twice is what it was. -/
@[simp] theorem toggle_toggle (l : Line) : l.toggle.toggle = l := by
  simp [toggle]

/-- A reading leaves the level as it is. -/
@[simp] theorem level_read (l : Line) : l.read.2.level = l.level := rfl

end Line

end Settle
