import Settle.Line
import Settle.Notice
import Settle.Registry

/-!
# Taps

A tap is a line under an id that its owner has to itself. Acquiring one claims the id first and then
reads the line for the first time; if the reading fails, the id is given back, so a failed
acquisition leaves the registry as it was (`registry_of_error`).
-/

namespace Settle

/-- A line under an owned id. -/
structure Tap where
  /-- The id. -/
  id : UInt32
  /-- The line. -/
  line : Line
deriving DecidableEq, Repr

/-- What comes of an attempt to set something up on a line. -/
structure Attempt (ε α : Type) where
  /-- The registry afterwards. -/
  registry : Registry
  /-- The line afterwards. -/
  line : Line
  /-- What there was to say. -/
  notices : List Notice := []
  /-- What was set up, or why nothing was. -/
  result : Except ε α

namespace Tap

/-- Acquires a tap, and reads its level. -/
def acquire (r : Registry) (id : UInt32) (line : Line) : Attempt Shortage (Tap × Bool) :=
  match r.claim id with
  | .error e => { registry := r, line, result := .error e }
  | .ok claimed =>
    let after := line.read.2
    match line.read.1 with
    | some level =>
      { registry := claimed, line := after, result := .ok ({ id, line := after }, level) }
    | none =>
      { registry := claimed.release id, line := after, notices := [.firstReadFailed id],
        result := .error .levelReadFailed }

/-- A failed acquisition leaves the registry as it was. -/
theorem registry_of_error {r : Registry} {id : UInt32} {line : Line} {e : Shortage}
    (h : (acquire r id line).result = .error e) : (acquire r id line).registry = r := by
  unfold acquire at h ⊢
  split
  · rfl
  · next claimed hc =>
    simp only [hc] at h
    split at h
    · cases h
    · exact Registry.release_of_claim hc

end Tap

end Settle
