import Settle.Json.Document
import Settle.Refusal
import Settle.Word

/-!
# Settings

The settings of one monitored line: its id, the length of its windows, and the sizes of the stacks
of the two tasks that work on it. Every setting has a default.
-/

namespace Settle

/-- The settings of one monitored line. -/
structure Settings where
  /-- The id of the line. -/
  source : UInt32 := 60
  /-- The length of a window in milliseconds. -/
  windowMs : UInt32 := 50
  /-- The stack of the worker in kibibytes. -/
  workerStackKib : UInt64 := 64
  /-- The stack of the timer in kibibytes. -/
  timerStackKib : UInt64 := 16
deriving DecidableEq, Repr

namespace Settings

/-- The longest window in milliseconds. -/
def maxWindowMs : UInt32 := 10000

/-- The smallest stack in kibibytes. -/
def minStackKib : UInt64 := 4

/-- The largest stack in kibibytes. -/
def maxStackKib : UInt64 := 8192

/-- Finds out whether a stack can be had. -/
def checkStack (kib : UInt64) : Except Flaw Unit :=
  if kib < minStackKib then .error .stackTooSmall
  else if maxStackKib < kib then .error .stackTooLarge
  else .ok ()

/-- Finds the first flaw of the settings: the window is looked at first, then the worker's stack,
then the timer's. -/
def check (s : Settings) : Except Flaw Unit :=
  if s.windowMs = 0 then .error .windowZero
  else if maxWindowMs < s.windowMs then .error .windowTooLong
  else do
    checkStack s.workerStackKib
    checkStack s.timerStackKib

/-- Stacks from 4 KiB to 8 MiB can be had. -/
theorem checkStack_eq_ok_iff {kib : UInt64} :
    checkStack kib = .ok () ↔ 4 ≤ kib ∧ kib ≤ 8192 := by
  have hsmall : kib < minStackKib ↔ ¬ 4 ≤ kib := UInt64.not_le.symm
  have hlarge : maxStackKib < kib ↔ ¬ kib ≤ 8192 := UInt64.not_le.symm
  unfold checkStack
  split
  · next h => simp [hsmall.mp h]
  · next h =>
    have hfour := Decidable.of_not_not (mt hsmall.mpr h)
    split
    · next h => simp [hlarge.mp h]
    · next h => simp [hfour, Decidable.of_not_not (mt hlarge.mpr h)]

/-- The settings that pass: a window of 1 to 10000 milliseconds, and two stacks that can be had. -/
theorem check_eq_ok_iff {s : Settings} :
    s.check = .ok () ↔ (1 ≤ s.windowMs ∧ s.windowMs ≤ 10000) ∧
      (4 ≤ s.workerStackKib ∧ s.workerStackKib ≤ 8192) ∧
      (4 ≤ s.timerStackKib ∧ s.timerStackKib ≤ 8192) := by
  have hzero : s.windowMs = 0 ↔ ¬ 1 ≤ s.windowMs := by
    rw [← UInt32.toNat_inj, UInt32.le_iff_toNat_le]
    simp
  have hlong : maxWindowMs < s.windowMs ↔ ¬ s.windowMs ≤ 10000 := UInt32.not_le.symm
  rw [← checkStack_eq_ok_iff, ← checkStack_eq_ok_iff]
  unfold check
  split
  · next h => simp [hzero.mp h]
  · next h =>
    have hone := Decidable.of_not_not (mt hzero.mpr h)
    split
    · next h => simp [hlong.mp h]
    · next h =>
      rw [and_iff_right ⟨hone, Decidable.of_not_not (mt hlong.mpr h)⟩]
      cases checkStack s.workerStackKib <;> simp [bind, Except.bind]

/-- The length of a window in microseconds. -/
def window (s : Settings) : Micros := s.windowMs.toUInt64 * 1000

/-! ## Fields -/

/-- A setting by name. -/
inductive Field where
  /-- The id of the line. -/
  | source
  /-- The length of a window. -/
  | windowMs
  /-- The stack of the worker. -/
  | workerStackKib
  /-- The stack of the timer. -/
  | timerStackKib
deriving DecidableEq, Repr

namespace Field

/-- All fields, in the order in which they are written. -/
def all : List Field := [.source, .windowMs, .workerStackKib, .timerStackKib]

/-- The key under which a field is written. -/
def key : Field → String
  | .source => "source_id"
  | .windowMs => "window_ms"
  | .workerStackKib => "worker_stack_kb"
  | .timerStackKib => "timer_stack_kb"

/-- The first number too large for a field. -/
def bound : Field → Nat
  | .source => UInt32.size
  | .windowMs => UInt32.size
  | .workerStackKib => UInt64.size
  | .timerStackKib => UInt64.size

/-- The field written under a key. -/
def ofKey? (key : List Char) : Option Field := all.find? fun f => f.key.toList == key

end Field

/-- The value of a field. -/
def get (s : Settings) : Field → Nat
  | .source => s.source.toNat
  | .windowMs => s.windowMs.toNat
  | .workerStackKib => s.workerStackKib.toNat
  | .timerStackKib => s.timerStackKib.toNat

/-- Sets a field. -/
def set (s : Settings) (f : Field) (n : Nat) : Settings :=
  match f with
  | .source => { s with source := .ofNat n }
  | .windowMs => { s with windowMs := .ofNat n }
  | .workerStackKib => { s with workerStackKib := .ofNat n }
  | .timerStackKib => { s with timerStackKib := .ofNat n }

/-- The printed form of the settings. -/
def document (s : Settings) : Json.Document :=
  .object (Field.all.map fun f => (f.key, .number (s.get f)))

/-- The value of a field is in its range. -/
theorem get_lt_bound (s : Settings) (f : Field) : s.get f < f.bound := by
  cases f
  · exact s.source.toNat_lt
  · exact s.windowMs.toNat_lt
  · exact s.workerStackKib.toNat_lt
  · exact s.timerStackKib.toNat_lt

/-- Settings are determined by the values of their fields. -/
theorem ext_get {s t : Settings} (h : ∀ f, s.get f = t.get f) : s = t := by
  have h1 := UInt32.toNat_inj.mp (h .source)
  have h2 := UInt32.toNat_inj.mp (h .windowMs)
  have h3 := UInt64.toNat_inj.mp (h .workerStackKib)
  have h4 := UInt64.toNat_inj.mp (h .timerStackKib)
  cases s
  cases t
  simp_all

/-- A field that was set has the value it was set to, if the value is in its range. -/
theorem get_set {s : Settings} {f : Field} {n : Nat} (h : n < f.bound) (g : Field) :
    (s.set f n).get g = if g = f then n else s.get g := by
  cases f <;> cases g <;> simp only [reduceCtorEq, if_false, if_true] <;>
    first | rfl | exact Nat.mod_eq_of_lt h

end Settings

end Settle
