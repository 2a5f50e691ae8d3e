/-!
# Faults

What can be wrong with a monitored line without stopping it: the timer cannot be armed, the line
cannot be read, or the handler fails. Each fault has a bit of its own, and a set of faults is a
byte.
-/

namespace Settle

/-- Something that is wrong with a monitored line. -/
inductive Fault where
  /-- A deadline could not be armed. -/
  | timerUnavailable
  /-- The settled level could not be read. -/
  | levelReadFailed
  /-- The handler reported a failure, or broke down. -/
  | handlerFailed
deriving DecidableEq, Repr

namespace Fault

/-- All faults, in the order in which they are reported. -/
def all : List Fault := [.timerUnavailable, .levelReadFailed, .handlerFailed]

/-- The bit of a fault. -/
def mask : Fault → UInt8
  | .timerUnavailable => 1
  | .levelReadFailed => 2
  | .handlerFailed => 4

/-- The bits of all faults. -/
def allMasks : UInt8 := all.foldr (fun f bits => f.mask ||| bits) 0

/-- The text shown for a fault. -/
def message : Fault → String
  | .timerUnavailable => "timer unavailable"
  | .levelReadFailed => "level read failed"
  | .handlerFailed => "event handler failed"

/-- Each fault is in the list of all faults. -/
theorem mem_all (f : Fault) : f ∈ all := by cases f <;> decide

/-- Different faults have different bits. -/
theorem mask_and_mask (f g : Fault) : f.mask &&& g.mask = if f = g then f.mask else 0 := by
  cases f <;> cases g <;> rfl

/-- Each fault has a bit. -/
theorem mask_ne_zero (f : Fault) : f.mask ≠ 0 := by cases f <;> decide

/-- The bit of a fault is none of the other bits. -/
theorem mask_and_not_allMasks (f : Fault) : f.mask &&& ~~~allMasks = 0 := by
  cases f <;> rfl

/-- Removing a fault's bit leaves the bits of the other faults alone. -/
theorem not_mask_and_mask (f g : Fault) :
    ~~~f.mask &&& g.mask = if f = g then 0 else g.mask := by
  cases f <;> cases g <;> rfl

end Fault

/-- A set of faults, as a byte. -/
structure FaultSet where
  /-- The bits of the faults in the set. -/
  bits : UInt8
deriving DecidableEq, Repr

namespace FaultSet

/-- No fault. -/
def none : FaultSet := ⟨0⟩

/-- Whether a fault is in the set. -/
def has (s : FaultSet) (f : Fault) : Bool := s.bits &&& f.mask != 0

/-- The set with one more fault. -/
def insert (s : FaultSet) (f : Fault) : FaultSet := ⟨s.bits ||| f.mask⟩

/-- The set without a fault. -/
def erase (s : FaultSet) (f : Fault) : FaultSet := ⟨s.bits &&& ~~~ f.mask⟩

/-- Whether the set has no bit at all. -/
def isEmpty (s : FaultSet) : Bool := s.bits == 0

/-- The faults in the set, in the order in which they are reported. -/
def toList (s : FaultSet) : List Fault := Fault.all.filter s.has

/-- The empty set has no fault. -/
@[simp] theorem has_none (f : Fault) : none.has f = false := by cases f <;> rfl

/-- A fault is in the set after an insertion if it was inserted, or was there before. -/
@[simp] theorem has_insert (s : FaultSet) (f g : Fault) :
    (s.insert f).has g = (decide (f = g) || s.has g) := by
  have split : (s.bits ||| f.mask) &&& g.mask = s.bits &&& g.mask ||| f.mask &&& g.mask :=
    UInt8.toBitVec_inj.1 BitVec.and_or_distrib_right
  by_cases same : f = g
  · subst same
    simp [has, insert, split, Fault.mask_ne_zero]
  · simp [has, insert, split, Fault.mask_and_mask, same]

/-- A fault is in the set after a removal if it was there before and is not the one removed. -/
@[simp] theorem has_erase (s : FaultSet) (f g : Fault) :
    (s.erase f).has g = (decide (f ≠ g) && s.has g) := by
  by_cases same : f = g
  · simp [has, erase, UInt8.and_assoc, same]
  · simp [has, erase, UInt8.and_assoc, Fault.not_mask_and_mask, same]

/-- The faults in the list of a set are those in the set. -/
theorem mem_toList {s : FaultSet} {f : Fault} : f ∈ s.toList ↔ s.has f = true := by
  simp [toList, Fault.mem_all]

/-- A fault in the set is listed once. -/
theorem count_toList (s : FaultSet) (f : Fault) :
    s.toList.count f = if s.has f then 1 else 0 := by
  split
  · next hf =>
    rw [toList, List.count_filter hf]
    cases f <;> rfl
  · next hf => exact List.count_eq_zero.mpr fun hmem => hf (mem_toList.mp hmem)

/-- A set that is found empty has no fault. -/
theorem has_of_isEmpty {s : FaultSet} (h : s.isEmpty = true) (f : Fault) : s.has f = false := by
  have hbits : s.bits = 0 := beq_iff_eq.mp h
  simp [has, hbits]

/-! ## Sets without other bits -/

/-- A byte shares with two joined bytes what it shares with each of them. -/
theorem and_or_bits (x y z : UInt8) : x &&& (y ||| z) = x &&& y ||| x &&& z :=
  UInt8.toBitVec_inj.1 BitVec.and_or_distrib_left

/-- A set that has no other bits than those of faults. -/
def Plain (s : FaultSet) : Prop := s.bits &&& ~~~Fault.allMasks = 0

/-- The empty set has no other bits. -/
theorem plain_none : none.Plain := rfl

/-- A fault that is put in brings no other bits. -/
theorem Plain.insert {s : FaultSet} (h : s.Plain) (f : Fault) : (s.insert f).Plain := by
  unfold Plain FaultSet.insert at *
  rw [UInt8.and_comm, and_or_bits, UInt8.and_comm, h, UInt8.and_comm, f.mask_and_not_allMasks]
  rfl

/-- A fault that is taken out leaves no other bits. -/
theorem Plain.erase {s : FaultSet} (h : s.Plain) (f : Fault) : (s.erase f).Plain := by
  unfold Plain FaultSet.erase at *
  rw [UInt8.and_assoc, UInt8.and_comm (~~~f.mask), ← UInt8.and_assoc, h, UInt8.zero_and]

/-- A set without other bits is empty just when no fault is in it. -/
theorem Plain.isEmpty_iff {s : FaultSet} (h : s.Plain) :
    s.isEmpty = true ↔ ∀ f, s.has f = false := by
  constructor
  · exact has_of_isEmpty
  · intro hnone
    have hmask (f : Fault) : s.bits &&& f.mask = 0 := by simpa [has] using hnone f
    have hall : s.bits &&& Fault.allMasks = 0 := by
      simp [Fault.allMasks, Fault.all, and_or_bits, hmask]
    have hbits : s.bits &&& (Fault.allMasks ||| ~~~Fault.allMasks) = 0 := by
      rw [and_or_bits, hall, h]
      rfl
    rw [show Fault.allMasks ||| ~~~Fault.allMasks = -1 from rfl, UInt8.and_neg_one] at hbits
    exact beq_iff_eq.mpr hbits

end FaultSet

end Settle
