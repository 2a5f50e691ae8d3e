import Settle.Notice
import Settle.Text.Clip

/-!
# The fault record of a line

The record knows which faults a line has now, which of them nobody has been told about yet, and
the message of the last failure. Raising a fault that is already there changes nothing, so each
episode of a fault is reported once; clearing a fault before it was reported withdraws the report.
-/

namespace Settle

/-- The faults of a line. -/
structure FaultRecord where
  /-- The faults the line has now. -/
  active : FaultSet := .none
  /-- Those of them that nobody has been told about yet. -/
  unreported : FaultSet := .none
  /-- The beginning of the last failure's message. -/
  lastError : Text.Short := .empty
deriving DecidableEq

namespace FaultRecord

/-- Whether the line has no fault. -/
def isHealthy (r : FaultRecord) : Bool := r.active.isEmpty

/-- Notes a fault. -/
def raise (r : FaultRecord) (f : Fault) : FaultRecord :=
  { r with
    active := r.active.insert f,
    unreported := if r.active.has f then r.unreported else r.unreported.insert f }

/-- Notes a fault and the message of its cause. -/
def fail (r : FaultRecord) (f : Fault) (message : String) : FaultRecord :=
  { r.raise f with lastError := .clip message }

/-- Withdraws a fault, and says whether the line had it. -/
def clear (r : FaultRecord) (f : Fault) : Bool × FaultRecord :=
  (r.active.has f,
    { r with active := r.active.erase f, unreported := r.unreported.erase f })

/-- The faults that nobody has been told about yet; whoever takes them tells. -/
def takeUnreported (r : FaultRecord) : FaultSet × FaultRecord :=
  (r.unreported, { r with unreported := .none })

/-- Faults are taken to be reported once. -/
@[simp] theorem takeUnreported_takeUnreported (r : FaultRecord) :
    r.takeUnreported.2.takeUnreported.1 = .none := rfl

/-- A fault that is raised leaves no message. -/
@[simp] theorem lastError_raise (r : FaultRecord) (f : Fault) :
    (r.raise f).lastError = r.lastError := rfl

/-- A fault that is withdrawn leaves the message. -/
@[simp] theorem lastError_clear (r : FaultRecord) (f : Fault) :
    (r.clear f).2.lastError = r.lastError := rfl

/-- A failure leaves the beginning of its message. -/
@[simp] theorem lastError_fail (r : FaultRecord) (f : Fault) (message : String) :
    (r.fail f message).lastError = .clip message := rfl

/-- To take the unreported faults leaves the message. -/
@[simp] theorem lastError_takeUnreported (r : FaultRecord) :
    r.takeUnreported.2.lastError = r.lastError := rfl

/-- A fault that is taken to be reported is there still. -/
@[simp] theorem active_takeUnreported (r : FaultRecord) :
    r.takeUnreported.2.active = r.active := rfl

/-- The fault that is raised is there, and all others are as they were. -/
@[simp] theorem has_active_raise (r : FaultRecord) (f g : Fault) :
    (r.raise f).active.has g = (decide (f = g) || r.active.has g) :=
  FaultSet.has_insert _ _ _

/-- A failure raises its fault. -/
@[simp] theorem active_fail (r : FaultRecord) (f : Fault) (message : String) :
    (r.fail f message).active = (r.raise f).active := rfl

/-- The fault that is withdrawn is gone, and all others are as they were. -/
@[simp] theorem has_active_clear (r : FaultRecord) (f g : Fault) :
    (r.clear f).2.active.has g = (decide (f ≠ g) && r.active.has g) :=
  FaultSet.has_erase _ _ _

/-- A fault that is raised is unreported, unless it was there before; the reports of other faults
stay as they were. -/
@[simp] theorem has_unreported_raise (r : FaultRecord) (f g : Fault) :
    (r.raise f).unreported.has g =
      (r.unreported.has g || (decide (f = g) && !r.active.has f)) := by
  unfold raise
  cases r.active.has f <;> simp [Bool.or_comm]

/-- A fault that is withdrawn is no longer to be reported. -/
@[simp] theorem has_unreported_clear (r : FaultRecord) (f g : Fault) :
    (r.clear f).2.unreported.has g = (decide (f ≠ g) && r.unreported.has g) :=
  FaultSet.has_erase _ _ _

/-- When the unreported faults are taken, none is left. -/
@[simp] theorem unreported_takeUnreported (r : FaultRecord) :
    r.takeUnreported.2.unreported = .none := rfl

/-- Raising a fault twice is raising it once. -/
theorem raise_of_has {r : FaultRecord} {f : Fault} (h : r.active.has f = true) :
    (r.raise f).unreported = r.unreported := by
  simp [raise, h]

/-! ## Operations as data -/

/-- One operation on a fault record. -/
inductive Op where
  /-- Note a fault. -/
  | raise (fault : Fault)
  /-- Note a fault and a message. -/
  | fail (fault : Fault) (message : String)
  /-- Withdraw a fault. -/
  | clear (fault : Fault)
  /-- Ask whether the line has a fault. -/
  | has (fault : Fault)
  /-- Take what is unreported. -/
  | takeUnreported
deriving DecidableEq, Repr

/-- What an operation answers. -/
inductive Answer where
  /-- Nothing. -/
  | done
  /-- A truth value. -/
  | flag (b : Bool)
  /-- A set of faults. -/
  | faults (s : FaultSet)
deriving DecidableEq, Repr

/-- Performs one operation. -/
def apply (r : FaultRecord) : Op → Answer × FaultRecord
  | .raise f => (.done, r.raise f)
  | .fail f message => (.done, r.fail f message)
  | .clear f => ((.flag (r.clear f).1), (r.clear f).2)
  | .has f => (.flag (r.active.has f), r)
  | .takeUnreported => (.faults r.takeUnreported.1, r.takeUnreported.2)

/-- An order to the keeper of a record: an operation, or telling of a set of faults. -/
inductive Order where
  /-- An operation on the record. -/
  | op (op : Op)
  /-- Tell of the faults of a line; this leaves the record alone. -/
  | tell (source : UInt32) (faults : FaultSet)
deriving DecidableEq, Repr

/-- What an order shows. -/
inductive Shown where
  /-- The answer of an operation. -/
  | answer (answer : Answer)
  /-- What was told. -/
  | notices (notices : List Notice)
deriving DecidableEq, Repr

/-- Carries out an order. -/
def carryOut (r : FaultRecord) : Order → Shown × FaultRecord
  | .op op => (.answer (r.apply op).1, (r.apply op).2)
  | .tell source faults => (.notices (Notice.ofFaults source faults), r)

end FaultRecord

end Settle
