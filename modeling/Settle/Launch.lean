import Settle.Refusal

/-!
# Launching tasks

A task has a name and a stack whose size is given in kibibytes. It is the machine that starts tasks,
and it may refuse for reasons of its own, for instance for want of memory. Before it is asked, the
size of the stack in bytes has to be a word.

Main statement: `obstacle?_eq_none_iff` says when nothing stands in the way of a task.
-/

namespace Settle

/-- The size in bytes of a stack of so many kibibytes, if it is a word, that is, below `2 ^ 64`. -/
def stackBytes? (kib : UInt64) : Option UInt64 :=
  if kib.toNat * 1024 < 0x10000000000000000 then some (kib * 1024) else none

/-- A size in bytes is the exact size. -/
theorem stackBytes?_eq_some_iff {kib bytes : UInt64} :
    stackBytes? kib = some bytes ↔ bytes.toNat = kib.toNat * 1024 := by
  have hword := bytes.toNat_lt
  have hunit : (1024 : UInt64).toNat = 1024 := rfl
  unfold stackBytes?
  split
  · next h =>
    rw [Option.some.injEq, ← UInt64.toNat_inj, UInt64.toNat_mul, hunit, Nat.mod_eq_of_lt h]
    exact eq_comm
  · next h =>
    constructor
    · intro e; cases e
    · intro e; omega

/-- What a machine answers when it is asked to start a task with a name and a stack of so many bytes:
nothing if it starts the task, and why not if it does not. -/
abbrev Machine := String → UInt64 → Option String

/-- The machine that is assumed where none is given: it has 32 gibibytes for a stack and starts any
task whose stack fits in there. -/
def Machine.ordinary : Machine := fun _ bytes =>
  if bytes.toNat ≤ 0x800000000 then none
  else some "Resource temporarily unavailable (os error 11)"

/-- Why a task is not launched. -/
inductive Obstacle where
  /-- The size of its stack in bytes is no word. -/
  | stackTooLarge (kib : UInt64)
  /-- The machine does not start it. -/
  | refused (why : String)
deriving DecidableEq, Repr

/-- What stands in the way of a task, if anything does. -/
def obstacle? (machine : Machine) (name : String) (stackKib : UInt64) : Option Obstacle :=
  match stackBytes? stackKib with
  | none => some (.stackTooLarge stackKib)
  | some bytes => (machine name bytes).map .refused

/-- Nothing stands in the way of a task when the machine is asked and starts it. -/
theorem obstacle?_eq_none_iff {machine : Machine} {name : String} {stackKib : UInt64} :
    obstacle? machine name stackKib = none ↔
      ∃ bytes, stackBytes? stackKib = some bytes ∧ machine name bytes = none := by
  unfold obstacle?
  cases stackBytes? stackKib <;> simp

/-- Launches a task that is told its own name, and gives what the task comes to. -/
def launch {α : Type} (name : String) (stackKib : UInt64) (body : String → α)
    (machine : Machine := .ordinary) : Except Shortage α :=
  match obstacle? machine name stackKib with
  | none => .ok (body name)
  | some _ => .error (.taskNotStarted name)

end Settle
