import Settle.Hub

/-!
# The bench

On the bench a watch or a hub is worked by hand, one operation at a time. The bench remembers the
report of the last task that was taken, so that an order to settle "the task in hand" need not
repeat it.
-/

namespace Settle

/-- A machine on the bench, and the report of the last task taken from it. -/
structure Bench (σ : Type) where
  /-- The machine. -/
  machine : σ
  /-- The report of the last task taken. -/
  inHand : Report := .blank

namespace Bench

/-- An order at the bench: an operation, or the settling of the task in hand. -/
inductive Order (ι : Type) where
  /-- An operation as it stands. -/
  | op (op : ι)
  /-- The line was read for the task in hand. -/
  | settle (level : Bool) (now : Instant)

/-- Carries out an order on a machine: `step` performs operations, `watchOp` embeds the operations
of a watch among them, and `taken?` tells which answers hand over a task. -/
def carryOut {σ ι ο : Type} (step : σ → ι → Except Halt (ο × σ)) (watchOp : Watch.Op → ι)
    (taken? : ο → Option Report) (b : Bench σ) (order : Order ι) : Except Halt (ο × Bench σ) := do
  let op := match order with
    | .op op => op
    | .settle level now => watchOp (.settle level b.inHand now)
  let (answer, machine) ← step b.machine op
  return (answer, { machine, inHand := (taken? answer).getD b.inHand })

/-- Carries out an order on a watch. -/
def onWatch : Bench Watch → Order Watch.Op → Except Halt (Watch.Answer × Bench Watch) :=
  carryOut Watch.apply id Watch.Answer.taken?

/-- Carries out an order on a hub. -/
def onHub : Bench Hub → Order Hub.Op → Except Halt (Hub.Answer × Bench Hub) :=
  carryOut Hub.apply .watch Hub.Answer.taken?

end Bench

end Settle
