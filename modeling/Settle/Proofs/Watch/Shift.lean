import Settle.Proofs.Watch.Steps

/-!
# Shifts: a watch with its one worker

Producers, the timer and callers may use a watch in any order, but the worker has one task at a
time: it asks for a task only when it has none in hand, and for each task that it was given it
records once how the task ended, as settled or as unreadable. A *shift* is a watch together with the
task in the worker's hand, and its steps are the operations on the watch that this rule allows. The
states of a shift are those that a watch can reach with one worker.
-/

namespace Settle

/-- A watch, and the task that its worker has taken and not yet recorded. -/
structure Shift where
  /-- The watch. -/
  watch : Watch
  /-- The task in hand. -/
  inHand : Option Report := none
deriving DecidableEq

namespace Shift

/-- A worker with empty hands at a new watch over a line that was read at `level`. -/
def start (source : UInt32) (length : Micros) (level : Bool) : Shift :=
  { watch := Watch.new source length level }

/-- Whether an operation is allowed: a task is taken only with empty hands, and what is recorded is
the end of the task in hand. A settled task is recorded with its own window. -/
def allows (s : Shift) : Watch.Op → Bool
  | .takeJob => s.inHand.isNone
  | .settle _ window _ => s.inHand == some window
  | .unreadable _ => s.inHand.isSome
  | _ => true

/-- The task in hand after an operation with its answer. -/
def handAfter (s : Shift) (op : Watch.Op) (answer : Watch.Answer) : Option Report :=
  match op with
  | .takeJob => answer.taken?
  | .settle .. => none
  | .unreadable _ => none
  | _ => s.inHand

/-- Why an operation is not performed on a shift. -/
inductive Refused where
  /-- It is not allowed. -/
  | outOfTurn
  /-- The watch cannot be computed. -/
  | halted (halt : Halt)
deriving DecidableEq, Repr

/-- Performs one operation, if it is allowed. -/
def step (s : Shift) (op : Watch.Op) : Except Refused (Watch.Answer × Shift) :=
  if s.allows op then do
    let (answer, watch) ← (s.watch.apply op).mapError .halted
    return (answer, { watch, inHand := s.handAfter op answer })
  else .error .outOfTurn

variable {s t : Shift} {op : Watch.Op} {answer : Watch.Answer}

/-- A shift steps if it allows the operation and the watch performs it. -/
theorem step_eq_ok_iff :
    s.step op = .ok (answer, t) ↔
      s.allows op = true ∧ ∃ watch, s.watch.apply op = .ok (answer, watch) ∧
        t = { watch, inHand := s.handAfter op answer } := by
  unfold step
  cases hallows : s.allows op with
  | false => simp
  | true =>
    simp only [if_true, bind_eq_ok_iff, mapError_eq_ok_iff, pure_eq_ok_iff, Prod.exists,
      Prod.mk.injEq, true_and]
    constructor
    · rintro ⟨answer', watch, happly, rfl, rfl⟩
      exact ⟨watch, happly, rfl⟩
    · rintro ⟨watch, happly, rfl⟩
      exact ⟨answer, watch, happly, rfl, rfl⟩

/-- What a shift does not allow is out of turn. -/
theorem step_of_not_allows (h : s.allows op = false) : s.step op = .error .outOfTurn := by
  rw [step, h, if_neg Bool.false_ne_true]

/-- What a step of a shift can be: one operation on the watch, with the task in hand after it. -/
inductive StepCase (s : Shift) : Watch.Op → Watch.Answer → Shift → Prop where
  /-- An edge. -/
  | edge {now : Instant} {armable : Bool} {answer : EdgeAnswer} {watch : Watch}
      (done : s.watch.edge now armable = .ok (answer, watch)) :
      StepCase s (.edge now armable) (.edge answer) { s with watch }
  /-- A poll. -/
  | poll {now : Instant} {verdict : Verdict} {watch : Watch}
      (done : s.watch.poll now = .ok (verdict, watch)) :
      StepCase s (.poll now) (.verdict verdict) { s with watch }
  /-- The worker asks for a task. -/
  | takeJob {job : Job} {watch : Watch} (empty : s.inHand = none)
      (done : s.watch.takeJob = .ok (job, watch)) :
      StepCase s .takeJob (.job job) { watch, inHand := (Watch.Answer.job job).taken? }
  /-- The worker records that its task is settled. -/
  | settle {window : Report} {level : Bool} {now : Instant} {event : Event} {watch : Watch}
      (holds : s.inHand = some window)
      (done : s.watch.settle level window now = .ok (event, watch)) :
      StepCase s (.settle level window now) (.event event) { watch, inHand := none }
  /-- The worker records that the line could not be read for its task. -/
  | unreadable {task : Report} {message : String} {watch : Watch} (holds : s.inHand = some task)
      (done : s.watch.unreadable message = .ok watch) :
      StepCase s (.unreadable message) .done { watch, inHand := none }
  /-- The worker records how the handler ended. -/
  | handled (failure : Option String) :
      StepCase s (.handled failure) .done { s with watch := s.watch.handled failure }
  /-- The teardown. -/
  | disarm : StepCase s .disarm (.wasPending s.watch.disarm.1) { s with watch := s.watch.disarm.2 }
  /-- Somebody takes the unreported faults. -/
  | takeUnreported :
      StepCase s .takeUnreported (.faults s.watch.takeUnreported.1)
        { s with watch := s.watch.takeUnreported.2 }
  /-- Somebody takes a snapshot. -/
  | snapshot : StepCase s .snapshot (.snapshot s.watch.snapshot) s

/-- These are all the steps of a shift. -/
theorem step_eq_ok (h : s.step op = .ok (answer, t)) : StepCase s op answer t := by
  obtain ⟨hallows, watch, happly, rfl⟩ := step_eq_ok_iff.mp h
  cases Watch.apply_eq_ok happly with
  | edge done => exact .edge done
  | poll done => exact .poll done
  | takeJob done => exact .takeJob (Option.isNone_iff_eq_none.mp hallows) done
  | settle done => exact .settle (beq_iff_eq.mp hallows) done
  | unreadable done =>
    obtain ⟨task, htask⟩ := Option.isSome_iff_exists.mp hallows
    exact .unreadable htask done
  | handled failure => exact .handled failure
  | disarm => exact .disarm
  | takeUnreported => exact .takeUnreported
  | snapshot => exact .snapshot

end Shift

end Settle
