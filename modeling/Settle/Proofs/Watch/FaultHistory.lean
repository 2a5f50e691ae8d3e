import Settle.Proofs.Text.Cutting
import Settle.Proofs.Watch.Steps

/-!
# Faults and the history of a watch

The fault record of a watch is written from both sides: a degraded edge raises one fault, what came
of a task raises or withdraws another, how the handler ended a third, and two of them leave a
message behind. Nothing else touches them (`faults_of_apply`), so what a snapshot shows of faults
can be read off the operations: a fault of the worker is there just when the last operation that
says anything about it says so, the timer's fault just when some edge could not be armed, and the
message is the longest beginning of that of the last failure for which there is room.

Main statement: `faults_eq_history`.
-/

namespace Settle

/-! ## What operations on a record do -/

namespace FaultRecord

/-- The record after an operation, if there is one. -/
def after (r : FaultRecord) : Option Op → FaultRecord
  | none => r
  | some op => (r.apply op).2

/-- Without an operation a record stays as it is. -/
@[simp] theorem after_none (r : FaultRecord) : r.after none = r := rfl

/-- An operation is applied. -/
@[simp] theorem after_some (r : FaultRecord) (op : Op) : r.after (some op) = (r.apply op).2 := rfl

/-- No operation puts other bits into a record than those of faults. -/
theorem plain_after {r : FaultRecord} (h : r.active.Plain) (op? : Option Op) :
    (r.after op?).active.Plain := by
  cases op? with
  | none => exact h
  | some op =>
    cases op with
    | raise f => exact h.insert f
    | fail f message => exact h.insert f
    | clear f => exact h.erase f
    | has f => exact h
    | takeUnreported => exact h

end FaultRecord

namespace Watch

variable {w v : Watch} {op : Op} {answer : Answer}

/-! ## What an operation on a watch does to its record -/

/-- Whether an answer is that an edge was degraded. -/
def Answer.isDegraded : Answer → Bool
  | .edge a => a.outcome == .degraded
  | _ => false

/-- What an operation does to the fault record, when this is its answer. -/
def Op.onFaults? (answer : Answer) : Op → Option FaultRecord.Op
  | .edge .. => if answer.isDegraded then some (.raise .timerUnavailable) else none
  | .settle .. => some (.clear .levelReadFailed)
  | .unreadable message => some (.fail .levelReadFailed message)
  | .handled none => some (.clear .handlerFailed)
  | .handled (some message) => some (.fail .handlerFailed message)
  | .takeUnreported => some .takeUnreported
  | .poll _ => none
  | .takeJob => none
  | .disarm => none
  | .snapshot => none

/-- The record of a watch changes by what the operation does to it. -/
theorem faults_of_apply (h : w.apply op = .ok (answer, v)) :
    v.faults = w.faults.after (op.onFaults? answer) := by
  cases apply_eq_ok h with
  | @edge now armable answer v done =>
    obtain ⟨windower, -, rfl⟩ := edge_eq_ok done
    by_cases hdegraded : answer.outcome = .degraded
    · simp [Op.onFaults?, Answer.isDegraded, hdegraded, FaultRecord.apply]
    · simp [Op.onFaults?, Answer.isDegraded, hdegraded]
  | poll done => cases poll_eq_ok done <;> rfl
  | takeJob done =>
    obtain ⟨-, cancelled, -, rfl⟩ := takeJob_eq_ok done
    rfl
  | settle done =>
    obtain ⟨delivered, -, -, -, rfl⟩ := settle_eq_ok done
    rfl
  | unreadable done =>
    obtain ⟨failed, -, rfl⟩ := unreadable_eq_ok done
    rfl
  | handled failure => cases failure <;> rfl
  | disarm => rfl
  | takeUnreported => rfl
  | snapshot => rfl

/-- A degraded edge is counted as unarmed, and nothing else is. -/
theorem unarmed_of_apply (h : w.apply op = .ok (answer, v)) :
    v.windower.tally.unarmed.toNat =
      w.windower.tally.unarmed.toNat + if answer.isDegraded then 1 else 0 := by
  cases apply_eq_ok h with
  | edge done =>
    obtain ⟨windower, hedge, rfl⟩ := edge_eq_ok done
    cases Windower.edge_eq_ok hedge with
    | degraded _ _ _ missed => exact missed
    | _ => rfl
  | poll done =>
    cases poll_eq_ok done with
    | quiet _ _ => rfl
    | expired asked _ => cases Windower.poll_eq_ok asked; rfl
  | takeJob done =>
    obtain ⟨-, cancelled, -, rfl⟩ := takeJob_eq_ok done
    rfl
  | settle done =>
    obtain ⟨delivered, -, -, -, rfl⟩ := settle_eq_ok done
    rfl
  | unreadable done =>
    obtain ⟨failed, -, rfl⟩ := unreadable_eq_ok done
    rfl
  | handled failure => rw [windower_handled]; rfl
  | disarm => rfl
  | takeUnreported => rfl
  | snapshot => rfl

/-! ## What operations say -/

/-- Whether an operation records that the line could not be read, or that it could. -/
def Op.readFailed? : Op → Option Bool
  | .settle .. => some false
  | .unreadable _ => some true
  | _ => none

/-- Whether an operation records that the handler failed, or that it did not. -/
def Op.handlingFailed? : Op → Option Bool
  | .handled failure => some failure.isSome
  | _ => none

/-- The message of the failure that an operation records. -/
def Op.failure? : Op → Option String
  | .unreadable message => some message
  | .handled failure => failure
  | _ => none

/-- The fault of failed readings is what the last record of a reading says. -/
theorem has_levelReadFailed_of_apply (h : w.apply op = .ok (answer, v)) :
    v.faults.active.has .levelReadFailed =
      op.readFailed?.getD (w.faults.active.has .levelReadFailed) := by
  rw [faults_of_apply h]
  cases op with
  | edge now armable =>
    by_cases hdegraded : answer.isDegraded = true <;>
      simp [Op.onFaults?, Op.readFailed?, FaultRecord.apply, hdegraded]
  | handled failure => cases failure <;> simp [Op.onFaults?, Op.readFailed?, FaultRecord.apply]
  | _ => simp [Op.onFaults?, Op.readFailed?, FaultRecord.apply]

/-- The fault of the handler is what the last record of its ending says. -/
theorem has_handlerFailed_of_apply (h : w.apply op = .ok (answer, v)) :
    v.faults.active.has .handlerFailed =
      op.handlingFailed?.getD (w.faults.active.has .handlerFailed) := by
  rw [faults_of_apply h]
  cases op with
  | edge now armable =>
    by_cases hdegraded : answer.isDegraded = true <;>
      simp [Op.onFaults?, Op.handlingFailed?, FaultRecord.apply, hdegraded]
  | handled failure =>
    cases failure <;> simp [Op.onFaults?, Op.handlingFailed?, FaultRecord.apply]
  | _ => simp [Op.onFaults?, Op.handlingFailed?, FaultRecord.apply]

/-- The message is that of the last failure. -/
theorem lastError_of_apply (h : w.apply op = .ok (answer, v)) :
    v.faults.lastError = (op.failure?.map .clip).getD w.faults.lastError := by
  rw [faults_of_apply h]
  cases op with
  | edge now armable =>
    by_cases hdegraded : answer.isDegraded = true <;>
      simp [Op.onFaults?, Op.failure?, FaultRecord.apply, hdegraded]
  | handled failure => cases failure <;> simp [Op.onFaults?, Op.failure?, FaultRecord.apply]
  | _ => simp [Op.onFaults?, Op.failure?, FaultRecord.apply]

/-- The timer's fault is raised by a degraded edge and stays. -/
theorem has_timerUnavailable_of_apply (h : w.apply op = .ok (answer, v)) :
    v.faults.active.has .timerUnavailable =
      (w.faults.active.has .timerUnavailable || answer.isDegraded) := by
  rw [faults_of_apply h]
  cases apply_eq_ok h with
  | @edge now armable answer v done =>
    by_cases hdegraded : (Answer.edge answer).isDegraded = true <;>
      simp [Op.onFaults?, FaultRecord.apply, hdegraded]
  | handled failure =>
    cases failure <;> simp [Op.onFaults?, FaultRecord.apply, Answer.isDegraded]
  | _ => simp [Op.onFaults?, FaultRecord.apply, Answer.isDegraded]

/-! ## Every history -/

section Histories

variable {source : UInt32} {length : Micros} {level : Bool} {ops : List Op} {answers : List Answer}

/-- The timer's fault is there just when edges could not be armed. -/
theorem has_timerUnavailable_of_run
    (h : run apply (new source length level) ops = .ok (answers, w)) :
    w.faults.active.has .timerUnavailable = true ↔ 0 < w.windower.tally.unarmed.toNat := by
  refine run_invariant (P := fun w =>
    w.faults.active.has .timerUnavailable = true ↔ 0 < w.windower.tally.unarmed.toNat) ?_ ?_ h
  · simp [new]
  · intro w op answer v hw hstep
    rw [has_timerUnavailable_of_apply hstep, unarmed_of_apply hstep, Bool.or_eq_true, hw]
    by_cases hdegraded : answer.isDegraded = true <;> simp [hdegraded]

/-- No bit is set but those of faults. -/
theorem plain_of_run (h : run apply (new source length level) ops = .ok (answers, w)) :
    w.faults.active.Plain := by
  refine run_invariant (P := fun w => w.faults.active.Plain) FaultSet.plain_none ?_ h
  intro w op answer v hw hstep
  rw [faults_of_apply hstep]
  exact FaultRecord.plain_after hw _

/-- The message is that of the last failure of the history. -/
theorem lastError_of_run (h : run apply (new source length level) ops = .ok (answers, w)) :
    w.faults.lastError =
      ((ops.filterMap Op.failure?).getLast?.map .clip).getD .empty := by
  rw [← List.getLast?_map, List.map_filterMap]
  exact run_latest (x := fun w => w.faults.lastError)
    (fun _ _ _ _ hstep => lastError_of_apply hstep) h

/-- **Faults are what the history says.** Whatever is done to a new watch, in any order: a snapshot
shows the timer's fault just when edges could not be armed, and that stays so; the fault of failed
readings just when the last record of a reading is a failure; the fault of the handler just when the
last record of how it ended is a failure. It shows no other bit, and the line is healthy just when
it has none of these faults. The message is the longest beginning of that of the last failure that
takes at most 64 bytes, is empty if there was no failure, and stays when an operation records none. -/
theorem faults_eq_history (h : run apply (new source length level) ops = .ok (answers, w)) :
    (w.snapshot.faults.has .timerUnavailable = true ↔ 0 < w.snapshot.tally.unarmed) ∧
      (w.snapshot.faults.has .levelReadFailed = true ↔
        (ops.filterMap Op.readFailed?).getLast? = some true) ∧
      (w.snapshot.faults.has .handlerFailed = true ↔
        (ops.filterMap Op.handlingFailed?).getLast? = some true) ∧
      w.snapshot.faults.bits &&& ~~~Fault.allMasks = 0 ∧
      (w.snapshot.healthy = true ↔ ∀ f, w.snapshot.faults.has f = false) ∧
      ((ops.filterMap Op.failure?).getLast? = none → w.snapshot.lastError.text = "") ∧
      (∀ message, (ops.filterMap Op.failure?).getLast? = some message →
        Text.Beginning message w.snapshot.lastError.text) ∧
      w.snapshot.lastError =
        ((ops.filterMap Op.failure?).getLast?.map .clip).getD .empty ∧
      ∀ op answer v, w.apply op = .ok (answer, v) →
        (w.snapshot.faults.has .timerUnavailable = true →
          v.snapshot.faults.has .timerUnavailable = true) ∧
        (op.failure? = none → v.snapshot.lastError = w.snapshot.lastError) := by
  have hlevel := run_latest (x := fun w => w.faults.active.has .levelReadFailed)
    (fun _ _ _ _ hstep => has_levelReadFailed_of_apply hstep) h
  have hhandler := run_latest (x := fun w => w.faults.active.has .handlerFailed)
    (fun _ _ _ _ hstep => has_handlerFailed_of_apply hstep) h
  have hplain := plain_of_run h
  have hmessage : w.snapshot.lastError = _ := lastError_of_run h
  refine ⟨?_, ?_, ?_, hplain, hplain.isEmpty_iff, ?_, ?_, hmessage, ?_⟩
  · rw [UInt64.lt_iff_toNat_lt]
    exact has_timerUnavailable_of_run h
  · change w.faults.active.has .levelReadFailed = true ↔ _
    rw [hlevel]
    cases (ops.filterMap Op.readFailed?).getLast? <;> simp [new]
  · change w.faults.active.has .handlerFailed = true ↔ _
    rw [hhandler]
    cases (ops.filterMap Op.handlingFailed?).getLast? <;> simp [new]
  · intro hnone
    rw [hmessage, hnone]
    rfl
  · intro message hlast
    rw [hmessage, hlast]
    exact Text.beginning_clip message
  · intro op answer v hstep
    refine ⟨fun hset => ?_, fun hsilent => ?_⟩
    · change v.faults.active.has .timerUnavailable = true
      rw [has_timerUnavailable_of_apply hstep, Bool.or_eq_true]
      exact .inl hset
    · change v.faults.lastError = w.faults.lastError
      rw [lastError_of_apply hstep, hsilent]
      rfl

/-- A reading fails and one does not, the handler fails last, with a message, and an edge comes
without a timer. -/
def mixedTroubles : List Op :=
  [.edge 0 true, .poll 10, .takeJob, .unreadable "no reading", .takeUnreported, .edge 20 true,
    .poll 30, .takeJob, .settle true ⟨20, 30, 1, 2⟩ 31, .handled (some "no handling"), .snapshot,
    .edge 40 false, .takeUnreported, .disarm]

/-- A message that has its sixty-fourth byte within a character. -/
def longTrouble : String := "the journal of this line cannot be written, as its disk has 0 € left"

/-- A short message is stored as a whole, and a long one up to the last character that fits. -/
theorem faults_eq_history_mixedTroubles :
    ∃ answers w answers' v, run apply (new 7 10 false) mixedTroubles = .ok (answers, w) ∧
      w.snapshot.faults.has .timerUnavailable = true ∧
      w.snapshot.faults.has .levelReadFailed = false ∧
      w.snapshot.faults.has .handlerFailed = true ∧ w.snapshot.healthy = false ∧
      w.snapshot.lastError.text = "no handling" ∧
      run apply (new 7 10 false) (mixedTroubles ++ [.handled (some longTrouble), .handled none]) =
        .ok (answers', v) ∧
      v.snapshot.faults.has .handlerFailed = false ∧
      v.snapshot.lastError.text =
        "the journal of this line cannot be written, as its disk has 0 " := by
  have hrun : (run apply (new 7 10 false) mixedTroubles).map
      (fun p => p.2.snapshot.tally.unarmed) = .ok 1 := rfl
  obtain ⟨⟨answers, w⟩, h, hunarmed⟩ := map_eq_ok_iff.mp hrun
  obtain ⟨htimer, hlevel, hhandler, -, hhealthy, -, hbegins, -⟩ := faults_eq_history h
  have hset : w.snapshot.faults.has .handlerFailed = true := hhandler.mpr rfl
  have h' : run apply (new 7 10 false)
      (mixedTroubles ++ [.handled (some longTrouble), .handled none]) = .ok (_, _) :=
    run_append_eq_ok_iff.mpr ⟨_, _, _, h, rfl, rfl⟩
  obtain ⟨-, -, hhandler', -, -, -, -, hmessage, -⟩ := faults_eq_history h'
  refine ⟨answers, w, _, _, h, htimer.mpr ?_, ?_, hset, ?_, ?_, h', ?_, ?_⟩
  · change w.snapshot.tally.unarmed = 1 at hunarmed
    rw [hunarmed]
    decide
  · rw [← Bool.not_eq_true, hlevel]
    decide
  · rw [← Bool.not_eq_true, hhealthy]
    intro hnone
    rw [hnone] at hset
    cases hset
  · exact (hbegins "no handling" rfl).whole (by decide)
  · rw [← Bool.not_eq_true, hhandler']
    decide
  · rw [hmessage]
    decide +kernel

end Histories

end Watch

end Settle
