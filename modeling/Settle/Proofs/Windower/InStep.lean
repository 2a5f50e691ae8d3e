import Settle.Proofs.Windower.Fields
import Settle.Proofs.Windower.Spacing

/-!
# The fields of a windower stay in step

On plain fields, nothing but the care of each operation keeps the fields of a window in step with the
phase. This file says what in step means (`Fields.InStep`) and that every run keeps it. That no
window leaves anything behind comes from the layout: each operation on plain fields leads to the
layout of a windower, in which there is nothing to leave behind. What an open window says of itself
comes from the windower's own invariants, `Shaped` and `Bounded`.

Then the windows are counted (`Opened`). Whichever way a window opens, it opens only when none is
open; so all windows but the last one were closed, and the only armed deadline is that of the open
window.

Main statement: `fields_in_step`.
-/

namespace Settle

/-- The deadline of the open window. -/
def Phase.deadline? : Phase → Option Instant
  | .pending _ deadline => some deadline
  | _ => none

namespace Windower

variable {length : Micros} {ops : List Op} {op : Op} {answers : List Answer} {answer : Answer}
  {w v : Windower} {f : Fields} {seen : List (Except Halt (Answer × Fields))}

/-! ## Fields in step with the phase -/

/-- The fields are in step with the phase. -/
structure Fields.InStep (length : Micros) (f : Fields) : Prop where
  /-- The length of windows never changes. -/
  sameLength : f.length = length
  /-- Without an open window there is nothing of a window. -/
  blank : f.phase = .idle ∨ f.phase = .disarmed → f.windowEdges = 0 ∧ f.carryOver = none
  /-- An open window has edges. -/
  filled : ∀ opened deadline, f.phase = .pending opened deadline → 1 ≤ f.windowEdges
  /-- It has the length of all windows, unless time ends before. -/
  deadline : ∀ opened deadline, f.phase = .pending opened deadline →
    deadline.toNat = min (opened.toNat + length.toNat) (UInt64.size - 1) ∧ opened ≤ deadline
  /-- What it carries are edges that came at or past its deadline. -/
  carried : ∀ opened deadline, f.phase = .pending opened deadline →
    ∀ c, f.carryOver = some c → 1 ≤ c.edges ∧ deadline ≤ c.first

/-- The length of windows never changes. -/
theorem ApplyCase.length_eq (h : ApplyCase w op answer v) : v.length = w.length := by
  cases h with
  | edge act => cases act <;> rfl
  | poll act => cases act <;> rfl
  | deliver _ _ => rfl
  | disarm => rfl

/-- No operation changes the length of windows. -/
theorem length_eq_of_run (h : run apply { length } ops = .ok (answers, w)) : w.length = length :=
  run_invariant (P := fun w => w.length = length) rfl
    (fun _ _ _ _ hm hstep => (apply_eq_ok hstep).length_eq.trans hm) h

/-- A windower is laid out in step. -/
theorem inStep_fields (shaped : w.Shaped) (bounded : w.Bounded) : w.fields.InStep w.length where
  sameLength := rfl
  blank hphase := by
    change w.phase = .idle ∨ w.phase = .disarmed at hphase
    unfold fields
    cases hact : w.activity with
    | collecting window =>
      rw [phase_of_collecting hact] at hphase
      exact hphase.elim Phase.noConfusion Phase.noConfusion
    | _ => exact ⟨rfl, rfl⟩
  filled opened deadline hphase := by
    obtain ⟨window, hact, rfl, rfl⟩ := exists_collecting_of_phase hphase
    simp only [fields, hact]
    exact UInt64.le_iff_toNat_le.mpr (bounded.filled window hact).edges
  deadline opened deadline hphase := by
    obtain ⟨window, hact, rfl, rfl⟩ := exists_collecting_of_phase hphase
    rw [(shaped window hact).deadline]
    exact ⟨Word.toNat_later _ _, Word.le_later _ _⟩
  carried opened deadline hphase c hc := by
    obtain ⟨window, hact, rfl, rfl⟩ := exists_collecting_of_phase hphase
    simp only [fields, hact] at hc
    exact ⟨UInt64.le_iff_toNat_le.mpr ((bounded.filled window hact).carried c hc),
      (shaped window hact).late c hc⟩

/-! ## Windows opened and deadlines armed -/

/-- The deadline of the window that an operation opens. An edge opens one if it says so, and a poll
does if a window is open after it has closed one. -/
def opening? : Answer × Fields → Option Instant
  | (.edge { outcome := .opened deadline, .. }, _) => some deadline
  | (.verdict (.expired _), f) => f.phase.deadline?
  | _ => none

/-- The deadlines of the windows that were ever opened, in order. -/
def openings (seen : List (Except Halt (Answer × Fields))) : List Instant := given opening? seen

/-- The armed deadlines after an operation: a report takes the deadline of its window away, the
teardown takes all, and a window that opens brings its own. -/
def armedAfter (armed : List Instant) (p : Answer × Fields) : List Instant :=
  (match p.1 with
    | .verdict (.expired report) => armed.erase report.deadline
    | .wasPending _ => []
    | _ => armed) ++ (opening? p).toList

/-- The deadlines that are armed after all that was seen. -/
def armed (seen : List (Except Halt (Answer × Fields))) : List Instant :=
  (given some seen).foldl armedAfter []

/-- One more operation adds the window that it opens. -/
theorem openings_concat (seen : List (Except Halt (Answer × Fields))) (p : Answer × Fields) :
    openings (seen ++ [.ok p]) = openings seen ++ (opening? p).toList :=
  given_concat _ _ _

/-- One more operation changes what is armed. -/
theorem armed_concat (seen : List (Except Halt (Answer × Fields))) (p : Answer × Fields) :
    armed (seen ++ [.ok p]) = armedAfter (armed seen) p := by
  rw [armed, given_concat, List.foldl_append]
  rfl

/-- How many windows are open or were given up by the teardown. -/
def unclosed (answers : List Answer) (f : Fields) : Nat :=
  if f.isPending ∨ .wasPending true ∈ answers then 1 else 0

/-- What was opened, what became of it, and what of it is still armed. -/
structure Opened (seen : List (Except Halt (Answer × Fields))) (answers : List Answer)
    (f : Fields) : Prop where
  /-- A window that was opened was closed, or is open, or was given up. -/
  count : (openings seen).length = f.tally.closed.toNat + unclosed answers f
  /-- Nothing follows a window that was given up. -/
  torn : .wasPending true ∈ answers → f.phase = .disarmed
  /-- The deadline of the open window is armed, and no other one. -/
  armed : armed seen = f.phase.deadline?.toList

/-- At first nothing was opened and nothing is armed. -/
theorem opened_nil (length : Micros) : Opened [] [] (fields { length }) :=
  ⟨rfl, fun h => absurd h List.not_mem_nil, rfl⟩

/-- While no window was given up, the open window is the only one that is not closed. -/
theorem unclosed_eq (h : .wasPending true ∉ answers) :
    unclosed answers f = f.phase.deadline?.toList.length := by
  unfold unclosed Fields.isPending
  cases f.phase <;> simp [h, Phase.deadline?]

/-- What neither opens nor closes a window changes nothing. -/
theorem Opened.still (h : Opened seen answers f) {g : Fields} (hphase : g.phase = f.phase)
    (hclosed : g.tally.closed = f.tally.closed) (hopening : opening? (answer, g) = none)
    (harmed : ∀ ds, armedAfter ds (answer, g) = ds) (hanswer : .wasPending true ∉ [answer]) :
    Opened (seen ++ [.ok (answer, g)]) (answers ++ [answer]) g where
  count := by
    have hmem : .wasPending true ∈ answers ++ [answer] ↔ .wasPending true ∈ answers := by
      rw [List.mem_append, or_iff_left hanswer]
    have hpending : g.isPending = f.isPending := by
      rw [Fields.isPending, Fields.isPending, hphase]
    have hsame : unclosed (answers ++ [answer]) g = unclosed answers f := by
      simp only [unclosed, hmem, hpending]
    rw [openings_concat, hopening, Option.toList_none, List.append_nil, hclosed, hsame]
    exact h.count
  torn hmem := by
    rw [List.mem_append, or_iff_left hanswer] at hmem
    rw [hphase]
    exact h.torn hmem
  armed := by rw [armed_concat, harmed, hphase, h.armed]

/-- Before the teardown, a window that opens is one more that was opened, and a window that closes is
one more that was closed. -/
theorem Opened.concat (h : Opened seen answers f) {g : Fields} (hactive : f.phase ≠ .disarmed)
    (hcount : f.tally.closed.toNat + f.phase.deadline?.toList.length +
      (opening? (answer, g)).toList.length =
        g.tally.closed.toNat + g.phase.deadline?.toList.length)
    (harmed : armedAfter f.phase.deadline?.toList (answer, g) = g.phase.deadline?.toList)
    (hanswer : .wasPending true ∉ [answer]) :
    Opened (seen ++ [.ok (answer, g)]) (answers ++ [answer]) g := by
  have hbefore : .wasPending true ∉ answers := fun hmem => hactive (h.torn hmem)
  have hafter : .wasPending true ∉ answers ++ [answer] := by
    rw [List.mem_append]
    exact not_or.mpr ⟨hbefore, hanswer⟩
  refine ⟨?_, fun hmem => absurd hmem hafter, ?_⟩
  · rw [openings_concat, List.length_append, h.count, unclosed_eq hbefore, unclosed_eq hafter,
      hcount]
  · rw [armed_concat, h.armed, harmed]

/-- An edge opens at most one window, and only when none is open. -/
theorem Opened.edge (h : Opened seen answers w.fields) {now : Instant} {armable : Bool}
    {answer : EdgeAnswer} (act : EdgeCase w now armable answer v) :
    Opened (seen ++ [.ok (.edge answer, v.fields)]) (answers ++ [.edge answer]) v.fields := by
  have hanswer : .wasPending true ∉ [Answer.edge answer] := by simp
  cases act with
  | ignored _ => exact h.still rfl rfl rfl List.append_nil hanswer
  | degraded _ _ _ _ => exact h.still rfl rfl rfl List.append_nil hanswer
  | absorbed collecting _ _ _ | carried collecting _ _ _ =>
    exact h.still (phase_of_collecting collecting).symm rfl rfl List.append_nil hanswer
  | opened idle _ _ =>
    have hphase : w.fields.phase = .idle := phase_eq_idle_iff.mpr idle
    refine h.concat ?_ ?_ ?_ hanswer
    · rw [hphase]
      exact Phase.noConfusion
    · rw [hphase]
      rfl
    · rw [hphase]
      rfl

/-- A poll closes a window and may open the next one. -/
theorem Opened.poll (h : Opened seen answers w.fields) {now : Instant} {verdict : Verdict}
    (act : PollCase w now verdict v) :
    Opened (seen ++ [.ok (.verdict verdict, v.fields)]) (answers ++ [.verdict verdict])
      v.fields := by
  have hanswer : .wasPending true ∉ [Answer.verdict verdict] := by simp
  cases act with
  | stop _ => exact h.still rfl rfl rfl List.append_nil hanswer
  | idle _ => exact h.still rfl rfl rfl List.append_nil hanswer
  | wait _ _ _ => exact h.still rfl rfl rfl List.append_nil hanswer
  | @expired window total closed collecting _ _ count =>
    have hphase : w.fields.phase = .pending window.opened window.deadline :=
      phase_of_collecting collecting
    refine h.concat ?_ ?_ ?_ hanswer
    · rw [hphase]
      exact Phase.noConfusion
    · rw [hphase]
      show w.tally.closed.toNat + 1 + _ = closed.toNat + _
      rw [count]
      rfl
    · rw [hphase]
      show [window.deadline].erase window.deadline ++ _ = _
      rw [List.erase_cons_head]
      rfl

/-- The teardown gives the open window up and takes its deadline away. -/
theorem Opened.disarm (h : Opened seen answers w.fields) :
    Opened (seen ++ [.ok (.wasPending w.isPending, w.disarm.2.fields)])
      (answers ++ [.wasPending w.isPending]) w.disarm.2.fields where
  count := by
    have hsame : unclosed (answers ++ [.wasPending w.isPending]) w.disarm.2.fields =
        unclosed answers w.fields := by
      have hafter : w.disarm.2.fields.isPending = false := rfl
      rw [unclosed, unclosed, hafter, isPending_fields]
      cases w.isPending <;> simp
    rw [openings_concat, hsame]
    exact (congrArg List.length (List.append_nil _)).trans h.count
  torn _ := rfl
  armed := armed_concat _ _

/-- Every operation keeps windows and deadlines in step. -/
theorem Opened.step (h : Opened seen answers w.fields) (hcase : ApplyCase w op answer v) :
    Opened (seen ++ [.ok (answer, v.fields)]) (answers ++ [answer]) v.fields := by
  cases hcase with
  | edge act => exact h.edge act
  | poll act => exact h.poll act
  | deliver _ _ => exact h.still rfl rfl rfl List.append_nil (by simp)
  | disarm => exact h.disarm

/-- Windows and deadlines are in step after every run. -/
theorem opened_of_run (h : run apply { length } ops = .ok (answers, w)) :
    Opened (trace Fields.apply (fields { length }) ops) answers w.fields := by
  refine run_induction (P := fun ops answers (w : Windower) =>
    Opened (trace Fields.apply (fields { length }) ops) answers w.fields) (opened_nil length) ?_ h
  intro ops answers m op answer v hrun hm hstep
  have hfields : m.fields.apply op = .ok (answer, v.fields) := by
    rw [apply_fields, hstep]
    rfl
  rw [trace_concat_of_run (run_fields_of_run hrun) hfields]
  exact hm.step (apply_eq_ok hstep)

/-! ## Every run -/

/-- **The fields stay in step.** On plain fields, every run is the run of the windower, laid out, and
halts where that one halts. After it nothing of a window is left where no window is open; an open
window has edges, the deadline that its opening and the length of windows give it, and has carried
only edges at or past that deadline. As many windows were opened, by edges and by carried edges, as
were closed and are open or were given up by a teardown; and the one deadline that is armed is that
of the open window. -/
theorem fields_in_step (length : Micros) (ops : List Op) :
    run Fields.apply { length } ops = seenFields <$> run apply { length } ops ∧
    ∀ answers f, run Fields.apply { length } ops = .ok (answers, f) →
      f.InStep length ∧
      (openings (trace Fields.apply { length } ops)).length =
        f.tally.closed.toNat + (if f.isPending ∨ .wasPending true ∈ answers then 1 else 0) ∧
      armed (trace Fields.apply { length } ops) = f.phase.deadline?.toList ∧
      (armed (trace Fields.apply { length } ops)).length ≤ 1 := by
  have hsame := run_fields { length } ops
  refine ⟨hsame, fun answers f hrun => ?_⟩
  obtain ⟨⟨answers', w⟩, h, hseen⟩ := map_eq_ok_iff.mp (hsame.symm.trans hrun)
  obtain ⟨rfl, rfl⟩ := Prod.mk.inj hseen
  have hopened := opened_of_run h
  rw [fields_new] at hopened
  have hstep := inStep_fields (shaped_of_run h) (bounded_of_run h)
  rw [length_eq_of_run h] at hstep
  refine ⟨hstep, hopened.count, hopened.armed, ?_⟩
  rw [hopened.armed]
  exact Option.length_toList_le

/-- A run whose timer fails at first. An edge close to the end of time is carried, and one from the
past after it; the window that they open has no room for its whole length. -/
def endOfTime : List Op :=
  [.edge 5 false, .edge 0 true, .edge 18446744073709551610 true, .edge 12 true, .deliver, .poll 13,
    .edge 7 false, .edge 18446744073709551615 true]

/-- Two windows were opened in this run, and the teardown gives up the second one with the edge that
it carries. -/
theorem fields_in_step_endOfTime :
    (∃ answers f, run Fields.apply { length := 10 } endOfTime = .ok (answers, f) ∧
      f.phase = .pending 18446744073709551610 18446744073709551615 ∧
      f.carryOver = some ⟨18446744073709551615, 1⟩ ∧ 1 ≤ f.windowEdges ∧
      (openings (trace Fields.apply { length := 10 } endOfTime)).length = 2 ∧
      armed (trace Fields.apply { length := 10 } endOfTime) = [18446744073709551615]) ∧
    ∃ answers f, run Fields.apply { length := 10 } (endOfTime ++ [.disarm]) = .ok (answers, f) ∧
      f.phase = .disarmed ∧ f.windowEdges = 0 ∧ f.carryOver = none ∧
      (openings (trace Fields.apply { length := 10 } (endOfTime ++ [.disarm]))).length = 2 ∧
      armed (trace Fields.apply { length := 10 } (endOfTime ++ [.disarm])) = [] := by
  constructor
  · have hrun : (run Fields.apply { length := 10 } endOfTime).map (fun p =>
        (p.2.phase, p.2.carryOver, p.2.tally.closed.toNat, p.2.isPending)) =
        .ok (.pending 18446744073709551610 18446744073709551615,
          some ⟨18446744073709551615, 1⟩, 1, true) := rfl
    obtain ⟨⟨answers, f⟩, h, hf⟩ := map_eq_ok_iff.mp hrun
    obtain ⟨hphase, hcarried, hclosed, hpending⟩ : _ ∧ _ ∧ _ ∧ _ := by
      simpa only [Prod.mk.injEq] using hf
    obtain ⟨hstep, hcount, harmed, -⟩ := (fields_in_step 10 endOfTime).2 answers f h
    rw [hphase] at harmed
    rw [hclosed, if_pos (.inl hpending)] at hcount
    exact ⟨answers, f, h, hphase, hcarried, hstep.filled _ _ hphase, hcount, harmed⟩
  · have hrun : (run Fields.apply { length := 10 } (endOfTime ++ [.disarm])).map (fun p =>
        (p.2.phase, p.2.tally.closed.toNat, p.1.getLast?)) =
        .ok (.disarmed, 1, some (.wasPending true)) := rfl
    obtain ⟨⟨answers, f⟩, h, hf⟩ := map_eq_ok_iff.mp hrun
    obtain ⟨hphase, hclosed, hlast⟩ : _ ∧ _ ∧ _ := by
      simpa only [Prod.mk.injEq] using hf
    obtain ⟨hstep, hcount, harmed, -⟩ := (fields_in_step 10 (endOfTime ++ [.disarm])).2 answers f h
    rw [hphase] at harmed
    rw [hclosed, if_pos (.inr (List.mem_of_getLast? hlast))] at hcount
    obtain ⟨hedges, hcarried⟩ := hstep.blank (.inr hphase)
    exact ⟨answers, f, h, hphase, hedges, hcarried, hcount, harmed⟩

end Windower

end Settle
