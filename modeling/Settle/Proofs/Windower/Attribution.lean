import Mathlib.Data.List.DropRight
import Settle.Proofs.Windower.Bounds
import Settle.Proofs.Windower.Ledger

/-!
# Which report an edge is counted in

An edge that opened a window or was absorbed by one is counted in the next report, and an edge that
was carried is counted in the report after the next one. So the edges in the open window are those
that joined it since the last report, together with those that were carried between the last two
reports; and the edges that are carried now were carried since the last report (`Attributed`).
Nothing here depends on time: the instants of edges and polls may come in any order.

It follows that no edge is lost and none is counted twice. Every edge is in one report, or no window
could be opened for it, or it is still in hand; the teardown gives up those in hand and no others.

Main statement: `edges_attributed`.
-/

namespace Settle.Windower

variable {length : Micros} {ops : List Op} {op : Op} {answers : List Answer} {answer : Answer}
  {w v : Windower}

/-! ## What an answer says about an edge -/

/-- Whether an edge was counted. -/
def Answer.accepts : Answer → Bool
  | .edge answer => answer.outcome != .ignored
  | _ => false

/-- Whether an edge was counted in the window that was open after it. -/
def Answer.joins : Answer → Bool
  | .edge { outcome := .opened _, .. } => true
  | .edge { outcome := .absorbed, .. } => true
  | _ => false

/-- Whether an edge was carried. -/
def Answer.carries : Answer → Bool
  | .edge { outcome := .carried, .. } => true
  | _ => false

/-- Whether no window could be opened for an edge. -/
def Answer.degrades : Answer → Bool
  | .edge { outcome := .degraded, .. } => true
  | _ => false

/-- The edges that reports tell of. -/
def reportedEdges (answers : List Answer) : Nat :=
  (reports answers).foldl (fun n r => n + r.edges.toNat) 0

/-- One more report adds its edges. -/
theorem reportedEdges_concat (answers : List Answer) (answer : Answer) :
    reportedEdges (answers ++ [answer]) =
      reportedEdges answers + (answer.report?.elim 0 fun r => r.edges.toNat) := by
  rw [reportedEdges, reports_concat, List.foldl_append]
  cases answer.report? <;> rfl

/-! ## Answers between reports -/

/-- The answers since the last report. -/
def sinceReport (answers : List Answer) : List Answer :=
  answers.rtakeWhile fun answer => answer.report?.isNone

/-- The answers before the last report and since the one before it. -/
def beforeReport (answers : List Answer) : List Answer :=
  sinceReport (answers.rdropWhile fun answer => answer.report?.isNone).dropLast

/-- Another answer is one more since the last report. -/
theorem sinceReport_concat_of_none (h : answer.report? = none) :
    sinceReport (answers ++ [answer]) = sinceReport answers ++ [answer] :=
  List.rtakeWhile_concat_pos _ _ _ (by rw [h]; rfl)

/-- It does not change what came before that report. -/
theorem beforeReport_concat_of_none (h : answer.report? = none) :
    beforeReport (answers ++ [answer]) = beforeReport answers := by
  rw [beforeReport, List.rdropWhile_concat_pos _ _ _ (by rw [h]; rfl), beforeReport]

/-- Nothing has come yet since a report that was just made. -/
theorem sinceReport_concat_of_some {report : Report} (h : answer.report? = some report) :
    sinceReport (answers ++ [answer]) = [] :=
  List.rtakeWhile_concat_neg _ _ _ (by rw [h]; exact Bool.false_ne_true)

/-- Before it came what was there since the report before. -/
theorem beforeReport_concat_of_some {report : Report} (h : answer.report? = some report) :
    beforeReport (answers ++ [answer]) = sinceReport answers := by
  rw [beforeReport, List.rdropWhile_concat_neg _ _ _ (by rw [h]; exact Bool.false_ne_true),
    List.dropLast_concat]

/-! ## The invariant -/

/-- Where the edges of a run are. -/
structure Attributed (answers : List Answer) (w : Windower) : Prop where
  /-- Every accepted edge is counted. -/
  accepted : w.tally.edges.toNat = answers.countP Answer.accepts
  /-- So is every edge for which no window could be opened. -/
  unarmed : w.tally.unarmed.toNat = answers.countP Answer.degrades
  /-- An edge is in a report, without a window, or in hand. -/
  conserved : w.tally.edges.toNat =
    reportedEdges answers + w.tally.unarmed.toNat + w.insideEdges + w.carriedEdges
  /-- The open window has the edges that joined it and those that were carried into it. -/
  inside : w.insideEdges =
    (sinceReport answers).countP Answer.joins + (beforeReport answers).countP Answer.carries
  /-- The edges that are carried were carried since the last report. -/
  carried : w.carriedEdges = (sinceReport answers).countP Answer.carries

/-- A new windower has no edges. -/
theorem attributed_new (length : Micros) : Attributed [] { length } := ⟨rfl, rfl, rfl, rfl, rfl⟩

/-- What an answer other than a report changes, it changes in the last stretch. -/
theorem Attributed.concat (h : Attributed answers w) (hnone : answer.report? = none)
    (haccepts : v.tally.edges.toNat = w.tally.edges.toNat + [answer].countP Answer.accepts)
    (hdegrades : v.tally.unarmed.toNat = w.tally.unarmed.toNat + [answer].countP Answer.degrades)
    (hjoins : v.insideEdges = w.insideEdges + [answer].countP Answer.joins)
    (hcarries : v.carriedEdges = w.carriedEdges + [answer].countP Answer.carries)
    (hplace : [answer].countP Answer.accepts = [answer].countP Answer.degrades +
      [answer].countP Answer.joins + [answer].countP Answer.carries) :
    Attributed (answers ++ [answer]) v where
  accepted := by rw [haccepts, h.accepted, List.countP_append]
  unarmed := by rw [hdegrades, h.unarmed, List.countP_append]
  conserved := by
    have hconserved := h.conserved
    rw [reportedEdges_concat, hnone, Option.elim_none]
    omega
  inside := by
    have hinside := h.inside
    rw [sinceReport_concat_of_none hnone, beforeReport_concat_of_none hnone, List.countP_append]
    omega
  carried := by
    rw [sinceReport_concat_of_none hnone, List.countP_append, hcarries, h.carried]

/-- An edge opens a window, joins the open one, is carried, or is left without a window. -/
theorem Attributed.edge (h : Attributed answers w) {now : Instant} {armable : Bool}
    {answer : EdgeAnswer} (hcase : EdgeCase w now armable answer v) :
    Attributed (answers ++ [.edge answer]) v := by
  cases hcase with
  | ignored _ => exact h.concat rfl rfl rfl rfl rfl rfl
  | opened idle _ count =>
    exact h.concat rfl count rfl (by rw [insideEdges_of_idle idle]; rfl)
      (by rw [carriedEdges_of_idle idle]; rfl) rfl
  | degraded idle _ count missed => exact h.concat rfl count missed rfl rfl rfl
  | absorbed collecting _ count more =>
    exact h.concat rfl count rfl (by rw [insideEdges_of_collecting collecting]; exact more)
      (by rw [carriedEdges_of_collecting collecting]; rfl) rfl
  | carried collecting _ count more =>
    exact h.concat rfl count rfl (by rw [insideEdges_of_collecting collecting]; rfl)
      (by rw [carriedEdges_of_collecting collecting]; exact more) rfl

/-- The report of the open window tells of the edges in it, and its total leaves out the carried
ones. -/
theorem Attributed.report_eq (h : Attributed answers w) {window : OpenWindow} {total : Count}
    (collecting : w.activity = .collecting window)
    (before : total.toNat + window.carriedEdges.toNat = w.tally.edges.toNat) :
    (report window total).edges.toNat = (sinceReport answers).countP Answer.joins +
        (beforeReport answers).countP Answer.carries ∧
      (report window total).total.toNat = reportedEdges answers +
        (report window total).edges.toNat + w.tally.unarmed.toNat := by
  have hconserved := h.conserved
  rw [insideEdges_of_collecting collecting, carriedEdges_of_collecting collecting] at hconserved
  refine ⟨?_, ?_⟩
  · rw [← h.inside, insideEdges_of_collecting collecting]
    rfl
  · show total.toNat = reportedEdges answers + window.edges.toNat + w.tally.unarmed.toNat
    omega

/-- A report ends a stretch of answers, and the carried edges go into the next window. -/
theorem Attributed.poll (h : Attributed answers w) {now : Instant} {verdict : Verdict}
    (hcase : PollCase w now verdict v) : Attributed (answers ++ [.verdict verdict]) v := by
  cases hcase with
  | stop _ => exact h.concat rfl rfl rfl rfl rfl rfl
  | idle _ => exact h.concat rfl rfl rfl rfl rfl rfl
  | wait _ _ _ => exact h.concat rfl rfl rfl rfl rfl rfl
  | @expired window total closed collecting _ _ _ =>
    have hconserved := h.conserved
    have hcarried := h.carried
    rw [insideEdges_of_collecting collecting] at hconserved
    rw [carriedEdges_of_collecting collecting] at hconserved hcarried
    have hreport : (Answer.verdict (.expired (report window total))).report? =
      some (report window total) := rfl
    refine ⟨?_, ?_, ?_, ?_, ?_⟩
    · rw [List.countP_append]
      exact h.accepted
    · rw [List.countP_append]
      exact h.unarmed
    · rw [reportedEdges_concat, hreport, Option.elim_some, insideEdges_next rfl,
        carriedEdges_next rfl]
      show w.tally.edges.toNat = reportedEdges answers + window.edges.toNat +
        w.tally.unarmed.toNat + window.carriedEdges.toNat + 0
      omega
    · rw [sinceReport_concat_of_some hreport, beforeReport_concat_of_some hreport,
        insideEdges_next rfl, ← hcarried, List.countP_nil, Nat.zero_add]
    · rw [sinceReport_concat_of_some hreport, carriedEdges_next rfl, List.countP_nil]

/-- Every operation but the teardown keeps account of where the edges are. -/
theorem Attributed.step (h : Attributed answers w) (hop : op ≠ .disarm)
    (hstep : w.apply op = .ok (answer, v)) : Attributed (answers ++ [answer]) v := by
  cases apply_eq_ok hstep with
  | edge act => exact h.edge act
  | poll act => exact h.poll act
  | deliver _ _ => exact h.concat rfl rfl rfl rfl rfl rfl
  | disarm => exact absurd rfl hop

/-- The edges are attributed after every run without a teardown. -/
theorem attributed_of_run (hops : ∀ op ∈ ops, op ≠ .disarm)
    (h : run apply { length } ops = .ok (answers, w)) : Attributed answers w := by
  refine run_induction (P := fun ops answers w => (∀ op ∈ ops, op ≠ .disarm) → Attributed answers w)
    (fun _ => attributed_new length) ?_ h hops
  intro ops answers w op answer v _ ih hstep hops
  rw [List.forall_mem_append] at hops
  exact (ih hops.1).step (hops.2 op (List.mem_singleton_self op)) hstep

/-! ## Runs of edges and polls -/

/-- Every operation keeps the counts bounded. -/
theorem Bounded.step (h : w.Bounded) (hstep : w.apply op = .ok (answer, v)) : v.Bounded := by
  cases apply_eq_ok hstep with
  | edge act => exact h.edge act
  | poll act => exact h.poll act
  | deliver _ _ => exact h.of_eq rfl rfl rfl rfl
  | disarm => exact h.disarm

/-- The counts are bounded after every run. -/
theorem bounded_of_run (h : run apply { length } ops = .ok (answers, w)) : w.Bounded :=
  run_invariant (bounded_new length) (fun _ _ _ _ hm hstep => hm.step hstep) h

/-- No more edges are counted than there are. -/
theorem edges_le_of_run (h : run apply { length } ops = .ok (answers, w)) :
    w.tally.edges.toNat ≤ (edgeTimes ops).length := by
  refine run_induction (P := fun ops _ w => w.tally.edges.toNat ≤ (edgeTimes ops).length)
    (Nat.zero_le 0) ?_ h
  intro ops answers w op answer v _ ih hstep
  rw [edgeTimes_concat, List.length_append]
  cases apply_eq_ok hstep with
  | edge act => exact act.edges_le.trans (Nat.add_le_add_right ih 1)
  | poll act => cases act <;> exact ih
  | deliver _ _ => exact ih
  | disarm => exact ih

/-- Edges and polls do not halt as long as there is a word for the number of edges. -/
theorem exists_run (timed : ∀ op ∈ ops, op.time?.isSome)
    (few : (edgeTimes ops).length < UInt64.size) :
    ∃ answers w, run apply { length } ops = .ok (answers, w) := by
  induction ops using List.reverseRecOn with
  | nil => exact ⟨[], { length }, rfl⟩
  | append_singleton ops op ih =>
    rw [List.forall_mem_append] at timed
    rw [edgeTimes_concat, List.length_append] at few
    obtain ⟨answers, w, hrun⟩ := ih timed.1 (by omega)
    have hbounded := bounded_of_run hrun
    have hedges := edges_le_of_run hrun
    have hstep : ∃ p, w.apply op = .ok p := by
      cases op with
      | edge now armable =>
        obtain ⟨answer, v, hedge⟩ := hbounded.exists_edge now armable
          (by simp only [Op.edgeTime?, Option.toList_some, List.length_singleton] at few; omega)
        exact ⟨_, bind_eq_ok_iff.mpr ⟨_, hedge, rfl⟩⟩
      | poll now =>
        obtain ⟨verdict, v, hpoll⟩ := hbounded.exists_poll now
        exact ⟨_, bind_eq_ok_iff.mpr ⟨_, hpoll, rfl⟩⟩
      | deliver => exact nomatch timed.2 _ (List.mem_singleton_self _)
      | disarm => exact nomatch timed.2 _ (List.mem_singleton_self _)
    obtain ⟨⟨answer, v⟩, hstep⟩ := hstep
    exact ⟨_, _, run_concat_eq_ok_iff.mpr ⟨answers, w, answer, hrun, hstep, rfl⟩⟩

/-- **Every edge is in one report.** In a run of edges and polls, a report tells of the edges that
opened or joined a window since the report before it, and of those that were carried before that
one; its total is the sum of all reports so far and of the edges for which no window could be
opened by then. At the end of the run the accepted edges are those that were reported, those without
a window, and those in hand; the teardown gives up the edges in hand and changes no count. -/
theorem edges_attributed (length : Micros) (timed : ∀ op ∈ ops, op.time?.isSome)
    (few : (edgeTimes ops).length < UInt64.size) :
    ∃ answers w, run apply { length } ops = .ok (answers, w) ∧
      (∀ before report after, answers = before ++ .verdict (.expired report) :: after →
        ∃ m, run apply { length } (ops.take before.length) = .ok (before, m) ∧
          report.edges.toNat = (sinceReport before).countP Answer.joins +
            (beforeReport before).countP Answer.carries ∧
          report.total.toNat =
            reportedEdges before + report.edges.toNat + m.tally.unarmed.toNat) ∧
      w.tally.edges.toNat = answers.countP Answer.accepts ∧
      w.tally.unarmed.toNat = answers.countP Answer.degrades ∧
      w.tally.edges.toNat =
        reportedEdges answers + w.tally.unarmed.toNat + w.insideEdges + w.carriedEdges ∧
      w.disarm.2.tally = w.tally ∧ w.disarm.2.insideEdges = 0 ∧ w.disarm.2.carriedEdges = 0 := by
  have hops : ∀ op ∈ ops, op ≠ .disarm := by
    rintro op hop rfl
    exact nomatch timed _ hop
  obtain ⟨answers, w, h⟩ := exists_run timed few
  have hw := attributed_of_run hops h
  refine ⟨answers, w, h, ?_, hw.accepted, hw.unarmed, hw.conserved, rfl, rfl, rfl⟩
  intro before report after heq
  subst heq
  obtain ⟨m, op, v, hbefore, hstep⟩ := exists_step_of_run h
  have hm := attributed_of_run (fun op hop => hops op (List.mem_of_mem_take hop)) hbefore
  refine ⟨m, hbefore, ?_⟩
  cases apply_eq_ok hstep with
  | poll act =>
    cases act with
    | expired collecting _ total _ => exact hm.report_eq collecting total

/-- A run in which the timer fails at first, then comes late, so that edges are carried twice. -/
def unruly : List Op :=
  [.edge 5 false, .edge 0 true, .edge 4 true, .edge 12 true, .edge 30 true, .poll 31, .edge 13 true,
    .edge 50 true, .poll 40, .edge 3 false, .edge 61 true, .poll 60]

/-- The reports of `unruly`, the edge left in hand and the sum of all edges. -/
theorem edges_attributed_unruly :
    (∀ op ∈ unruly, op.time?.isSome) ∧ (edgeTimes unruly).length < UInt64.size ∧
      ∃ answers w, run apply { length := 10 } unruly = .ok (answers, w) ∧
        reports answers = [⟨0, 10, 2, 3⟩, ⟨12, 22, 3, 6⟩, ⟨50, 60, 2, 8⟩] ∧
        w.tally.edges.toNat = 9 ∧ w.tally.unarmed.toNat = 1 ∧ w.insideEdges = 1 ∧
        w.tally.edges.toNat =
          reportedEdges answers + w.tally.unarmed.toNat + w.insideEdges + w.carriedEdges := by
  have htimed : ∀ op ∈ unruly, op.time?.isSome := by decide
  have hfew : (edgeTimes unruly).length < UInt64.size := by decide
  have hrun : (run apply { length := 10 } unruly).map (fun p => (reports p.1,
      p.2.tally.edges.toNat, p.2.tally.unarmed.toNat, p.2.insideEdges)) =
      .ok ([⟨0, 10, 2, 3⟩, ⟨12, 22, 3, 6⟩, ⟨50, 60, 2, 8⟩], 9, 1, 1) := rfl
  obtain ⟨answers, w, h, -, -, -, hconserved, -⟩ := edges_attributed 10 htimed hfew
  rw [h] at hrun
  simp only [Except.map, Except.ok.injEq, Prod.mk.injEq] at hrun
  exact ⟨htimed, hfew, answers, w, h, hrun.1, hrun.2.1, hrun.2.2.1, hrun.2.2.2, hconserved⟩

end Settle.Windower
