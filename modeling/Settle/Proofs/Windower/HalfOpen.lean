import Settle.Proofs.Windower.Ledger

/-!
# What the reports of a run mean

Windows are half-open: a window of length `length` that opens at `o` reaches from `o` up to, and not
including, `o + length`. This file says what that means for the reports of a run whose operations
come in the order of time, however late its polls are.

The reports tell the numbers of edges in their windows exactly when none of these was opened with a
belated edge among its carried ones (`edges_eq_count_iff`): all edges that are carried when a window
closes are counted in the next one, also those that lie past its end. If no edge is belated, the
reports are those of the reference windowing, which knows nothing of polls (`reports_eq_greedy`); so
it does not matter when the polls came.
-/

namespace Settle.Windower

variable {length : Micros} {ops : List Op} {answers : List Answer} {w : Windower}

/-- The edges of a run in the order of time are in the order of time. -/
theorem Clocked.edgeTimes_ordered (h : Clocked length ops) :
    (edgeTimes ops).Pairwise (· ≤ ·) := by
  have hordered := h.ordered
  rw [times, List.pairwise_filterMap] at hordered
  rw [edgeTimes, List.pairwise_filterMap]
  refine hordered.imp fun {x y} hxy t ht u hu => ?_
  cases x with
  | edge =>
    cases y with
    | edge => exact hxy t ht u hu
    | _ => cases hu
  | _ => cases ht

section Closed

variable {closed : List (List Nat)} {inside carried : List Nat}

/-- What is said of all reports without regard to their totals is said of all closed blocks. -/
theorem Ledger.forall_mem_reports_iff (h : Ledger length ops answers w closed inside carried)
    {P : Nat → Nat → Nat → Prop} :
    (∀ r ∈ reports answers, P r.opened.toNat r.deadline.toNat r.edges.toNat) ↔
      ∀ g ∈ closed, P (g.headD 0) (g.headD 0 + length.toNat) g.length := by
  rw [← Blocks.forall_mem_spans_iff 0, ← h.reported, List.forall_mem_map]
  exact Iff.rfl

/-- The closed blocks lie one past the window of the other. -/
theorem Ledger.past (h : Ledger length ops answers w closed inside carried) :
    closed.Pairwise (Blocks.Past length.toNat) :=
  (List.pairwise_append.mp h.grouped.past).1

/-- The edges that were not reported yet lie past the windows of all closed blocks. -/
theorem Ledger.past_rest (h : Ledger length ops answers w closed inside carried) :
    ∀ g ∈ closed, Blocks.Past length.toNat g (inside ++ carried) := by
  intro g hg o ho t ht
  have hall := (List.pairwise_append.mp h.grouped.past).2.2 g hg
  rcases List.mem_append.mp ht with ht | ht
  · exact hall inside List.mem_cons_self o ho t ht
  · exact hall carried (List.mem_cons_of_mem _ (List.mem_singleton_self _)) o ho t ht

/-- The edges of a run are those of the closed windows, of the open one and those that are carried.
-/
theorem Ledger.edgeTimes_eq (h : Ledger length ops answers w closed inside carried) :
    edgeTimes ops = closed.flatten ++ (inside ++ carried) := by
  rw [← h.grouped.flatten, List.flatten_append, List.flatten_cons, List.flatten_singleton]

/-- A closed block is late if it got a belated edge. -/
theorem Ledger.late_iff (h : Ledger length ops answers w closed inside carried)
    (hpositive : 0 < length.toNat) {g : List Nat} (hg : g ∈ closed) :
    Blocks.Late length.toNat g ↔ g.headD 0 ∈ belated { length } ops := by
  cases g with
  | nil => exact absurd hg h.nonempty
  | cons o os =>
    exact (h.grouped.mem_late_iff_late hpositive (List.mem_append_left _ hg) rfl).symm

end Closed

/-! ## The edges in a window -/

/-- **Half-open windows.** Each report tells the number of the run's edges in its window exactly
when no reported window was opened with a belated edge among its carried ones. -/
theorem edges_eq_count_iff (positive : 0 < length.toNat)
    (h : run apply { length } ops = .ok (answers, w)) (clocked : Clocked length ops) :
    (∀ r ∈ reports answers, r.edges.toNat =
        (edgeTimes ops).countP fun t => r.opened.toNat ≤ t ∧ t < r.deadline.toNat) ↔
      ∀ r ∈ reports answers, r.opened.toNat ∉ belated { length } ops := by
  obtain ⟨closed, inside, carried, hledger⟩ := exists_ledger positive h clocked
  have hedges := hledger.edgeTimes_eq
  have hsorted := clocked.edgeTimes_ordered
  rw [hedges, List.pairwise_append] at hsorted
  have hcounts := Blocks.counts_iff [] hledger.nonempty hsorted.1 hledger.past
    (fun _ _ _ _ _ ht => absurd ht List.not_mem_nil) hledger.past_rest
  rw [List.nil_append, ← hedges] at hcounts
  rw [hledger.forall_mem_reports_iff
      (P := fun o d e => e = (edgeTimes ops).countP fun t => decide (o ≤ t ∧ t < d)),
    hledger.forall_mem_reports_iff (P := fun o _ _ => o ∉ belated { length } ops)]
  calc (∀ g ∈ closed, g.length = (edgeTimes ops).countP
          fun t => decide (g.headD 0 ≤ t ∧ t < g.headD 0 + length.toNat))
      ↔ ∀ g ∈ closed, ¬ Blocks.Late length.toNat g := by
        rw [← hcounts]
        exact forall₂_congr fun g _ => eq_comm
    _ ↔ ∀ g ∈ closed, g.headD 0 ∉ belated { length } ops :=
        forall₂_congr fun g hg => not_congr (hledger.late_iff positive hg)

/-- The timer comes so late that a belated edge is carried into the window of the edge before it. -/
def lateTimer : List Op :=
  [.edge 0 true, .edge 12 true, .edge 30 true, .poll 31, .poll 31]

/-- The second report of this run tells two edges, of which one lies in its window. -/
theorem edges_ne_count_lateTimer :
    ∃ answers w, run apply { length := 10 } lateTimer = .ok (answers, w) ∧
      Clocked 10 lateTimer ∧ reports answers = [⟨0, 10, 1, 1⟩, ⟨12, 22, 2, 3⟩] ∧
      (edgeTimes lateTimer).countP (fun t => 12 ≤ t ∧ t < 22) = 1 := by
  have hrun : (run apply { length := 10 } lateTimer).map (fun p => reports p.1) =
      .ok [⟨0, 10, 1, 1⟩, ⟨12, 22, 2, 3⟩] := rfl
  obtain ⟨⟨answers, w⟩, h, hreports⟩ := map_eq_ok_iff.mp hrun
  exact ⟨answers, w, h, ⟨by decide, by decide, by decide⟩, hreports, by decide⟩

/-- A run with edges in, at the end of, and past windows that are still open. -/
def promptTimer : List Op :=
  [.edge 0 true, .edge 4 true, .edge 10 true, .edge 12 true, .poll 13, .edge 15 true, .edge 21 true,
    .poll 22, .poll 31, .poll 32]

/-- The reports of `promptTimer` count the edges of their windows, as no edge of it is belated. -/
theorem edges_eq_count_iff_promptTimer :
    ∃ answers w, run apply { length := 10 } promptTimer = .ok (answers, w) ∧
      reports answers = [⟨0, 10, 2, 2⟩, ⟨10, 20, 3, 5⟩, ⟨21, 31, 1, 6⟩] ∧
      ∀ r ∈ reports answers, r.edges.toNat =
        (edgeTimes promptTimer).countP fun t => r.opened.toNat ≤ t ∧ t < r.deadline.toNat := by
  have hrun : (run apply { length := 10 } promptTimer).map (fun p => reports p.1) =
      .ok [⟨0, 10, 2, 2⟩, ⟨10, 20, 3, 5⟩, ⟨21, 31, 1, 6⟩] := rfl
  obtain ⟨⟨answers, w⟩, h, hreports⟩ := map_eq_ok_iff.mp hrun
  have hprompt : belated { length := 10 } promptTimer = [] := rfl
  refine ⟨answers, w, h, hreports,
    (edges_eq_count_iff (by decide) h ⟨by decide, by decide, by decide⟩).mpr ?_⟩
  intro r _
  rw [hprompt]
  exact List.not_mem_nil

/-! ## The reference windowing -/

/-- The reports of the reference windowing, in natural numbers: the first instant opens a window,
which takes all that follow up to its end; the first one after them opens the next window, and so
on. -/
def greedy (length : Nat) (ts : List Nat) : List Span :=
  Blocks.spans length 0 (Blocks.cut length ts)

/-- A run of edges and polls in the order of time, in which no edge is belated, and which ends with
no window open. -/
structure PromptRun (length : Micros) (ops : List Op) (answers : List Answer) : Prop where
  runs : ∃ w, run apply { length } ops = .ok (answers, w) ∧ w.phase = .idle
  clocked : Clocked length ops
  prompt : belated { length } ops = []

/-- The closed blocks of a prompt run are all its blocks, and none of them is late. -/
theorem PromptRun.map_span_reports (h : PromptRun length ops answers)
    (positive : 0 < length.toNat) :
    (reports answers).map Report.span = greedy length.toNat (edgeTimes ops) := by
  obtain ⟨w, hrun, hidle⟩ := h.runs
  obtain ⟨closed, inside, carried, hledger⟩ := exists_ledger positive hrun h.clocked
  have hedges : edgeTimes ops = closed.flatten := by
    have hholds := hledger.holds
    rw [phase_eq_idle_iff.mp hidle] at hholds
    cases hholds with
    | idle => rw [hledger.edgeTimes_eq, List.append_nil, List.append_nil]
  have hprompt : ∀ g ∈ closed, ¬ Blocks.Late length.toNat g := by
    intro g hg hlate
    have hmem := (hledger.late_iff positive hg).mp hlate
    rw [h.prompt] at hmem
    exact List.not_mem_nil hmem
  rw [hledger.reported, greedy, hedges, Blocks.cut_flatten hledger.nonempty hledger.past hprompt]

/-- **The reference windowing.** If no edge is belated and the run ends with no window open, then
the reports of the run are those of the reference windowing of its edges, and every other such run
with the same edges has the same reports, whenever its polls come. -/
theorem reports_eq_greedy (positive : 0 < length.toNat) (h : PromptRun length ops answers) :
    (reports answers).map Report.span = greedy length.toNat (edgeTimes ops) ∧
      ∀ ops' answers', PromptRun length ops' answers' → edgeTimes ops' = edgeTimes ops →
        reports answers' = reports answers := by
  refine ⟨h.map_span_reports positive, fun ops' answers' h' hsame => ?_⟩
  have hspans : (reports answers').map Report.span = (reports answers).map Report.span := by
    rw [h'.map_span_reports positive, h.map_span_reports positive, hsame]
  exact (List.map_inj_right fun _ _ => Report.span_inj.mp).mp hspans

/-- The windows of `promptTimer` are those of the greedy windowing. -/
theorem reports_eq_greedy_promptTimer :
    ∃ answers, PromptRun 10 promptTimer answers ∧
      (reports answers).map Report.span = greedy 10 [0, 4, 10, 12, 15, 21] := by
  have hrun : (run apply { length := 10 } promptTimer).map (fun p => p.2.phase) = .ok .idle := rfl
  obtain ⟨⟨answers, w⟩, h, hidle⟩ := map_eq_ok_iff.mp hrun
  have hprompt : PromptRun 10 promptTimer answers :=
    ⟨⟨w, h, hidle⟩, ⟨by decide, by decide, by decide⟩, rfl⟩
  exact ⟨answers, hprompt, (reports_eq_greedy (by decide) hprompt).1⟩

end Settle.Windower
