import Settle.Proofs.Windower.Attribution

/-!
# The gaps between edges

A windower keeps the shortest and the longest gap between two edges in a row, and the instant of the
last edge. It looks at no window for that: an edge that is counted is measured before anything else
is done with it, whether it then opens a window, joins one, is carried or finds no timer
(`exists_accept_of_edge`). So the three depend on the accepted stamps alone, in the order in
which they came.

Stamps may be equal or go backwards. Then there is no gap, and the next one is measured from the
later edge all the same; `gaps` is the list of all gaps that there are.

Main statement: `gaps_exact`.
-/

namespace Settle.Windower

variable {length : Micros} {ops : List Op} {op : Op} {answers : List Answer} {answer : Answer}
  {w v : Windower} {now : Instant} {armable : Bool} {ts : List Nat}

/-! ## Stamps and gaps -/

/-- The stamps of the edges that were accepted. -/
def acceptedTimes (ops : List Op) (answers : List Answer) : List Nat :=
  (ops.zip answers).filterMap fun p => if p.2.accepts then p.1.edgeTime? else none

/-- One more edge adds its stamp if it is accepted. -/
theorem acceptedTimes_concat (h : ops.length = answers.length) (op : Op) (answer : Answer) :
    acceptedTimes (ops ++ [op]) (answers ++ [answer]) =
      acceptedTimes ops answers ++ (if answer.accepts then op.edgeTime? else none).toList := by
  rw [acceptedTimes, List.zip_append h]
  exact filterMap_concat _ _ _

/-- How much later each instant is than the one before it, where it is later. -/
def gaps (ts : List Nat) : List Nat :=
  (List.zipWith (fun s t => t - s) ts ts.tail).filter (0 < ·)

/-- One more instant makes one more gap, if it is later than the last one. -/
theorem gaps_concat (ts : List Nat) (t : Nat) :
    gaps (ts ++ [t]) = gaps ts ++ (ts.getLast?.map fun s => t - s).toList.filter (0 < ·) := by
  unfold gaps
  rw [← List.filter_append]
  congr 1
  induction ts with
  | nil => rfl
  | cons s ts ih =>
    cases ts with
    | nil => rfl
    | cons s' ts =>
      rw [List.getLast?_cons_cons]
      simpa using ih

/-! ## The least and the greatest of several -/

/-- The smallest number of a longer list is the smaller of two. -/
theorem min?_concat (xs : List Nat) (x : Nat) :
    (xs ++ [x]).min? = some (xs.min?.elim x fun m => min m x) := by
  cases xs with
  | nil => rfl
  | cons y ys =>
    rw [List.cons_append, List.min?_cons', List.min?_cons', List.foldl_concat, Option.elim_some]

/-- The largest number of a longer list is the larger of two. -/
theorem max?_concat (xs : List Nat) (x : Nat) :
    (xs ++ [x]).max? = some (xs.max?.elim x fun m => max m x) := by
  cases xs with
  | nil => rfl
  | cons y ys =>
    rw [List.cons_append, List.max?_cons', List.max?_cons', List.foldl_concat, Option.elim_some]

/-! ## What an edge is measured by -/

/-- An edge that is not ignored is measured like one that is merely counted. -/
theorem exists_accept_of_edge {answer : EdgeAnswer} (h : w.edge now armable = .ok (answer, v))
    (active : w.activity ≠ .disarmed) :
    ∃ u, w.accept now = .ok u ∧ v.lastEdge = u.lastEdge ∧
      v.tally.shortestGap = u.tally.shortestGap ∧ v.tally.longestGap = u.tally.longestGap := by
  unfold edge at h
  split at h
  · next torn => exact absurd torn active
  · obtain ⟨u, haccept, h⟩ := bind_eq_ok_iff.mp h
    refine ⟨u, haccept, ?_⟩
    unfold start at h
    split at h
    · rw [pure_eq_ok_iff, Prod.mk.injEq] at h
      obtain ⟨-, rfl⟩ := h
      exact ⟨rfl, rfl, rfl⟩
    · obtain ⟨unarmed, -, h⟩ := bind_eq_ok_iff.mp h
      rw [pure_eq_ok_iff, Prod.mk.injEq] at h
      obtain ⟨-, rfl⟩ := h
      exact ⟨rfl, rfl, rfl⟩
  · obtain ⟨u, haccept, h⟩ := bind_eq_ok_iff.mp h
    obtain ⟨⟨outcome, window⟩, -, h⟩ := bind_eq_ok_iff.mp h
    rw [pure_eq_ok_iff, Prod.mk.injEq] at h
    obtain ⟨-, rfl⟩ := h
    exact ⟨u, haccept, rfl, rfl, rfl⟩

/-! ## The invariant -/

/-- What a windower keeps of the stamps that were accepted. -/
structure Spread (ts : List Nat) (w : Windower) : Prop where
  shortest : w.tally.shortestGap.map UInt64.toNat = (gaps ts).min?
  longest : w.tally.longestGap.map UInt64.toNat = (gaps ts).max?
  last : w.lastEdge.map UInt64.toNat = ts.getLast?

/-- A new windower has seen no stamps. -/
theorem spread_new (length : Micros) : Spread [] { length } := ⟨rfl, rfl, rfl⟩

/-- The stamps are kept by the last edge and the two gaps alone. -/
theorem Spread.of_eq (hs : Spread ts w) (hlast : v.lastEdge = w.lastEdge)
    (hshortest : v.tally.shortestGap = w.tally.shortestGap)
    (hlongest : v.tally.longestGap = w.tally.longestGap) : Spread ts v where
  shortest := hshortest ▸ hs.shortest
  longest := hlongest ▸ hs.longest
  last := hlast ▸ hs.last

/-- A gap that is noted is one more gap, unless it is none. -/
theorem noteGap_eq {t : Tally} {gs : List Nat} (hshortest : t.shortestGap.map UInt64.toNat = gs.min?)
    (hlongest : t.longestGap.map UInt64.toNat = gs.max?) (gap : Micros) :
    (t.noteGap gap).shortestGap.map UInt64.toNat = (gs ++ [gap.toNat].filter (0 < ·)).min? ∧
      (t.noteGap gap).longestGap.map UInt64.toNat = (gs ++ [gap.toNat].filter (0 < ·)).max? := by
  have hpos : 0 < gap ↔ 0 < gap.toNat := UInt64.lt_iff_toNat_lt
  unfold Tally.noteGap
  split
  · next hgap =>
    have hmore : [gap.toNat].filter (0 < ·) = [gap.toNat] := by simpa using hpos.mp hgap
    rw [hmore, min?_concat, max?_concat, ← hshortest, ← hlongest]
    constructor
    · unfold Tally.least
      cases t.shortestGap <;> simp [UInt64.toNat_min]
    · unfold Tally.greatest
      cases t.longestGap <;> simp [UInt64.toNat_max]
  · next hgap =>
    have hnone : [gap.toNat].filter (0 < ·) = [] := by simpa using mt hpos.mpr hgap
    rw [hnone, List.append_nil]
    exact ⟨hshortest, hlongest⟩

/-- An edge that is counted is the last one, and is measured from the one before it. -/
theorem Spread.accept (hs : Spread ts w) (h : w.accept now = .ok v) :
    Spread (ts ++ [now.toNat]) v := by
  obtain ⟨edges, -, h⟩ := bind_eq_ok_iff.mp h
  rw [pure_eq_ok_iff] at h
  subst h
  have hlast := hs.last
  cases hbefore : w.lastEdge with
  | none =>
    -- The first edge has nothing before it.
    rw [hbefore, Option.map_none] at hlast
    have hgaps : gaps (ts ++ [now.toNat]) = gaps ts := by
      rw [gaps_concat, ← hlast, Option.map_none, Option.toList_none, List.filter_nil,
        List.append_nil]
    exact ⟨hgaps ▸ hs.shortest, hgaps ▸ hs.longest, List.getLast?_concat.symm⟩
  | some before =>
    rw [hbefore, Option.map_some] at hlast
    have hgaps : gaps (ts ++ [now.toNat]) =
        gaps ts ++ [(Word.since now before).toNat].filter (0 < ·) := by
      rw [gaps_concat, ← hlast, Option.map_some, Option.toList_some, Word.toNat_since]
    obtain ⟨hshortest, hlongest⟩ := noteGap_eq (t := { w.tally with edges }) hs.shortest hs.longest
      (Word.since now before)
    exact ⟨hgaps ▸ hshortest, hgaps ▸ hlongest, List.getLast?_concat.symm⟩

/-- The stamp of an edge is taken into account just when the edge is accepted. -/
theorem Spread.edge (hs : Spread ts w) {answer : EdgeAnswer}
    (h : w.edge now armable = .ok (answer, v)) :
    Spread (ts ++ (if answer.outcome ≠ .ignored then [now.toNat] else [])) v := by
  by_cases torn : w.activity = .disarmed
  · rw [edge_of_disarmed w now armable torn] at h
    cases h
    rwa [if_neg (not_not_intro rfl), List.append_nil]
  · obtain ⟨u, haccept, hlast, hshortest, hlongest⟩ := exists_accept_of_edge h torn
    rw [if_pos (mt (edge_eq_ok h).ignored_iff.mp torn)]
    exact (hs.accept haccept).of_eq hlast hshortest hlongest

/-- What is no edge is not measured. -/
theorem ApplyCase.measured_eq (h : ApplyCase w op answer v) (hop : op.edgeTime? = none) :
    v.lastEdge = w.lastEdge ∧ v.tally.shortestGap = w.tally.shortestGap ∧
      v.tally.longestGap = w.tally.longestGap := by
  cases h with
  | edge act => exact nomatch hop
  | poll act => cases act <;> exact ⟨rfl, rfl, rfl⟩
  | deliver _ _ => exact ⟨rfl, rfl, rfl⟩
  | disarm => exact ⟨rfl, rfl, rfl⟩

/-- Every operation keeps them. -/
theorem Spread.step (hs : Spread ts w) (h : w.apply op = .ok (answer, v)) :
    Spread (ts ++ (if answer.accepts then op.edgeTime? else none).toList) v := by
  cases hop : op.edgeTime? with
  | none =>
    obtain ⟨hlast, hshortest, hlongest⟩ := (apply_eq_ok h).measured_eq hop
    rw [ite_self, Option.toList_none, List.append_nil]
    exact hs.of_eq hlast hshortest hlongest
  | some t =>
    obtain ⟨now, armable, rfl, rfl⟩ : ∃ now armable, op = .edge now armable ∧ t = now.toNat := by
      cases op with
      | edge now armable => exact ⟨now, armable, rfl, (Option.some.inj hop).symm⟩
      | _ => exact nomatch hop
    obtain ⟨⟨given, v⟩, hedge, h⟩ := bind_eq_ok_iff.mp h
    rw [pure_eq_ok_iff, Prod.mk.injEq] at h
    obtain ⟨rfl, rfl⟩ := h
    have hspread := hs.edge hedge
    by_cases hignored : given.outcome = .ignored
    · simpa [Answer.accepts, hignored] using hspread
    · simpa [Answer.accepts, hignored] using hspread

/-- The gaps are kept after every run. -/
theorem spread_of_run (h : run apply { length } ops = .ok (answers, w)) :
    Spread (acceptedTimes ops answers) w := by
  refine run_induction (P := fun ops answers w => Spread (acceptedTimes ops answers) w)
    (spread_new length) ?_ h
  intro ops answers m op answer v hrun hm hstep
  rw [acceptedTimes_concat (length_of_run hrun).symm]
  exact hm.step hstep

/-- **The statistics of gaps are exact.** After any operations, with stamps in any order, the shortest
gap that a windower shows is the least of the gaps between the edges it accepted, the longest gap is
the greatest of them, and there are none just when there is no gap at all; the last edge that it
shows is the last one it accepted. -/
theorem gaps_exact (h : run apply { length } ops = .ok (answers, w)) :
    w.tally.shortestGap.map UInt64.toNat = (gaps (acceptedTimes ops answers)).min? ∧
      w.tally.longestGap.map UInt64.toNat = (gaps (acceptedTimes ops answers)).max? ∧
      (w.tally.shortestGap = none ↔ gaps (acceptedTimes ops answers) = []) ∧
      (w.tally.longestGap = none ↔ gaps (acceptedTimes ops answers) = []) ∧
      w.lastEdge.map UInt64.toNat = (acceptedTimes ops answers).getLast? ∧
      (w.lastEdge = none ↔ acceptedTimes ops answers = []) := by
  have hs := spread_of_run h
  refine ⟨hs.shortest, hs.longest, ?_, ?_, hs.last, ?_⟩
  · rw [← List.min?_eq_none_iff, ← hs.shortest, Option.map_eq_none_iff]
  · rw [← List.max?_eq_none_iff, ← hs.longest, Option.map_eq_none_iff]
  · rw [← List.getLast?_eq_none_iff, ← hs.last, Option.map_eq_none_iff]

/-- A run with an edge that finds no timer, equal stamps, a stamp from the past, edges that are
carried, and an edge after the teardown. -/
def backAndForth : List Op :=
  [.edge 100 false, .edge 100 true, .edge 95 true, .edge 130 true, .poll 200, .deliver,
    .edge 131 true, .edge 150 true, .disarm, .edge 400 true, .poll 500]

/-- The gaps of `backAndForth`, where stamps are repeated and go back. -/
theorem gaps_exact_backAndForth :
    ∃ answers w, run apply { length := 20 } backAndForth = .ok (answers, w) ∧
      acceptedTimes backAndForth answers = [100, 100, 95, 130, 131, 150] ∧
      gaps (acceptedTimes backAndForth answers) = [35, 1, 19] ∧
      w.tally.shortestGap.map UInt64.toNat = some 1 ∧
      w.tally.longestGap.map UInt64.toNat = some 35 ∧
      w.lastEdge.map UInt64.toNat = some 150 := by
  have hrun : (run apply { length := 20 } backAndForth).map (fun p =>
      acceptedTimes backAndForth p.1) = .ok [100, 100, 95, 130, 131, 150] := rfl
  obtain ⟨⟨answers, w⟩, h, htimes⟩ := map_eq_ok_iff.mp hrun
  obtain ⟨hshortest, hlongest, -, -, hlast, -⟩ := gaps_exact h
  rw [htimes] at hshortest hlongest hlast
  have hgaps : gaps [100, 100, 95, 130, 131, 150] = [35, 1, 19] := rfl
  exact ⟨answers, w, h, htimes, htimes ▸ hgaps, hshortest, hlongest, hlast⟩

end Settle.Windower
