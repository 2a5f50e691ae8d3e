import Settle.Proofs.Windower.Attribution

/-!
# Windows keep their distance

An open window reaches as far as every window does, and what it carries came at or past its deadline
(`Shaped`). So a window that is opened by a carried edge begins where the one before it has ended,
or later, whatever the instants of the operations are.

A window that is opened by a fresh edge begins after the poll that closed the one before it, and
that poll came at or past the deadline. Here the order of time is needed (`Ordered`), and nothing
else: the timer may fail to be armed, and polls may come as late as they like. Then the windows that
were reported lie one past the other, and as each has the full length, no more than one begins in
any stretch of that length.

The totals of the reports rise in any order of time, because each window has an edge of its own
(`Rising`).

Main statement: `reports_spaced`.
-/

namespace Settle

/-- The report of a window that closes. -/
def Verdict.report? : Verdict → Option Report
  | .expired report => some report
  | _ => none

/-- A window of the given length, and what it carries came too late for it. -/
structure OpenWindow.Shaped (w : OpenWindow) (length : Micros) : Prop where
  deadline : w.deadline = Word.later w.opened length
  late : ∀ c, w.carried = some c → w.deadline ≤ c.first

namespace Windower

variable {length : Micros} {ops : List Op} {op : Op} {answers : List Answer} {answer : Answer}
  {w v : Windower} {now : Instant} {armable : Bool} {reported : List Report}

/-! ## The shape of the open window -/

/-- The open window has the length of all windows. -/
def Shaped (w : Windower) : Prop :=
  ∀ window, w.activity = .collecting window → window.Shaped w.length

/-- A new windower has no open window. -/
theorem shaped_new (length : Micros) : Shaped { length } := fun _ h => nomatch h

/-- Only the open window and the length matter. -/
theorem Shaped.of_eq (hw : w.Shaped) (hactivity : v.activity = w.activity)
    (hlength : v.length = w.length) : v.Shaped := by
  intro window hwindow
  rw [hlength]
  exact hw window (hactivity ▸ hwindow)

/-- An edge opens a window of the right length, or leaves the open one as it is. -/
theorem Shaped.edge (hw : w.Shaped) {answer : EdgeAnswer}
    (h : EdgeCase w now armable answer v) : v.Shaped := by
  cases h with
  | ignored _ => exact hw
  | opened _ _ _ =>
    rintro _ ⟨⟩
    exact ⟨rfl, fun _ hnone => nomatch hnone⟩
  | degraded _ _ _ _ => exact hw.of_eq rfl rfl
  | absorbed collecting _ _ _ =>
    rintro _ ⟨⟩
    exact ⟨(hw _ collecting).deadline, (hw _ collecting).late⟩
  | @carried window _ _ _ _ collecting late _ _ =>
    rintro _ ⟨⟩
    refine ⟨(hw _ collecting).deadline, ?_⟩
    rintro _ ⟨⟩
    show window.deadline ≤ window.firstCarried now
    unfold OpenWindow.firstCarried
    split
    · exact late
    · next c hc => exact (hw _ collecting).late c hc

/-- The window that the carried edges open has the length of all windows too. -/
theorem shaped_next {window : OpenWindow} (hactivity : w.activity = window.next w.length) :
    w.Shaped := by
  intro next hnext
  rw [hactivity] at hnext
  unfold OpenWindow.next at hnext
  split at hnext
  · cases hnext
  · cases hnext
    exact ⟨rfl, fun _ hnone => nomatch hnone⟩

/-- So does a poll. -/
theorem Shaped.poll (hw : w.Shaped) {verdict : Verdict} (h : PollCase w now verdict v) :
    v.Shaped := by
  cases h with
  | stop _ => exact hw
  | idle _ => exact hw
  | wait _ _ _ => exact hw
  | expired _ _ _ _ => exact shaped_next rfl

/-- After the teardown no window is open. -/
theorem Shaped.disarm (w : Windower) : w.disarm.2.Shaped := fun _ h => nomatch h

/-- Every operation keeps the length of the open window. -/
theorem Shaped.step (hw : w.Shaped) (hstep : w.apply op = .ok (answer, v)) : v.Shaped := by
  cases apply_eq_ok hstep with
  | edge act => exact hw.edge act
  | poll act => exact hw.poll act
  | deliver _ _ => exact hw.of_eq rfl rfl
  | disarm => exact .disarm w

/-- The open window has the right length after every run. -/
theorem shaped_of_run (h : run apply { length } ops = .ok (answers, w)) : w.Shaped :=
  run_invariant (shaped_new length) (fun _ _ _ _ hm hstep => hm.step hstep) h

/-- The window that follows begins at or past the deadline of the one that closes. -/
theorem Shaped.deadline_le_next (hw : w.Shaped) {window next : OpenWindow}
    (collecting : w.activity = .collecting window)
    (hnext : window.next w.length = .collecting next) : window.deadline ≤ next.opened := by
  unfold OpenWindow.next at hnext
  split at hnext
  · cases hnext
  · next c hc =>
    cases hnext
    exact (hw window collecting).late c hc

/-! ## The totals of the reports -/

/-- An edge that is counted adds at most one to the edges in hand. -/
theorem EdgeCase.inHand_le {answer : EdgeAnswer} (h : EdgeCase w now armable answer v) :
    v.insideEdges + v.carriedEdges + w.tally.edges.toNat ≤
      v.tally.edges.toNat + w.insideEdges + w.carriedEdges := by
  cases h with
  | ignored _ => omega
  | opened idle _ count =>
    rw [insideEdges_of_idle idle, carriedEdges_of_idle idle, insideEdges_of_collecting rfl,
      carriedEdges_of_collecting rfl]
    simp only [counted, OpenWindow.carriedEdges, UInt64.toNat_one, UInt64.toNat_zero]
    omega
  | degraded idle _ count _ =>
    simp only [counted, insideEdges, carriedEdges, idle]
    omega
  | absorbed collecting _ count more =>
    rw [insideEdges_of_collecting collecting, carriedEdges_of_collecting collecting,
      insideEdges_of_collecting rfl, carriedEdges_of_collecting rfl]
    simp only [counted, OpenWindow.carriedEdges] at more ⊢
    omega
  | carried collecting _ count more =>
    rw [insideEdges_of_collecting collecting, carriedEdges_of_collecting collecting,
      insideEdges_of_collecting rfl, carriedEdges_of_collecting rfl]
    simp only [counted, OpenWindow.carriedEdges] at more ⊢
    omega

/-- The totals of the reports rise, and leave room for the edges in hand. -/
structure Rising (reported : List Report) (w : Windower) : Prop where
  rising : reported.Pairwise fun r r' => r.total < r'.total
  room : ∀ r ∈ reported,
    r.total.toNat + w.insideEdges + w.carriedEdges ≤ w.tally.edges.toNat

/-- Without reports nothing has to rise. -/
theorem rising_nil (w : Windower) : Rising [] w := ⟨.nil, fun _ h => absurd h List.not_mem_nil⟩

/-- Only the open window and the number of edges matter. -/
theorem Rising.of_eq (h : Rising reported w) (hactivity : v.activity = w.activity)
    (hedges : v.tally.edges = w.tally.edges) : Rising reported v where
  rising := h.rising
  room r hr := by
    have hroom := h.room r hr
    rw [insideEdges, carriedEdges] at hroom ⊢
    rw [hactivity, hedges]
    exact hroom

/-- An edge that comes into hand is counted too. -/
theorem Rising.edge (h : Rising reported w) {answer : EdgeAnswer}
    (hcase : EdgeCase w now armable answer v) : Rising reported v where
  rising := h.rising
  room r hr := by
    have hroom := h.room r hr
    have hinHand := hcase.inHand_le
    omega

/-- The teardown leaves the reports as they are. -/
theorem Rising.disarm (h : Rising reported w) : Rising reported w.disarm.2 where
  rising := h.rising
  room r hr := by
    have hroom := h.room r hr
    rw [insideEdges_disarm, carriedEdges_disarm, tally_disarm]
    omega

/-- A window that closes has an edge that no report has told of. -/
theorem Rising.poll (h : Rising reported w) (hbounded : w.Bounded) {verdict : Verdict}
    (hcase : PollCase w now verdict v) : Rising (reported ++ verdict.report?.toList) v := by
  have still (w : Windower) (h : Rising reported w) : Rising (reported ++ []) w := by
    rw [List.append_nil]
    exact h
  cases hcase with
  | stop _ => exact still w h
  | idle _ => exact still w h
  | wait _ _ _ => exact still w h
  | @expired window total closed collecting _ before _ =>
    have hown := (hbounded.filled window collecting).edges
    have hroom := h.room
    rw [insideEdges_of_collecting collecting, carriedEdges_of_collecting collecting] at hroom
    refine ⟨List.pairwise_append.mpr ⟨h.rising, List.pairwise_singleton _ _, ?_⟩, ?_⟩
    · intro r hr r' hr'
      rw [List.mem_singleton.mp hr', UInt64.lt_iff_toNat_lt]
      have := hroom r hr
      show r.total.toNat < total.toNat
      omega
    · intro r hr
      rw [insideEdges_next rfl, carriedEdges_next rfl]
      show r.total.toNat + window.carriedEdges.toNat + 0 ≤ w.tally.edges.toNat
      rcases List.mem_append.mp hr with hr | hr
      · have := hroom r hr
        omega
      · rw [List.mem_singleton.mp hr]
        exact Nat.le_of_eq before

/-- Every operation keeps the totals rising. -/
theorem Rising.step (h : Rising (reports answers) w) (hbounded : w.Bounded)
    (hstep : w.apply op = .ok (answer, v)) : Rising (reports (answers ++ [answer])) v := by
  have still (hnone : answer.report? = none) (h : Rising (reports answers) v) :
      Rising (reports (answers ++ [answer])) v := by
    rwa [reports_concat, hnone, Option.toList_none, List.append_nil]
  cases apply_eq_ok hstep with
  | edge act => exact still rfl (h.edge act)
  | poll act =>
    rw [reports_concat]
    have hpoll := h.poll hbounded act
    cases act <;> exact hpoll
  | deliver _ _ => exact still rfl (h.of_eq rfl rfl)
  | disarm => exact still rfl h.disarm

/-- The totals rise in every run. -/
theorem rising_of_run (h : run apply { length } ops = .ok (answers, w)) :
    Rising (reports answers) w :=
  run_induction (P := fun _ answers w => Rising (reports answers) w) (rising_nil _)
    (fun _ _ _ _ _ _ hrun hm hstep => hm.step (bounded_of_run hrun) hstep) h

/-! ## Windows in the order of time -/

/-- Where the windows of a run in the order of time are. -/
structure Spaced (length : Micros) (ops : List Op) (answers : List Answer) (w : Windower) :
    Prop where
  /-- The windows that were reported have the full length, and edges. -/
  sized : ∀ r ∈ reports answers,
    r.deadline.toNat = r.opened.toNat + length.toNat ∧ 0 < r.edges.toNat
  /-- They lie one past the other. -/
  apart : (reports answers).Pairwise fun r r' => r.deadline ≤ r'.opened
  /-- Each was reported at or past its deadline. -/
  due : ∀ r ∈ reports answers, ∃ p ∈ times ops, r.deadline.toNat ≤ p
  /-- The open window lies past them. -/
  ahead : ∀ window, w.activity = .collecting window →
    ∀ r ∈ reports answers, r.deadline ≤ window.opened
  /-- It was opened by an edge, and so will be the next one. -/
  stamped : ∀ window, w.activity = .collecting window →
    window.opened.toNat ∈ edgeTimes ops ∧
      ∀ c, window.carried = some c → c.first.toNat ∈ edgeTimes ops
  /-- The length of windows never changes. -/
  sameLength : w.length = length

/-- A new windower has reported nothing. -/
theorem spaced_new (length : Micros) : Spaced length [] [] { length } where
  sized _ h := absurd h List.not_mem_nil
  apart := .nil
  due _ h := absurd h List.not_mem_nil
  ahead _ h := nomatch h
  stamped _ h := nomatch h
  sameLength := rfl

/-- The instant at or past a deadline is still there after one more operation. -/
theorem Spaced.due_concat (h : Spaced length ops answers w) (op : Op) {r : Report}
    (hr : r ∈ reports answers) : ∃ p ∈ times (ops ++ [op]), r.deadline.toNat ≤ p := by
  obtain ⟨p, hp, hle⟩ := h.due r hr
  refine ⟨p, ?_, hle⟩
  rw [times_concat]
  exact List.mem_append_left _ hp

/-- An operation that closes no window leaves the reports as they are; only the open window has to
be looked at. -/
theorem Spaced.concat (h : Spaced length ops answers w) (hnone : answer.report? = none)
    (hahead : ∀ window, v.activity = .collecting window →
      ∀ r ∈ reports answers, r.deadline ≤ window.opened)
    (hstamped : ∀ window, v.activity = .collecting window →
      window.opened.toNat ∈ edgeTimes (ops ++ [op]) ∧
        ∀ c, window.carried = some c → c.first.toNat ∈ edgeTimes (ops ++ [op]))
    (hlength : v.length = w.length) : Spaced length (ops ++ [op]) (answers ++ [answer]) v := by
  have hreports : reports (answers ++ [answer]) = reports answers := by
    rw [reports_concat, hnone, Option.toList_none, List.append_nil]
  rw [← hreports] at hahead
  refine ⟨?_, ?_, fun r hr => h.due_concat op ?_, hahead, hstamped, hlength.trans h.sameLength⟩
  · rw [hreports]
    exact h.sized
  · rw [hreports]
    exact h.apart
  · rwa [hreports] at hr

/-- One more operation takes no edge away. -/
theorem mem_edgeTimes_concat {t : Nat} (op : Op) (h : t ∈ edgeTimes ops) :
    t ∈ edgeTimes (ops ++ [op]) := by
  rw [edgeTimes_concat]
  exact List.mem_append_left _ h

/-- Many operations leave the open window as it is, or give it up. -/
theorem Spaced.concat_still (h : Spaced length ops answers w) (hnone : answer.report? = none)
    (hactivity : ∀ window, v.activity = .collecting window → w.activity = .collecting window)
    (hlength : v.length = w.length) : Spaced length (ops ++ [op]) (answers ++ [answer]) v := by
  refine h.concat hnone (fun window hwindow => h.ahead window (hactivity window hwindow)) ?_ hlength
  intro window hwindow
  obtain ⟨hopened, hcarried⟩ := h.stamped window (hactivity window hwindow)
  exact ⟨mem_edgeTimes_concat op hopened, fun c hc => mem_edgeTimes_concat op (hcarried c hc)⟩

/-- A fresh window begins after the polls that closed the others. -/
theorem Spaced.edge (h : Spaced length ops answers w)
    (hordered : Ordered length (ops ++ [.edge now armable])) {answer : EdgeAnswer}
    (hcase : EdgeCase w now armable answer v) :
    Spaced length (ops ++ [.edge now armable]) (answers ++ [.edge answer]) v := by
  have hnow : now.toNat ∈ edgeTimes (ops ++ [.edge now armable]) := by
    rw [edgeTimes_concat]
    exact List.mem_append_right _ (List.mem_singleton_self _)
  cases hcase with
  | ignored _ => exact h.concat_still rfl (fun _ => id) rfl
  | degraded _ _ _ _ => exact h.concat_still rfl (fun _ => id) rfl
  | opened _ _ _ =>
    refine h.concat rfl ?_ ?_ rfl
    · rintro _ ⟨⟩ r hr
      obtain ⟨p, hp, hle⟩ := h.due r hr
      exact UInt64.le_iff_toNat_le.mpr (hle.trans (hordered.le_of_concat rfl hp))
    · rintro _ ⟨⟩
      exact ⟨hnow, fun _ hnone => nomatch hnone⟩
  | @absorbed window _ _ _ _ collecting _ _ _ =>
    obtain ⟨hopened, hcarried⟩ := h.stamped window collecting
    refine h.concat rfl ?_ ?_ rfl
    · rintro _ ⟨⟩ r hr
      exact h.ahead window collecting r hr
    · rintro _ ⟨⟩
      exact ⟨mem_edgeTimes_concat _ hopened, fun c hc => mem_edgeTimes_concat _ (hcarried c hc)⟩
  | @carried window _ _ _ _ collecting _ _ _ =>
    obtain ⟨hopened, hcarried⟩ := h.stamped window collecting
    refine h.concat rfl ?_ ?_ rfl
    · rintro _ ⟨⟩ r hr
      exact h.ahead window collecting r hr
    · rintro _ ⟨⟩
      refine ⟨mem_edgeTimes_concat _ hopened, ?_⟩
      rintro _ ⟨⟩
      show (window.firstCarried now).toNat ∈ _
      unfold OpenWindow.firstCarried
      split
      · exact hnow
      · next c hc => exact mem_edgeTimes_concat _ (hcarried c hc)

/-- A window that closes lies past those before it and before the one that follows. -/
theorem Spaced.expired (h : Spaced length ops answers w) (hbounded : w.Bounded) (hshaped : w.Shaped)
    (hordered : Ordered length (ops ++ [.poll now])) {window : OpenWindow} {total closed : Count}
    (collecting : w.activity = .collecting window) (due : window.deadline ≤ now) :
    Spaced length (ops ++ [.poll now]) (answers ++ [.verdict (.expired (report window total))])
      { w with activity := window.next w.length, tally := { w.tally with closed } } := by
  obtain ⟨hopened, hcarried⟩ := h.stamped window collecting
  have hreports : reports (answers ++ [.verdict (.expired (report window total))]) =
      reports answers ++ [report window total] := reports_concat _ _
  have hdeadline : window.deadline.toNat = window.opened.toNat + length.toNat := by
    rw [(hshaped window collecting).deadline, h.sameLength]
    exact Word.toNat_later_of_lt (hordered.of_concat.room _ hopened)
  refine ⟨?_, ?_, ?_, ?_, ?_, h.sameLength⟩
  · rw [hreports, List.forall_mem_append, List.forall_mem_singleton]
    exact ⟨h.sized, hdeadline, (hbounded.filled window collecting).edges⟩
  · rw [hreports, List.pairwise_append]
    refine ⟨h.apart, List.pairwise_singleton _ _, fun r hr r' hr' => ?_⟩
    rw [List.mem_singleton.mp hr']
    exact h.ahead window collecting r hr
  · rw [hreports, List.forall_mem_append, List.forall_mem_singleton]
    refine ⟨fun r hr => h.due_concat _ hr, now.toNat, ?_, UInt64.le_iff_toNat_le.mp due⟩
    rw [times_concat]
    exact List.mem_append_right _ (List.mem_singleton_self _)
  · intro next hnext
    have hle := hshaped.deadline_le_next collecting hnext
    rw [hreports, List.forall_mem_append, List.forall_mem_singleton]
    refine ⟨fun r hr => ?_, hle⟩
    -- The closed window itself lies between the others and the one that follows.
    have hopens : window.opened ≤ window.deadline := by
      rw [(hshaped window collecting).deadline]
      exact Word.le_later _ _
    exact UInt64.le_trans (h.ahead window collecting r hr) (UInt64.le_trans hopens hle)
  · intro next hnext
    change window.next w.length = .collecting next at hnext
    unfold OpenWindow.next at hnext
    split at hnext
    · cases hnext
    · next c hc =>
      cases hnext
      exact ⟨mem_edgeTimes_concat _ (hcarried c hc), fun _ hnone => nomatch hnone⟩

/-- The windows lie one past the other in every run in the order of time. -/
theorem spaced_of_run (h : run apply { length } ops = .ok (answers, w))
    (hordered : Ordered length ops) : Spaced length ops answers w := by
  refine run_induction
    (P := fun ops answers w => Ordered length ops → Spaced length ops answers w)
    (fun _ => spaced_new length) ?_ h hordered
  intro ops answers w op answer v hrun ih hstep hordered
  have hspaced := ih hordered.of_concat
  cases apply_eq_ok hstep with
  | edge act => exact hspaced.edge hordered act
  | poll act =>
    cases act with
    | stop _ => exact hspaced.concat_still rfl (fun _ => id) rfl
    | idle _ => exact hspaced.concat_still rfl (fun _ => id) rfl
    | wait _ _ _ => exact hspaced.concat_still rfl (fun _ => id) rfl
    | expired collecting due _ _ =>
      exact hspaced.expired (bounded_of_run hrun) (shaped_of_run hrun) hordered collecting due
  | deliver _ _ => exact hspaced.concat_still rfl (fun _ => id) rfl
  | disarm => exact hspaced.concat_still rfl (fun _ hnone => nomatch hnone) rfl

/-- Windows of the full length that lie one past the other begin at least a length apart. -/
theorem opened_add_le {reported : List Report} {length : Nat}
    (sized : ∀ r ∈ reported, r.deadline.toNat = r.opened.toNat + length)
    (apart : reported.Pairwise fun r r' => r.deadline ≤ r'.opened) {k m : Nat} {r r' : Report}
    (hr : reported[k]? = some r) (hr' : reported[k + m]? = some r') :
    r.opened.toNat + m * length ≤ r'.opened.toNat := by
  induction m generalizing r' with
  | zero =>
    rw [Nat.add_zero, hr, Option.some.injEq] at hr'
    rw [hr', Nat.zero_mul, Nat.add_zero]
  | succ m ih =>
    obtain ⟨hlt', rfl⟩ := List.getElem?_eq_some_iff.mp hr'
    have hlt : k + m < reported.length := by omega
    have hbefore := ih (List.getElem?_eq_getElem hlt)
    have hsized := sized _ (List.getElem_mem hlt)
    have hapart := UInt64.le_iff_toNat_le.mp
      (List.pairwise_iff_getElem.mp apart (k + m) (k + (m + 1)) hlt hlt' (by omega))
    rw [Nat.succ_mul]
    omega

/-- **Windows keep their distance.** In a run in the order of time, however late its polls are and
whether or not the timer can be armed: every report tells of a window of the full length, with at
least one edge; of two reports the later one tells of a window that begins at or past the deadline
of the earlier one's, and has the larger total. So windows that are `m` reports apart begin at least
`m` lengths apart. -/
theorem reports_spaced (h : run apply { length } ops = .ok (answers, w))
    (ordered : Ordered length ops) :
    (∀ r ∈ reports answers,
      r.deadline.toNat = r.opened.toNat + length.toNat ∧ 1 ≤ r.edges.toNat) ∧
    (reports answers).Pairwise (fun r r' => r.deadline ≤ r'.opened ∧ r.total < r'.total) ∧
    ∀ k m r r', (reports answers)[k]? = some r → (reports answers)[k + m]? = some r' →
      r.opened.toNat + m * length.toNat ≤ r'.opened.toNat := by
  have hspaced := spaced_of_run h ordered
  have hrising := rising_of_run h
  refine ⟨hspaced.sized, hspaced.apart.and hrising.rising, fun k m r r' hr hr' => ?_⟩
  exact opened_add_le (fun r hr => (hspaced.sized r hr).1) hspaced.apart hr hr'

/-- The timer fails at first, then comes later than two windows, and a delivery and the teardown are
mixed in. -/
def lateAndUnarmed : List Op :=
  [.edge 1 false, .edge 2 true, .edge 5 true, .edge 12 true, .edge 30 true, .poll 31, .deliver,
    .poll 31, .edge 31 false, .edge 31 true, .poll 41, .edge 60 true, .disarm, .edge 61 true,
    .poll 90]

/-- The reports of `lateAndUnarmed` lie one past the other, though the poll comes later than two
windows. -/
theorem reports_spaced_lateAndUnarmed :
    ∃ answers w, run apply { length := 10 } lateAndUnarmed = .ok (answers, w) ∧
      Ordered 10 lateAndUnarmed ∧
      reports answers = [⟨2, 12, 2, 3⟩, ⟨12, 22, 2, 5⟩, ⟨31, 41, 1, 7⟩] ∧
      (reports answers).Pairwise (fun r r' => r.deadline ≤ r'.opened ∧ r.total < r'.total) := by
  have hrun : (run apply { length := 10 } lateAndUnarmed).map (fun p => reports p.1) =
      .ok [⟨2, 12, 2, 3⟩, ⟨12, 22, 2, 5⟩, ⟨31, 41, 1, 7⟩] := rfl
  obtain ⟨⟨answers, w⟩, h, hreports⟩ := map_eq_ok_iff.mp hrun
  have hordered : Ordered 10 lateAndUnarmed := ⟨by decide, by decide⟩
  exact ⟨answers, w, h, hordered, hreports, (reports_spaced h hordered).2.1⟩

end Windower

end Settle
