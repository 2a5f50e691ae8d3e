import Settle.Proofs.Windower.Waiting

/-!
# Bursts of edges in any order

Producers race, so the edges of a burst reach an open window in an order that nobody chose. What the
window makes of them is a summary (`OpenWindow.Took`): how many came before its deadline, how many at
or past it, and which of the latter was the first. Two of these are numbers, which no order changes;
the third is told only if nothing was carried before. Outside the window a burst changes the number
of edges, and the last edge and the gaps between edges in a row, which do depend on the order
(`AfterBurst`).

Main statement: `run_burst_perm`.
-/

namespace Settle

/-! ## What a burst does to the open window -/

namespace OpenWindow

variable {window middle after : OpenWindow} {batch batch' : List (Instant × Bool)} {due : Instant}

/-- The first stamp of a burst at or past an instant. -/
def firstLate? (due : Instant) (batch : List (Instant × Bool)) : Option Instant :=
  (batch.map Prod.fst).find? fun t => due ≤ t

/-- The first late stamp of two bursts is that of the first one, if it has one. -/
theorem firstLate?_append (due : Instant) (batch batch' : List (Instant × Bool)) :
    firstLate? due (batch ++ batch') = (firstLate? due batch).or (firstLate? due batch') := by
  rw [firstLate?, List.map_append, List.find?_append, firstLate?, firstLate?]

/-- If all stamps lie before the instant, none is late. -/
theorem firstLate?_eq_none (h : ∀ e ∈ batch, e.1 < due) : firstLate? due batch = none := by
  rw [firstLate?, List.find?_eq_none]
  intro t ht hlate
  obtain ⟨e, he, rfl⟩ := List.mem_map.mp ht
  exact UInt64.not_lt.mpr (of_decide_eq_true hlate) (h e he)

/-- What a window makes of the edges of a burst. -/
structure Took (window : OpenWindow) (batch : List (Instant × Bool)) (after : OpenWindow) :
    Prop where
  opened : after.opened = window.opened
  deadline : after.deadline = window.deadline
  /-- It counts those before its deadline. -/
  inside : after.edges.toNat =
    window.edges.toNat + batch.countP fun e => decide (e.1 < window.deadline)
  /-- It counts those at or past its deadline apart. -/
  waiting : after.carriedEdges.toNat =
    window.carriedEdges.toNat + batch.countP fun e => decide (window.deadline ≤ e.1)
  /-- It remembers the first of these, unless it remembers one already. -/
  first : after.carried.map Carried.first =
    (window.carried.map Carried.first).or (firstLate? window.deadline batch)

/-- No edges change nothing. -/
theorem took_nil (window : OpenWindow) : window.Took [] window :=
  ⟨rfl, rfl, rfl, rfl, Option.or_none.symm⟩

/-- A window takes two bursts one after the other. -/
theorem Took.append (h : window.Took batch middle) (h' : middle.Took batch' after) :
    window.Took (batch ++ batch') after where
  opened := h'.opened.trans h.opened
  deadline := h'.deadline.trans h.deadline
  inside := by rw [h'.inside, h.inside, h.deadline, List.countP_append, Nat.add_assoc]
  waiting := by rw [h'.waiting, h.waiting, h.deadline, List.countP_append, Nat.add_assoc]
  first := by rw [h'.first, h.first, h.deadline, firstLate?_append, Option.or_assoc]

/-- What is carried is known by its first instant and its number. -/
theorem carried_ext {a b : OpenWindow}
    (hfirst : a.carried.map Carried.first = b.carried.map Carried.first)
    (hedges : a.carriedEdges = b.carriedEdges) : a.carried = b.carried := by
  unfold carriedEdges at hedges
  cases ha : a.carried with
  | none =>
    rw [ha] at hfirst
    exact (Option.map_eq_none_iff.mp hfirst.symm).symm
  | some c =>
    rw [ha] at hfirst hedges
    obtain ⟨d, hd, hsame⟩ := Option.map_eq_some_iff.mp hfirst.symm
    rw [hd] at hedges ⊢
    have hnumber : c.edges = d.edges := hedges
    show some (Carried.mk c.first c.edges) = some d
    rw [← hsame, hnumber]

section Perm

variable {after' : OpenWindow}

/-- The order of a burst does not change what a window counts. -/
theorem Took.counts_eq (h : window.Took batch after) (h' : window.Took batch' after')
    (hperm : batch.Perm batch') :
    after'.edges = after.edges ∧ after'.carriedEdges = after.carriedEdges := by
  constructor
  · rw [← UInt64.toNat_inj, h'.inside, h.inside, hperm.countP_eq]
  · rw [← UInt64.toNat_inj, h'.waiting, h.waiting, hperm.countP_eq]

/-- The order of a burst does not change a window that had edges carried already, or that gets none
to carry. -/
theorem Took.eq_of_perm (h : window.Took batch after) (h' : window.Took batch' after')
    (hperm : batch.Perm batch')
    (hfirst : window.carried ≠ none ∨ ∀ e ∈ batch, e.1 < window.deadline) : after' = after := by
  obtain ⟨hedges, hwaiting⟩ := h.counts_eq h' hperm
  have hsame : after'.carried.map Carried.first = after.carried.map Carried.first := by
    rw [h'.first, h.first]
    rcases hfirst with hcarried | hearly
    · obtain ⟨c, hc⟩ := Option.ne_none_iff_exists'.mp hcarried
      rw [hc, Option.map_some, Option.some_or, Option.some_or]
    · have hearly' : ∀ e ∈ batch', e.1 < window.deadline := fun e he =>
        hearly e (hperm.mem_iff.mpr he)
      rw [firstLate?_eq_none hearly, firstLate?_eq_none hearly']
  show OpenWindow.mk after'.opened after'.deadline after'.edges after'.carried = after
  rw [h'.opened, ← h.opened, h'.deadline, ← h.deadline, hedges, carried_ext hsame hwaiting]

end Perm

end OpenWindow

/-- A tally without the gaps between edges in a row. -/
def Tally.gapless (t : Tally) : Tally := { t with shortestGap := none, longestGap := none }

namespace Windower

variable {length : Micros} {ops : List Op} {answers : List Answer} {w m v : Windower}
  {window middle after : OpenWindow} {batch batch' : List (Instant × Bool)}
  {now opened due : Instant} {armable : Bool}

/-! ## What a burst does to a windower -/

/-- A burst of edges, each with its stamp and whether the timer could be armed for it. -/
def burst (batch : List (Instant × Bool)) : List Op := batch.map fun e => .edge e.1 e.2

/-- What an edge is answered while a window is open until `due`. -/
def answerUntil (due : Instant) (e : Instant × Bool) : Answer :=
  .edge { outcome := if due ≤ e.1 then .carried else .absorbed }

/-- A windower without what depends on which edges came in a row: the last edge and the gaps. -/
def unordered (w : Windower) : Windower := { w with lastEdge := none, tally := w.tally.gapless }

/-- A windower with another activity and another number of edges. -/
def recounted (w : Windower) (activity : Activity) (edges : Count) : Windower :=
  { w with activity, tally := { w.tally with edges } }

/-- What a burst does to a windower with an open window. -/
structure AfterBurst (w : Windower) (window : OpenWindow) (batch : List (Instant × Bool))
    (v : Windower) (after : OpenWindow) : Prop where
  /-- The window stays open. -/
  collecting : v.activity = .collecting after
  /-- The window takes the burst. -/
  took : window.Took batch after
  /-- Every edge is counted. -/
  counted : v.tally.edges.toNat = w.tally.edges.toNat + batch.length
  /-- Nothing else changes that is known without the order of the edges. -/
  others : v.unordered = w.unordered.recounted v.activity v.tally.edges

/-- No edges change nothing. -/
theorem afterBurst_nil (h : w.activity = .collecting window) : AfterBurst w window [] w window :=
  ⟨h, window.took_nil, rfl, rfl⟩

/-- Two bursts are one burst. -/
theorem AfterBurst.append (h : AfterBurst w window batch m middle)
    (h' : AfterBurst m middle batch' v after) : AfterBurst w window (batch ++ batch') v after where
  collecting := h'.collecting
  took := h.took.append h'.took
  counted := by rw [h'.counted, h.counted, List.length_append, Nat.add_assoc]
  others := by
    rw [h'.others, h.others]
    rfl

/-- A single edge is a burst. -/
theorem EdgeCase.afterBurst {answer : EdgeAnswer} (h : EdgeCase w now armable answer v)
    (hwindow : w.activity = .collecting window) :
    Answer.edge answer = answerUntil window.deadline (now, armable) ∧
      ∃ after, AfterBurst w window [(now, armable)] v after := by
  cases h with
  | ignored torn => exact nomatch hwindow.symm.trans torn
  | opened idle _ _ => exact nomatch hwindow.symm.trans idle
  | degraded idle _ _ _ => exact nomatch hwindow.symm.trans idle
  | absorbed collecting early count more =>
    obtain rfl := Activity.collecting.inj (hwindow.symm.trans collecting)
    have hnot : ¬ window.deadline ≤ now := UInt64.not_le.mpr early
    refine ⟨by rw [answerUntil, if_neg hnot], _, rfl, ⟨rfl, rfl, ?_, ?_, ?_⟩, count, rfl⟩
    · rw [List.countP_singleton, if_pos (decide_eq_true early)]
      exact more
    · rw [List.countP_singleton, if_neg (by simpa using hnot)]
      rfl
    · rw [OpenWindow.firstLate?_eq_none (List.forall_mem_singleton.mpr early), Option.or_none]
  | carried collecting late count more =>
    obtain rfl := Activity.collecting.inj (hwindow.symm.trans collecting)
    have hnot : ¬ now < window.deadline := UInt64.not_lt.mpr late
    refine ⟨by rw [answerUntil, if_pos late], _, rfl, ⟨rfl, rfl, ?_, ?_, ?_⟩, count, rfl⟩
    · rw [List.countP_singleton, if_neg (by simpa using hnot)]
      rfl
    · rw [List.countP_singleton, if_pos (decide_eq_true late)]
      exact more
    · have hlate : OpenWindow.firstLate? window.deadline [(now, armable)] = some now := by
        simp [OpenWindow.firstLate?, late]
      rw [hlate, Option.map_some, OpenWindow.firstCarried]
      cases window.carried <;> rfl

/-- A burst for which there is room is taken edge by edge. -/
theorem exists_run_burst (hw : w.Bounded) (hwindow : w.activity = .collecting window)
    (room : w.tally.edges.toNat + batch.length < UInt64.size) :
    ∃ v after, run apply w (burst batch) = .ok (batch.map (answerUntil window.deadline), v) ∧
      v.Bounded ∧ AfterBurst w window batch v after := by
  induction batch generalizing w window with
  | nil => exact ⟨w, window, rfl, hw, afterBurst_nil hwindow⟩
  | cons e batch ih =>
    rw [List.length_cons] at room
    obtain ⟨answer, m, hedge⟩ := hw.exists_edge e.1 e.2 (by omega)
    obtain ⟨hanswer, middle, hm⟩ := (edge_eq_ok hedge).afterBurst hwindow
    have hstep : w.apply (.edge e.1 e.2) = .ok (answerUntil window.deadline e, m) := by
      rw [← hanswer]
      exact bind_eq_ok_iff.mpr ⟨_, hedge, rfl⟩
    have hcount : m.tally.edges.toNat = w.tally.edges.toNat + 1 := hm.counted
    obtain ⟨v, after, hrun, hv, hafter⟩ := ih (hw.step hstep) hm.collecting (by omega)
    rw [hm.took.deadline] at hrun
    exact ⟨v, after, run_cons_eq_ok_iff.mpr ⟨_, m, _, hstep, hrun, rfl⟩, hv, hm.append hafter⟩

/-- A burst for which there is no room halts in any order. -/
theorem run_burst_eq_error (hw : w.Bounded) (hwindow : w.activity = .collecting window)
    (full : UInt64.size ≤ w.tally.edges.toNat + batch.length) :
    run apply w (burst batch) = .error .sumTooLarge := by
  induction batch generalizing w window with
  | nil => exact absurd w.tally.edges.toNat_lt (Nat.not_lt.mpr full)
  | cons e batch ih =>
    rw [List.length_cons] at full
    refine run_cons_eq_error_iff.mpr ?_
    by_cases room : w.tally.edges.toNat + 1 < UInt64.size
    · obtain ⟨answer, m, hedge⟩ := hw.exists_edge e.1 e.2 room
      obtain ⟨-, middle, hm⟩ := (edge_eq_ok hedge).afterBurst hwindow
      have hstep : w.apply (.edge e.1 e.2) = .ok (.edge answer, m) :=
        bind_eq_ok_iff.mpr ⟨_, hedge, rfl⟩
      have hcount : m.tally.edges.toNat = w.tally.edges.toNat + 1 := hm.counted
      exact .inr ⟨_, m, hstep, ih (hw.step hstep) hm.collecting (by omega)⟩
    · have hactive : w.activity ≠ .disarmed := by simp [hwindow]
      exact .inl (bind_eq_error_iff.mpr (.inl (edge_eq_error e.2 hactive (Nat.not_lt.mp room))))

/-! ## Two orders of one burst -/

section Perm

variable {v' : Windower} {after' : OpenWindow}

/-- The window that is open keeps its instants. -/
theorem AfterBurst.phase_eq (h : AfterBurst w window batch v after) :
    v.phase = .pending window.opened window.deadline := by
  rw [phase_of_collecting h.collecting, h.took.opened, h.took.deadline]

/-- In either order as many edges are counted. -/
theorem AfterBurst.edges_eq (h : AfterBurst w window batch v after)
    (h' : AfterBurst w window batch' v' after') (hperm : batch.Perm batch') :
    v'.tally.edges = v.tally.edges := by
  rw [← UInt64.toNat_inj, h'.counted, h.counted, hperm.length_eq]

/-- The tallies differ in the gaps at most. -/
theorem AfterBurst.gapless_eq (h : AfterBurst w window batch v after)
    (h' : AfterBurst w window batch' v' after') (hperm : batch.Perm batch') :
    v'.tally.gapless = v.tally.gapless := by
  have hv : v.tally.gapless = { w.tally.gapless with edges := v.tally.edges } :=
    congrArg Windower.tally h.others
  have hv' : v'.tally.gapless = { w.tally.gapless with edges := v'.tally.edges } :=
    congrArg Windower.tally h'.others
  rw [hv', hv, h.edges_eq h' hperm]

/-- The window is reported alike, whenever it is. -/
theorem AfterBurst.report_eq (h : AfterBurst w window batch v after)
    (h' : AfterBurst w window batch' v' after') (hperm : batch.Perm batch') {t t' : Instant}
    {report report' : Report} {u u' : Windower} (hpoll : PollCase v t (.expired report) u)
    (hpoll' : PollCase v' t' (.expired report') u') : report' = report := by
  obtain ⟨hinside, hwaiting⟩ := h.took.counts_eq h'.took hperm
  have hedges := h.edges_eq h' hperm
  cases hpoll with
  | @expired _ total _ collecting _ before _ =>
    obtain rfl := Activity.collecting.inj (h.collecting.symm.trans collecting)
    cases hpoll' with
    | @expired _ total' _ collecting' _ before' _ =>
      obtain rfl := Activity.collecting.inj (h'.collecting.symm.trans collecting')
      have htotal : total' = total := by
        rw [hwaiting, hedges] at before'
        rw [← UInt64.toNat_inj]
        omega
      rw [report, report, htotal, hinside, h'.took.opened, h.took.opened, h'.took.deadline,
        h.took.deadline]

/-- **A burst has no order.** While a window is open, a burst of edges for which there is room gives
each edge the answer that its own stamp calls for, in whatever order the edges come. Two orders lead
to the same tally up to the gaps, to the same phase, and to the same report at any poll that is due;
and to the same windower up to the last edge and the gaps, if edges were carried before the burst or
none of its edges is late. Without room, both orders halt. -/
theorem run_burst_perm (h : run apply { length } ops = .ok (answers, w))
    (pending : w.phase = .pending opened due) (perm : batch.Perm batch') :
    (UInt64.size ≤ w.tally.edges.toNat + batch.length ∧
      run apply w (burst batch) = .error .sumTooLarge ∧
      run apply w (burst batch') = .error .sumTooLarge) ∨
    ∃ v v', run apply w (burst batch) = .ok (batch.map (answerUntil due), v) ∧
      run apply w (burst batch') = .ok (batch'.map (answerUntil due), v') ∧
      v.tally.edges.toNat = w.tally.edges.toNat + batch.length ∧
      v'.tally.gapless = v.tally.gapless ∧ v'.phase = v.phase ∧
      (∃ report, ∀ t, due ≤ t → (∃ u, v.poll t = .ok (.expired report, u)) ∧
        ∃ u', v'.poll t = .ok (.expired report, u')) ∧
      (0 < w.carriedEdges ∨ (∀ e ∈ batch, e.1 < due) → v'.unordered = v.unordered) := by
  have hw := bounded_of_run h
  obtain ⟨window, hwindow, rfl, rfl⟩ := exists_collecting_of_phase pending
  by_cases room : w.tally.edges.toNat + batch.length < UInt64.size
  · obtain ⟨v, after, hrun, hv, hafter⟩ := exists_run_burst hw hwindow room
    rw [perm.length_eq] at room
    obtain ⟨v', after', hrun', hv', hafter'⟩ := exists_run_burst hw hwindow room
    refine .inr ⟨v, v', hrun, hrun', hafter.counted, hafter.gapless_eq hafter' perm,
      hafter'.phase_eq.trans hafter.phase_eq.symm, ?_, fun hfirst => ?_⟩
    · -- The report that is promised is the one at the deadline itself.
      obtain ⟨verdict, u, hpoll⟩ := hv.exists_poll window.deadline
      obtain ⟨report, rfl, -⟩ := ((poll_eq_ok hpoll).pending hafter.phase_eq).2 (UInt64.le_refl _)
      refine ⟨report, fun t hdue => ?_⟩
      obtain ⟨verdict, u₁, hpoll₁⟩ := hv.exists_poll t
      obtain ⟨report₁, rfl, -⟩ := ((poll_eq_ok hpoll₁).pending hafter.phase_eq).2 hdue
      obtain ⟨verdict, u₂, hpoll₂⟩ := hv'.exists_poll t
      obtain ⟨report₂, rfl, -⟩ := ((poll_eq_ok hpoll₂).pending hafter'.phase_eq).2 hdue
      obtain rfl := hafter.report_eq hafter (List.Perm.refl _) (poll_eq_ok hpoll) (poll_eq_ok hpoll₁)
      obtain rfl := hafter.report_eq hafter' perm (poll_eq_ok hpoll) (poll_eq_ok hpoll₂)
      exact ⟨⟨u₁, hpoll₁⟩, u₂, hpoll₂⟩
    · have hcarried : window.carried ≠ none ∨ ∀ e ∈ batch, e.1 < window.deadline := by
        refine hfirst.imp_left fun hwaiting hnone => ?_
        rw [carriedEdges_of_collecting hwindow, OpenWindow.carriedEdges, hnone] at hwaiting
        exact Nat.lt_irrefl 0 hwaiting
      rw [hafter'.others, hafter.others, hafter'.collecting, hafter.collecting,
        hafter.took.eq_of_perm hafter'.took perm hcarried, hafter.edges_eq hafter' perm]
  · refine .inl ⟨Nat.not_lt.mp room, run_burst_eq_error hw hwindow (Nat.not_lt.mp room), ?_⟩
    rw [perm.length_eq] at room
    exact run_burst_eq_error hw hwindow (Nat.not_lt.mp room)

/-- Edges of two windows at once, in no order. -/
def scattered : List (Instant × Bool) :=
  [(40, false), (3, true), (22, true), (21, false), (30, true)]

/-- The same edges in another order. -/
def gathered : List (Instant × Bool) :=
  [(21, false), (22, true), (3, true), (30, true), (40, false)]

/-- If nothing is carried before, then the order decides where the next window opens. -/
example : ([scattered, gathered].map fun batch =>
    (run apply { length := 10 } (reopened ++ burst batch ++ [.poll 50])).toOption.map fun p =>
      p.2.phase) = [some (.pending 40 50), some (.pending 22 32)] := rfl

/-- An edge is carried before the burst. -/
def crowded : List Op := reopened ++ [.edge 25 true]

/-- After `crowded`, where an edge is carried already, the two orders leave the same windower but
for gaps and last edge. -/
theorem run_burst_perm_crowded :
    ∃ answers w v v', run apply { length := 10 } crowded = .ok (answers, w) ∧
      w.phase = .pending 12 22 ∧ scattered.Perm gathered ∧
      run apply w (burst scattered) = .ok (scattered.map (answerUntil 22), v) ∧
      run apply w (burst gathered) = .ok (gathered.map (answerUntil 22), v') ∧
      v'.tally.gapless = v.tally.gapless ∧ v'.phase = v.phase ∧
      (∃ report u u', v.poll 50 = .ok (.expired report, u) ∧
        v'.poll 50 = .ok (.expired report, u')) ∧ v'.unordered = v.unordered := by
  have hrun : (run apply { length := 10 } crowded).map (fun p =>
      (p.2.phase, p.2.tally.edges, p.2.carriedEdges)) = .ok (.pending 12 22, 4, 1) := rfl
  obtain ⟨⟨answers, w⟩, h, hw⟩ := map_eq_ok_iff.mp hrun
  obtain ⟨hphase, hcounts⟩ := Prod.mk.inj hw
  obtain ⟨hedges, hcarried⟩ := Prod.mk.inj hcounts
  have hperm : scattered.Perm gathered := by decide
  rcases run_burst_perm h hphase hperm with
    ⟨hfull, -⟩ | ⟨v, v', hv, hv', -, htally, hsame, ⟨report, hpolls⟩, hunordered⟩
  · rw [show w.tally.edges = 4 from hedges] at hfull
    exact absurd hfull (by decide)
  · obtain ⟨⟨u, hu⟩, u', hu'⟩ := hpolls 50 (by decide)
    have hwaiting : 0 < w.carriedEdges := by
      rw [show w.carriedEdges = 1 from hcarried]
      exact Nat.one_pos
    exact ⟨answers, w, v, v', h, hphase, hperm, hv, hv', htally, hsame, ⟨report, u, u', hu, hu'⟩,
      hunordered (.inl hwaiting)⟩

end Perm

end Windower

end Settle
