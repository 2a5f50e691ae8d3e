import Settle.Proofs.Windower.Steps

/-!
# The counts of a windower bound each other

Each window has an edge of its own: the one that opened it, or the first of those that were carried
into it. So no more windows close than edges are counted, and what is subtracted is never more than
what is there (`Bounded`). This holds in whatever order the operations come, and it is the reason
why an operation on a windower halts only for want of room: an edge, when there are as many edges as
a word can count (`Bounded.exists_edge`), and a poll never (`Bounded.exists_poll`).
-/

namespace Settle

/-! ## Arithmetic that has room -/

namespace Word

/-- Words whose sum fits are added. -/
theorem exists_plus {a b : UInt64} (h : a.toNat + b.toNat < UInt64.size) : ∃ c, plus a b = .ok c :=
  ⟨a + b, if_pos h⟩

/-- A word that is not larger is taken away. -/
theorem exists_minus {a b : UInt64} (h : b.toNat ≤ a.toNat) : ∃ c, minus a b = .ok c :=
  ⟨a - b, if_pos (UInt64.le_iff_toNat_le.mpr h)⟩

end Word

/-! ## The edges that a windower has in hand -/

/-- A window has an edge of its own, and so has the one that the carried edges are going to open. -/
structure OpenWindow.Filled (w : OpenWindow) : Prop where
  edges : 0 < w.edges.toNat
  carried : ∀ c, w.carried = some c → 0 < c.edges.toNat

namespace Windower

variable {w v : Windower} {now : Instant} {armable : Bool}

/-- The number of edges in the open window, the carried ones apart. -/
def insideEdges (w : Windower) : Nat :=
  match w.activity with
  | .collecting window => window.edges.toNat
  | _ => 0

/-- The number of carried edges. -/
def carriedEdges (w : Windower) : Nat :=
  match w.activity with
  | .collecting window => window.carriedEdges.toNat
  | _ => 0

/-- The edges in an open window are those that it counts. -/
theorem insideEdges_of_collecting {window : OpenWindow} (h : w.activity = .collecting window) :
    w.insideEdges = window.edges.toNat := by
  rw [insideEdges, h]

/-- The edges carried with an open window are those that it counts apart. -/
theorem carriedEdges_of_collecting {window : OpenWindow} (h : w.activity = .collecting window) :
    w.carriedEdges = window.carriedEdges.toNat := by
  rw [carriedEdges, h]

/-- Without a window there are no edges in it. -/
theorem insideEdges_of_idle (h : w.activity = .idle) : w.insideEdges = 0 := by
  rw [insideEdges, h]

/-- Without a window no edges are carried. -/
theorem carriedEdges_of_idle (h : w.activity = .idle) : w.carriedEdges = 0 := by
  rw [carriedEdges, h]

/-- The teardown gives up the edges in the window. -/
@[simp] theorem insideEdges_disarm (w : Windower) : w.disarm.2.insideEdges = 0 := rfl

/-- It gives up the carried edges too. -/
@[simp] theorem carriedEdges_disarm (w : Windower) : w.disarm.2.carriedEdges = 0 := rfl

/-- A window that closes hands its carried edges to the next one, which has none carried. -/
theorem insideEdges_next {window : OpenWindow} {length : Micros}
    (h : w.activity = window.next length) : w.insideEdges = window.carriedEdges.toNat := by
  rw [insideEdges, h, OpenWindow.next, OpenWindow.carriedEdges]
  cases window.carried <;> rfl

/-- After a window has closed no edges are carried: those that were are in the next one. -/
theorem carriedEdges_next {window : OpenWindow} {length : Micros}
    (h : w.activity = window.next length) : w.carriedEdges = 0 := by
  rw [carriedEdges, h, OpenWindow.next]
  cases window.carried <;> rfl

/-- The counts of a windower bound each other. -/
structure Bounded (w : Windower) : Prop where
  /-- There are as many edges as closed windows, edges without a window, and edges in hand. -/
  edges : w.tally.closed.toNat + w.tally.unarmed.toNat + w.insideEdges + w.carriedEdges ≤
    w.tally.edges.toNat
  /-- The open window has edges. -/
  filled : ∀ window, w.activity = .collecting window → window.Filled

/-- A new windower has counted nothing. -/
theorem bounded_new (length : Micros) : Bounded { length } where
  edges := Nat.le_refl 0
  filled _ h := nomatch h

/-- The bounds are about three counts and the open window only. -/
theorem Bounded.of_eq (hw : w.Bounded) (hactivity : v.activity = w.activity)
    (hclosed : v.tally.closed = w.tally.closed) (hunarmed : v.tally.unarmed = w.tally.unarmed)
    (hedges : v.tally.edges = w.tally.edges) : v.Bounded where
  edges := by
    have hbound := hw.edges
    rw [insideEdges, carriedEdges] at hbound ⊢
    rw [hactivity, hclosed, hunarmed, hedges]
    exact hbound
  filled window h := hw.filled window (hactivity ▸ h)

/-! ## Each operation keeps the bounds -/

/-- An edge that is counted adds one to the edges and one to what becomes of them. -/
theorem Bounded.edge (hw : w.Bounded) {answer : EdgeAnswer}
    (h : EdgeCase w now armable answer v) : v.Bounded := by
  have hbound := hw.edges
  cases h with
  | ignored _ => exact hw
  | opened idle _ count =>
    rw [insideEdges_of_idle idle, carriedEdges_of_idle idle] at hbound
    refine ⟨?_, fun window hwindow => ?_⟩
    · simp only [counted, insideEdges, carriedEdges, OpenWindow.carriedEdges, UInt64.toNat_one,
        UInt64.toNat_zero]
      omega
    · cases hwindow
      refine ⟨Nat.one_pos, fun c hnone => ?_⟩
      cases hnone
  | degraded idle _ count missed =>
    rw [insideEdges_of_idle idle, carriedEdges_of_idle idle] at hbound
    refine ⟨?_, fun window hwindow => ?_⟩
    · simp only [counted, insideEdges, carriedEdges, idle]
      omega
    · exact hw.filled window hwindow
  | absorbed collecting _ count more =>
    have hfilled := hw.filled _ collecting
    rw [insideEdges_of_collecting collecting, carriedEdges_of_collecting collecting] at hbound
    refine ⟨?_, fun window hwindow => ?_⟩
    · simp only [counted, insideEdges, carriedEdges, OpenWindow.carriedEdges] at hbound ⊢
      omega
    · cases hwindow
      exact ⟨by simp only [more]; omega, hfilled.carried⟩
  | carried collecting _ count more =>
    have hfilled := hw.filled _ collecting
    rw [insideEdges_of_collecting collecting, carriedEdges_of_collecting collecting] at hbound
    refine ⟨?_, fun window hwindow => ?_⟩
    · simp only [counted, insideEdges, carriedEdges]
      simp only [OpenWindow.carriedEdges] at hbound more ⊢
      omega
    · cases hwindow
      refine ⟨hfilled.edges, fun c hc => ?_⟩
      cases hc
      simp only [more]
      omega

/-- A closed window is paid for by its own edges, which are no longer in hand. -/
theorem Bounded.poll (hw : w.Bounded) {verdict : Verdict} (h : PollCase w now verdict v) :
    v.Bounded := by
  cases h with
  | stop _ => exact hw
  | idle _ => exact hw
  | wait _ _ _ => exact hw
  | @expired window total closed collecting _ _ count =>
    have hbound := hw.edges
    have hfilled := hw.filled _ collecting
    have hown := hfilled.edges
    rw [insideEdges_of_collecting collecting, carriedEdges_of_collecting collecting] at hbound
    refine ⟨?_, fun next hnext => ?_⟩
    · rw [insideEdges_next rfl, carriedEdges_next rfl]
      show closed.toNat + w.tally.unarmed.toNat + window.carriedEdges.toNat + 0 ≤
        w.tally.edges.toNat
      omega
    · change window.next w.length = .collecting next at hnext
      unfold OpenWindow.next at hnext
      split at hnext
      · cases hnext
      · next c hc =>
        cases hnext
        exact ⟨hfilled.carried c hc, fun _ hnone => nomatch hnone⟩

/-- The teardown adds nothing. -/
theorem Bounded.disarm (hw : w.Bounded) : w.disarm.2.Bounded where
  edges := by
    have hbound := hw.edges
    rw [insideEdges_disarm, carriedEdges_disarm, tally_disarm]
    omega
  filled _ h := nomatch h

/-- An edge is counted at most once. -/
theorem EdgeCase.edges_le {answer : EdgeAnswer} (h : EdgeCase w now armable answer v) :
    v.tally.edges.toNat ≤ w.tally.edges.toNat + 1 := by
  rw [h.edges_eq]
  split <;> omega

/-! ## Operations that do not halt -/

/-- An edge is accepted as long as there is a word for the number of edges. -/
theorem exists_accept (now : Instant) (room : w.tally.edges.toNat + 1 < UInt64.size) :
    ∃ v, w.accept now = .ok v := by
  obtain ⟨edges, hplus⟩ := Word.exists_plus (a := w.tally.edges) (b := 1) room
  refine ⟨_, bind_eq_ok_iff.mpr ⟨edges, hplus, rfl⟩⟩

/-- An edge does not halt as long as there is a word for the number of edges. -/
theorem Bounded.exists_edge (hw : w.Bounded) (now : Instant) (armable : Bool)
    (room : w.tally.edges.toNat + 1 < UInt64.size) :
    ∃ answer v, w.edge now armable = .ok (answer, v) := by
  have hbound := hw.edges
  obtain ⟨u, haccept⟩ := exists_accept now room
  obtain ⟨edges, shortest, longest, -, rfl⟩ := accept_eq_ok haccept
  unfold Windower.edge
  cases hact : w.activity with
  | disarmed => exact ⟨_, _, rfl⟩
  | idle =>
    cases armable with
    | true => exact ⟨_, _, bind_eq_ok_iff.mpr ⟨_, haccept, rfl⟩⟩
    | false =>
      obtain ⟨unarmed, hplus⟩ := Word.exists_plus (a := w.tally.unarmed) (b := 1)
        (by simp only [UInt64.toNat_one]; omega)
      exact ⟨_, _, bind_eq_ok_iff.mpr ⟨_, haccept, bind_eq_ok_iff.mpr ⟨unarmed, hplus, rfl⟩⟩⟩
  | collecting window =>
    rw [insideEdges_of_collecting hact, carriedEdges_of_collecting hact] at hbound
    have htake : ∃ p, window.take now = .ok p := by
      unfold OpenWindow.take
      split
      · obtain ⟨waiting, hplus⟩ := Word.exists_plus (a := window.carriedEdges) (b := 1)
          (by simp only [UInt64.toNat_one]; omega)
        exact ⟨_, bind_eq_ok_iff.mpr ⟨waiting, hplus, rfl⟩⟩
      · obtain ⟨inside, hplus⟩ := Word.exists_plus (a := window.edges) (b := 1)
          (by simp only [UInt64.toNat_one]; omega)
        exact ⟨_, bind_eq_ok_iff.mpr ⟨inside, hplus, rfl⟩⟩
    obtain ⟨⟨outcome, window'⟩, htake⟩ := htake
    exact ⟨_, _, bind_eq_ok_iff.mpr ⟨_, haccept, bind_eq_ok_iff.mpr ⟨_, htake, rfl⟩⟩⟩

/-- A poll never halts. -/
theorem Bounded.exists_poll (hw : w.Bounded) (now : Instant) :
    ∃ verdict v, w.poll now = .ok (verdict, v) := by
  have hbound := hw.edges
  have hword := w.tally.edges.toNat_lt
  unfold Windower.poll
  cases hact : w.activity with
  | disarmed => exact ⟨_, _, rfl⟩
  | idle => exact ⟨_, _, rfl⟩
  | collecting window =>
    have hown := (hw.filled window hact).edges
    rw [insideEdges_of_collecting hact, carriedEdges_of_collecting hact] at hbound
    by_cases hearly : now < window.deadline
    · obtain ⟨us, hminus⟩ := Word.exists_minus (UInt64.le_iff_toNat_le.mp (UInt64.le_of_lt hearly))
      simp only [if_pos hearly]
      exact ⟨_, _, bind_eq_ok_iff.mpr ⟨us, hminus, rfl⟩⟩
    · obtain ⟨total, hminus⟩ := Word.exists_minus (a := w.tally.edges) (b := window.carriedEdges)
        (by omega)
      obtain ⟨closed, hplus⟩ := Word.exists_plus (a := w.tally.closed) (b := 1)
        (by simp only [UInt64.toNat_one, UInt64.size]; omega)
      simp only [if_neg hearly]
      exact ⟨_, _, bind_eq_ok_iff.mpr ⟨total, hminus, bind_eq_ok_iff.mpr ⟨closed, hplus, rfl⟩⟩⟩

end Windower

end Settle
