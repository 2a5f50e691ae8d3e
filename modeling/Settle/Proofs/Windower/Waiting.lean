import Settle.Proofs.Windower.Attribution

/-!
# What a timer may rely on while it sleeps

A timer that is told to wait goes to sleep for as long as it was told. Nobody wakes it when an edge
comes, so what it was told must stay true whatever comes in the meantime. It does, because an open
window keeps the instant at which it opened and its deadline (`phase_of_run`): edges are counted in
it or carried past it, in whatever order their stamps are, and neither restarts it. Only the teardown
and a poll at or past the deadline end it.

Main statement: `wait_stays_exact`.
-/

namespace Settle.Windower

variable {length : Micros} {ops : List Op} {op : Op} {answers : List Answer} {answer : Answer}
  {w v : Windower} {now opened due : Instant}

/-! ## One operation while a window is open -/

/-- An edge leaves the open window's bounds alone, and asks the timer for nothing. -/
theorem EdgeCase.pending {armable : Bool} {answer : EdgeAnswer} (h : EdgeCase w now armable answer v)
    (hphase : w.phase = .pending opened due) :
    v.phase = .pending opened due ∧ answer.asked = none := by
  obtain ⟨window, hwindow, rfl, rfl⟩ := exists_collecting_of_phase hphase
  cases h with
  | ignored torn => exact nomatch hwindow.symm.trans torn
  | opened idle _ _ => exact nomatch hwindow.symm.trans idle
  | degraded idle _ _ _ => exact nomatch hwindow.symm.trans idle
  | absorbed collecting _ _ _ =>
    obtain rfl := Activity.collecting.inj (hwindow.symm.trans collecting)
    exact ⟨rfl, rfl⟩
  | carried collecting _ _ _ =>
    obtain rfl := Activity.collecting.inj (hwindow.symm.trans collecting)
    exact ⟨rfl, rfl⟩

/-- A poll before the deadline tells the time that is left and changes nothing, and a poll at or past
it reports the window. -/
theorem PollCase.pending {verdict : Verdict} (h : PollCase w now verdict v)
    (hphase : w.phase = .pending opened due) :
    (now < due → v = w ∧ ∃ rest, verdict = .wait rest ∧ rest.toNat + now.toNat = due.toNat) ∧
      (due ≤ now →
        ∃ report, verdict = .expired report ∧ report.opened = opened ∧ report.deadline = due) := by
  obtain ⟨window, hwindow, rfl, rfl⟩ := exists_collecting_of_phase hphase
  cases h with
  | stop torn => exact nomatch hwindow.symm.trans torn
  | idle idle => exact nomatch hwindow.symm.trans idle
  | wait collecting early rest =>
    obtain rfl := Activity.collecting.inj (hwindow.symm.trans collecting)
    exact ⟨fun _ => ⟨rfl, _, rfl, rest⟩, fun hdue => absurd early (UInt64.not_lt.mpr hdue)⟩
  | expired collecting due _ _ =>
    obtain rfl := Activity.collecting.inj (hwindow.symm.trans collecting)
    exact ⟨fun hearly => absurd hearly (UInt64.not_lt.mpr due), fun _ => ⟨_, rfl, rfl, rfl⟩⟩

/-- Whether an operation lets a window be that is open until `due`. -/
def Op.spares (due : Instant) : Op → Bool
  | .edge _ _ => true
  | .poll now => now < due
  | .deliver => true
  | .disarm => false

/-- What spares the open window leaves its bounds alone. -/
theorem ApplyCase.phase_eq (h : ApplyCase w op answer v) (hphase : w.phase = .pending opened due)
    (spares : op.spares due = true) : v.phase = .pending opened due := by
  cases h with
  | edge act => exact (act.pending hphase).1
  | poll act =>
    obtain ⟨rfl, -⟩ := (act.pending hphase).1 (of_decide_eq_true spares)
    exact hphase
  | deliver _ _ => exact hphase
  | disarm => exact nomatch spares

/-- **Windows are never restarted.** Whatever comes, a window stays open with the bounds that it has,
until it is due or torn down. -/
theorem phase_of_run (h : run apply w ops = .ok (answers, v))
    (hphase : w.phase = .pending opened due) (spares : ∀ op ∈ ops, op.spares due = true) :
    v.phase = .pending opened due := by
  refine run_induction (P := fun ops _ v => (∀ op ∈ ops, op.spares due = true) →
    v.phase = .pending opened due) (fun _ => hphase) ?_ h spares
  intro ops answers m op answer v _ ih hstep spares
  rw [List.forall_mem_append] at spares
  exact (apply_eq_ok hstep).phase_eq (ih spares.1) (spares.2 op (List.mem_singleton_self op))

/-! ## Edges for which there is no room -/

/-- An edge that is not ignored halts when there is no word left for the number of edges. -/
theorem edge_eq_error (armable : Bool) (hactive : w.activity ≠ .disarmed)
    (full : UInt64.size ≤ w.tally.edges.toNat + 1) : w.edge now armable = .error .sumTooLarge := by
  have haccept : w.accept now = .error .sumTooLarge := by
    rw [accept, (Word.plus_eq_error_iff _ _ _).mpr ⟨rfl, full⟩]
    rfl
  unfold edge
  cases hact : w.activity with
  | disarmed => exact absurd hact hactive
  | idle => simp only [haccept]; rfl
  | collecting window => simp only [haccept]; rfl

/-! ## The wait -/

/-- **A wait stays exact.** If the timer is told to wait, then it waits for at least a microsecond,
and the deadline of the open window is when the wait ends. After any edges, polls and deliveries of
which no poll is as late as that, an edge asks the timer for nothing, and halts only if there is no
word left to count it; a poll before the deadline is told to wait until the same instant; and the
first poll at or past it gets the report of that very window. -/
theorem wait_stays_exact (h : run apply { length } ops = .ok (answers, w)) {us : Micros}
    (wait : w.poll now = .ok (.wait us, v)) :
    1 ≤ us.toNat ∧ ∃ opened due : Instant,
      w.phase = .pending opened due ∧ due.toNat = now.toNat + us.toNat ∧
      ∀ between answers' u, (∀ op ∈ between, op.spares due = true) →
        run apply v between = .ok (answers', u) →
        (∀ t armable,
          (∃ answer u', u.edge t armable = .ok (answer, u') ∧ answer.asked = none) ∨
            (u.edge t armable = .error .sumTooLarge ∧
              u.tally.edges.toNat + 1 = UInt64.size)) ∧
        (∀ t, t < due → ∃ rest, u.poll t = .ok (.wait rest, u) ∧
          rest.toNat = now.toNat + us.toNat - t.toNat) ∧
        ∀ t, due ≤ t → ∃ report u', u.poll t = .ok (.expired report, u') ∧
          report.opened = opened ∧ report.deadline = due := by
  cases poll_eq_ok wait with
  | @wait window _ collecting early rest =>
    rw [UInt64.lt_iff_toNat_lt] at early
    refine ⟨by omega, window.opened, window.deadline, phase_of_collecting collecting, by omega, ?_⟩
    intro between answers' u hbetween hrun
    have hphase := phase_of_run hrun (phase_of_collecting collecting) hbetween
    have hbounded : u.Bounded :=
      run_invariant (bounded_of_run h) (fun _ _ _ _ hm hstep => hm.step hstep) hrun
    refine ⟨fun t armable => ?_, fun t hearly => ?_, fun t hdue => ?_⟩
    · by_cases room : u.tally.edges.toNat + 1 < UInt64.size
      · obtain ⟨answer, u', hedge⟩ := hbounded.exists_edge t armable room
        exact .inl ⟨answer, u', hedge, ((edge_eq_ok hedge).pending hphase).2⟩
      · have hactive : u.activity ≠ .disarmed := by
          obtain ⟨window', hwindow', -⟩ := exists_collecting_of_phase hphase
          simp [hwindow']
        have hword := u.tally.edges.toNat_lt
        exact .inr ⟨edge_eq_error armable hactive (Nat.not_lt.mp room),
          Nat.le_antisymm hword (Nat.not_lt.mp room)⟩
    · obtain ⟨verdict, u', hpoll⟩ := hbounded.exists_poll t
      obtain ⟨rfl, left, rfl, hleft⟩ := ((poll_eq_ok hpoll).pending hphase).1 hearly
      exact ⟨left, hpoll, by omega⟩
    · obtain ⟨verdict, u', hpoll⟩ := hbounded.exists_poll t
      obtain ⟨report, rfl, hopened, hdeadline⟩ := ((poll_eq_ok hpoll).pending hphase).2 hdue
      exact ⟨report, u', hpoll, hopened, hdeadline⟩

/-- The open window was made of a carried edge. -/
def reopened : List Op := [.edge 0 true, .edge 12 true, .edge 31 true, .poll 13]

/-- Edges from the past, from far past the deadline and without a timer, and early polls. -/
def storm : List Op :=
  [.edge 3 false, .edge 40 true, .poll 1, .deliver, .edge 22 false, .poll 21, .edge 21 true]

/-- The timer is told at 15 to wait until 22, and at 22 it gets the window that was open at 15. -/
theorem wait_stays_exact_storm :
    ∃ answers w v answers' u, run apply { length := 10 } reopened = .ok (answers, w) ∧
      w.poll 15 = .ok (.wait 7, v) ∧ run apply v storm = .ok (answers', u) ∧
      w.phase = .pending 12 22 ∧
      (∃ rest, u.poll 20 = .ok (.wait rest, u) ∧ rest.toNat = 2) ∧
      (∃ report u', u.poll 22 = .ok (.expired report, u') ∧ report.opened = 12 ∧
        report.deadline = 22) ∧
      ∃ answer u', u.edge 99 false = .ok (answer, u') ∧ answer.asked = none := by
  have hrun : (run apply { length := 10 } reopened).map (fun p =>
      (p.2.phase, (p.2.poll 15).map fun q =>
        (q.1, (run apply q.2 storm).map fun r => r.2.tally.edges))) =
      .ok (.pending 12 22, .ok (.wait 7, .ok 7)) := rfl
  obtain ⟨⟨answers, w⟩, h, hw⟩ := map_eq_ok_iff.mp hrun
  obtain ⟨hphase, hpoll⟩ := Prod.mk.inj hw
  obtain ⟨⟨verdict, v⟩, wait, hv⟩ := map_eq_ok_iff.mp hpoll
  obtain ⟨rfl, hstorm⟩ := Prod.mk.inj hv
  obtain ⟨⟨answers', u⟩, hbetween, hedges⟩ := map_eq_ok_iff.mp hstorm
  obtain ⟨-, opened, due, hpending, -, hkeeps⟩ := wait_stays_exact h wait
  obtain ⟨rfl, rfl⟩ := Phase.pending.inj (hphase.symm.trans hpending)
  obtain ⟨hedge, hearly, hdue⟩ := hkeeps storm answers' u (by decide) hbetween
  refine ⟨answers, w, v, answers', u, h, wait, hbetween, hphase, hearly 20 (by decide),
    hdue 22 (by decide), ?_⟩
  rcases hedge 99 false with hasked | ⟨-, hfull⟩
  · exact hasked
  · rw [show u.tally.edges = 7 from hedges] at hfull
    exact nomatch hfull

end Settle.Windower
