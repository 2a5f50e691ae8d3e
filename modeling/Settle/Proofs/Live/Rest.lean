import Settle.Proofs.Live.Core
import Settle.Proofs.Windower.Closings

/-!
# The timer comes to rest

A timer whose poll has closed a window signals the worker and polls again at once. It would spin if
polls could go on closing windows. They cannot: what closes is paid for by edges, except for two
windows (`Sound.closable_le`), and this holds of a live system whatever else its parties do in
between. So if no edge comes, the third poll at the latest closes nothing, and a timer that works
alone gets from any place to where it sleeps or leaves (`Sound.rests`).

Main statement: `timer_comes_to_rest`.
-/

namespace Settle.Live

/-- The instant of the edge that a sight shows. -/
def Sight.edge? : Sight → Option Instant
  | .edge now _ => some now
  | _ => none

/-- The instants of the edges. -/
def edgeInstants (sights : List Sight) : List Instant := sights.filterMap Sight.edge?

/-- What a poll said. -/
def Sight.verdict? : Sight → Option Verdict
  | .polled _ verdict => some verdict
  | _ => none

/-- What the polls said. -/
def verdicts (sights : List Sight) : List Verdict := sights.filterMap Sight.verdict?

/-- One more sight adds its instant if it is an edge. -/
theorem edgeInstants_concat (sights : List Sight) (x : Sight) :
    edgeInstants (sights ++ [x]) = edgeInstants sights ++ x.edge?.toList :=
  filterMap_concat _ _ _

/-- All edges are among the beats. -/
theorem edgeInstants_beats (sights : List Sight) :
    edgeInstants (beats sights) = edgeInstants sights := by
  refine filterMap_beats (fun x hx => ?_) sights
  cases x with
  | edge now answer => cases hx
  | _ => rfl

/-- The windows that close are those that polls close. -/
theorem closedReports_eq (sights : List Sight) :
    closedReports sights = (verdicts sights).filterMap Verdict.report? := by
  rw [closedReports, verdicts, List.filterMap_filterMap]
  refine List.filterMap_congr fun x _ => ?_
  cases x <;> rfl

/-- If fewer windows closed than there were polls, then one of the first polls closed nothing. -/
theorem exists_quiet_poll {sights : List Sight} {n : Nat} (hfew : (closedReports sights).length < n)
    (hpolls : n ≤ (verdicts sights).length) :
    ∃ verdict ∈ (verdicts sights).take n, verdict.report? = none := by
  by_contra hall
  have hfirst : ((verdicts sights).take n).countP (fun v => v.report?.isSome) = n := by
    rw [List.countP_eq_length.mpr, List.length_take, Nat.min_eq_left hpolls]
    intro verdict hverdict
    rw [Option.isSome_iff_ne_none]
    exact fun hnone => hall ⟨verdict, hverdict, hnone⟩
  have hle := (List.take_sublist n (verdicts sights)).countP_le (p := fun v => v.report?.isSome)
  rw [closedReports_eq, List.length_filterMap_eq_countP] at hfew
  omega

/-- What a beat closes, and what can be closed after it, is paid for by what could be closed before
it, and by the edge that it is. -/
theorem Beat.closable_le {c d : Core} {x : Sight} (h : Beat c x d) :
    x.closed?.toList.length + d.windower.closable ≤
      x.edge?.toList.length + c.windower.closable := by
  cases h with
  | edge act => exact (Nat.zero_add _).trans_le act.closable_le
  | closed act _ => exact act.closable_eq.trans_le (Nat.zero_add _).ge
  | torn => exact Nat.zero_le _
  | _ => exact Nat.le_refl _

namespace System

variable {s t : System} {actions : List Action} {sights : List Sight} {now : Instant} {n : Nat}

/-- In a whole run, what closes is paid for by the edges and by what could be closed before. -/
theorem Sound.closable_le (hs : s.Sound) {shown : List (List Sight)}
    (h : run System.step s actions = .ok (shown, t)) :
    (closedReports shown.flatten).length + t.hub.watch.windower.closable ≤
      (edgeInstants shown.flatten).length + s.hub.watch.windower.closable := by
  have hbeats := hs.core_induction (t := t)
    (P := fun sights c => (closedReports sights).length + c.windower.closable ≤
      (edgeInstants sights).length + s.hub.watch.windower.closable)
    (Nat.le_refl _) (fun sights c x d _ hpaid hbeat => ?_) h
  · rwa [closedReports_beats, edgeInstants_beats] at hbeats
  · have hstep := hbeat.closable_le
    rw [closedReports_concat, edgeInstants_concat, List.length_append, List.length_append]
    omega

/-! ## A timer that works alone -/

/-- The timer alone gets to where it sleeps or leaves, with at most `n` polls. -/
def Rests (n : Nat) (s : System) : Prop :=
  ∃ turns shown t, run System.step s (List.replicate turns .timer) = .ok (shown, t) ∧
    (verdicts shown.flatten).length ≤ n ∧ (t.timer.asleep = true ∨ t.timer = .leaving)

/-- A timer that sleeps or leaves is where it gets to. -/
theorem Rests.of_rest (h : s.timer.asleep = true ∨ s.timer = .leaving) : Rests n s :=
  ⟨0, [], s, rfl, Nat.zero_le n, h⟩

/-- One more act of the timer. -/
theorem Rests.of_step (done : s.step .timer = .ok (sights, t)) (h : Rests n t) :
    Rests ((verdicts sights).length + n) s := by
  obtain ⟨turns, shown, u, hrun, hpolls, hrest⟩ := h
  refine ⟨turns + 1, sights :: shown, u, ?_, ?_, hrest⟩
  · exact run_cons_eq_ok_iff.mpr ⟨sights, t, shown, done, hrun, rfl⟩
  · rw [List.flatten_cons, verdicts, List.filterMap_append, List.length_append]
    exact Nat.add_le_add_left hpolls _

/-- A timer that is up reads the clock. -/
theorem Rests.of_reading (stands : s.timer = .reading)
    (h : Rests n { s with timer := .polling s.clock }) : Rests n s :=
  Nat.zero_add n ▸ h.of_step (TimerCase.reading stands).step_eq

/-- A timer that has closed a window signals the worker. -/
theorem Rests.of_signalling (stands : s.timer = .signalling)
    (h : Rests n { s with hub := s.hub.raiseSignal, timer := .reading }) : Rests n s :=
  Nat.zero_add n ▸ h.of_step (TimerCase.signalling stands).step_eq

/-- A poll that closes nothing sends the timer to sleep, or away. -/
theorem rests_of_quiet {verdict : Verdict} (unclosed : ∀ report, verdict ≠ .expired report)
    (h : s.timer = afterPoll now verdict) : Rests n s := by
  refine Rests.of_rest ?_
  rw [h]
  cases verdict with
  | expired report => exact absurd rfl (unclosed report)
  | stop => exact .inr rfl
  | idle => exact .inl rfl
  | wait us => exact .inl rfl

/-- A timer that is about to poll closes what can be closed, and one poll more finds nothing. -/
theorem Sound.rests_of_polling (hs : s.Sound) (stands : s.timer = .polling now)
    (hn : s.hub.watch.windower.closable ≤ n) : Rests (1 + n) s := by
  -- Every poll that closes a window leaves one less to be closed.
  induction n using Nat.strongRecOn generalizing s now with
  | _ n ih =>
    obtain ⟨verdict, watch, hpoll⟩ := hs.exists_poll now
    have done := (TimerCase.polling stands hpoll).step_eq
    have hsound := hs.step done
    refine Rests.of_step done ?_
    cases Watch.poll_eq_ok hpoll with
    | quiet _ unclosed => exact rests_of_quiet unclosed rfl
    | @expired report windower coalesced asked _ =>
      have hused := (Windower.poll_eq_ok asked).closable_eq
      change 1 + windower.closable = _ at hused
      obtain ⟨m, rfl⟩ : ∃ m, n = 1 + m := Nat.exists_eq_add_of_le (by omega)
      refine Rests.of_signalling rfl (Rests.of_reading rfl ?_)
      refine ih m (by omega) (hsound.of_eq rfl rfl) rfl ?_
      change windower.closable ≤ m
      omega

/-- **A timer that works alone comes to rest**, wherever it stands, and three polls are enough. -/
theorem Sound.rests (hs : s.Sound) (stays : s.timer ≠ .stopped) : Rests 3 s := by
  have hpolling {u : System} {now : Instant} (hwatch : u.hub.watch = s.hub.watch)
      (hworker : u.worker = s.worker) (stands : u.timer = .polling now) : Rests 3 u :=
    (hs.of_eq hwatch hworker).rests_of_polling stands (Windower.closable_le_two _)
  cases htimer : s.timer with
  | reading => exact .of_reading htimer (hpolling rfl rfl rfl)
  | polling now => exact hpolling rfl rfl htimer
  | parking => exact .of_rest (.inl (by rw [htimer]; rfl))
  | napping polled us => exact .of_rest (.inl (by rw [htimer]; rfl))
  | signalling => exact .of_signalling htimer (.of_reading rfl (hpolling rfl rfl rfl))
  | leaving => exact .of_rest (.inr htimer)
  | stopped => exact absurd htimer stays

/-! ## The main statement -/

/-- **The timer cannot spin.** Take any state of a windower and any operations: at most two windows
more close than there are edges, and at most one window more is opened by carried edges. The same
holds from any reachable system on, whatever its parties do; if no edge comes, one of the first
three polls closes nothing. And a timer that has not stopped, if only it works, gets to where it
sleeps or leaves with at most three polls. -/
theorem timer_comes_to_rest :
    (∀ (w : Windower) (ops : List Windower.Op),
      (Windower.closings (trace Windower.apply w ops)).length ≤
          (Windower.edgeTimes ops).length + 2 ∧
        (Windower.reopenings (trace Windower.apply w ops)).length ≤
          (Windower.edgeTimes ops).length + 1) ∧
    ∀ {settings : Settings} {level : Bool} {line : Line} {actions : List Action}
      {shown : List (List Sight)} {s : System},
      run System.step (start settings level line) actions = .ok (shown, s) →
      (∀ {actions' : List Action} {shown' : List (List Sight)} {t : System},
        run System.step s actions' = .ok (shown', t) →
        (closedReports shown'.flatten).length ≤ (edgeInstants shown'.flatten).length + 2 ∧
        (edgeInstants shown'.flatten = [] → 3 ≤ (verdicts shown'.flatten).length →
          ∃ verdict ∈ (verdicts shown'.flatten).take 3, verdict.report? = none)) ∧
      (s.timer ≠ .stopped →
        ∃ turns shown' t, run System.step s (List.replicate turns .timer) = .ok (shown', t) ∧
          (verdicts shown'.flatten).length ≤ 3 ∧
          (t.timer.asleep = true ∨ t.timer = .leaving)) := by
  refine ⟨fun w ops => ⟨Windower.closings_le w ops, Windower.reopenings_le w ops⟩, ?_⟩
  intro settings level line actions shown s h
  have hs := sound_of_run h
  refine ⟨?_, hs.rests⟩
  intro actions' shown' t hmore
  have hclosed : (closedReports shown'.flatten).length ≤
      (edgeInstants shown'.flatten).length + 2 := by
    have hpaid := hs.closable_le hmore
    have htwo := s.hub.watch.windower.closable_le_two
    omega
  refine ⟨hclosed, fun hnone hthree => ?_⟩
  rw [hnone, List.length_nil] at hclosed
  exact exists_quiet_poll (Nat.lt_succ_of_le hclosed) hthree

/-- A window is open, an edge came too late for it, and the clock has passed both deadlines. -/
def crowdedTimer : List Action :=
  [.edge 0, .edge 60000, .advance 200000]

/-- Two polls close the two windows, and the third sends the timer to park. -/
theorem timer_comes_to_rest_crowdedTimer :
    ∃ shown s shown' t, run System.step (start {} false {}) crowdedTimer = .ok (shown, s) ∧
      run System.step s (List.replicate 8 .timer) = .ok (shown', t) ∧
      edgeInstants shown'.flatten = [] ∧
      verdicts shown'.flatten =
        [.expired ⟨0, 50000, 1, 1⟩, .expired ⟨60000, 110000, 1, 2⟩, .idle] ∧
      t.timer = .parking ∧
      (closedReports shown'.flatten).length ≤ 2 ∧
      (∃ verdict ∈ (verdicts shown'.flatten).take 3, verdict.report? = none) ∧ Rests 3 s := by
  have hrun : (run System.step (start {} false {}) crowdedTimer).map (fun p =>
      (p.2.timer, (run System.step p.2 (List.replicate 8 .timer)).map fun q =>
        (edgeInstants q.1.flatten, verdicts q.1.flatten, q.2.timer))) =
      .ok (.reading, .ok ([],
        [.expired ⟨0, 50000, 1, 1⟩, .expired ⟨60000, 110000, 1, 2⟩, .idle], .parking)) := by
    decide +kernel
  obtain ⟨⟨shown, s⟩, h, hs⟩ := map_eq_ok_iff.mp hrun
  obtain ⟨htimer, hmore⟩ := Prod.mk.inj hs
  obtain ⟨⟨shown', t⟩, h', ht⟩ := map_eq_ok_iff.mp hmore
  simp only [Prod.mk.injEq] at ht
  obtain ⟨hedges, hverdicts, hparks⟩ := ht
  obtain ⟨hquiet, hrests⟩ := timer_comes_to_rest.2 h
  obtain ⟨hclosed, hpoll⟩ := hquiet h'
  rw [hedges] at hclosed
  refine ⟨shown, s, shown', t, h, h', hedges, hverdicts, hparks, hclosed, hpoll hedges ?_, ?_⟩
  · rw [hverdicts]
    exact Nat.le_refl 3
  · exact hrests (by rw [htimer]; exact TimerAt.noConfusion)

end System

end Settle.Live
