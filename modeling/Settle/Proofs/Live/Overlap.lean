import Settle.Proofs.Live.Core

/-!
# When windows overlap

A window that was opened by a carried edge begins at or past the deadline of the window before it.
The other windows are opened by an edge that finds no window open, and they begin at the instant
that the edge brings with it. A producer reads that instant from the clock, and its edge is taken in
later. In between, the timer may read the clock as well and close a window that reaches beyond the
instant that the producer has read. Then the window that this edge opens overlaps the one that was
closed (`staleReading_overlaps`).

This is the only way: two windows that close one after the other overlap just if the second was
opened by an edge that is older than the deadline of the first, and if all instants are read from
the clock, then the reading of this edge was made before the first window closed, and held back.

Main statement: `overlap_iff`.
-/

namespace Settle.Live

/-- The instant of an edge that a sight shows to open a window. -/
def Sight.opening? : Sight → Option Instant
  | .edge now answer => if answer.outcome.opensWindow then some now else none
  | _ => none

/-- The instants of the edges that opened a window. -/
def openings (sights : List Sight) : List Instant := sights.filterMap Sight.opening?

/-- The openings among sights are those of each part. -/
theorem openings_append (sights sights' : List Sight) :
    openings (sights ++ sights') = openings sights ++ openings sights' :=
  List.filterMap_append

/-- The openings up to a sight are those before it and the one it shows. -/
theorem openings_concat (sights : List Sight) (x : Sight) :
    openings (sights ++ [x]) = openings sights ++ x.opening?.toList :=
  filterMap_concat _ _ _

/-- The openings can be told from the beats. -/
theorem openings_beats (sights : List Sight) : openings (beats sights) = openings sights := by
  refine filterMap_beats (fun x hx => ?_) sights
  cases x with
  | edge now answer => cases hx
  | _ => rfl

/-! ## What opens the next window -/

/-- The open window keeps its shape at every beat. -/
theorem Beat.shaped {c d : Core} {x : Sight} (h : Beat c x d) (hc : c.windower.Shaped) :
    d.windower.Shaped := by
  cases h with
  | edge act => exact hc.edge act
  | closed act _ => exact (hc.poll act).of_eq rfl rfl
  | torn => exact .disarm _
  | _ => exact hc.of_eq rfl rfl

/-- Since a window with the deadline `deadline` has closed, none has closed; so the open window was
opened by the only edge that opened one, or, if there is none, it is the window of the carried
edges. -/
def Since (deadline : Instant) (shown : List Sight) (c : Core) : Prop :=
  closedReports shown = [] →
    (c.windower.activity = .idle → openings shown = []) ∧
    ∀ window, c.windower.activity = .collecting window →
      openings shown = [window.opened] ∨ (openings shown = [] ∧ deadline ≤ window.opened)

namespace Since

variable {deadline : Instant} {shown : List Sight} {c d : Core} {x : Sight}

/-- Most beats do not touch the open window. -/
theorem still (h : Since deadline shown c) (hopening : x.opening? = none)
    (hactivity : d.windower.activity = c.windower.activity) :
    Since deadline (shown ++ [x]) d := by
  intro hclosed
  rw [closedReports_concat, List.append_eq_nil_iff] at hclosed
  rw [openings_concat, hopening, Option.toList_none, List.append_nil, hactivity]
  exact h hclosed.1

/-- An edge that opens a window is the first to do so since the last window closed. -/
theorem edge (h : Since deadline shown c) {now : Instant} {armable : Bool} {answer : EdgeAnswer}
    {windower : Windower}
    (act : Windower.EdgeCase c.windower now armable answer windower) :
    Since deadline (shown ++ [.edge now answer]) { c with windower } := by
  cases act with
  | ignored _ => exact h.still rfl rfl
  | degraded _ _ _ _ => exact h.still rfl rfl
  | opened idle _ _ =>
    intro hclosed
    rw [closedReports_concat, List.append_eq_nil_iff] at hclosed
    refine ⟨Activity.noConfusion, ?_⟩
    rintro _ ⟨⟩
    rw [openings_concat, (h hclosed.1).1 idle]
    exact .inl rfl
  | absorbed collecting _ _ _ | carried collecting _ _ _ =>
    intro hclosed
    rw [closedReports_concat, List.append_eq_nil_iff] at hclosed
    refine ⟨Activity.noConfusion, ?_⟩
    rintro _ ⟨⟩
    rw [openings_concat]
    simp only [Sight.opening?, Outcome.opensWindow, Bool.false_eq_true, if_false,
      Option.toList_none, List.append_nil]
    exact (h hclosed.1).2 _ collecting

/-- No beat but another closing ends the time since a window has closed. -/
theorem beat (h : Since deadline shown c) (hbeat : Beat c x d) :
    Since deadline (shown ++ [x]) d := by
  cases hbeat with
  | edge act => exact h.edge act
  | closed _ _ =>
    intro hclosed
    rw [closedReports_concat, List.append_eq_nil_iff] at hclosed
    cases hclosed.2
  | torn => exact fun _ => ⟨Activity.noConfusion, fun _ hdis => nomatch hdis⟩
  | _ => exact h.still rfl rfl

end Since

namespace System

variable {s t : System} {a : Action} {actions : List Action} {sights : List Sight}
  {shown : List (List Sight)} {settings : Settings} {level : Bool} {line : Line}

/-- The windower of a reachable system has the shape of a reachable windower. -/
theorem shaped_of_run
    (h : run System.step (start settings level line) actions = .ok (shown, s)) :
    s.hub.watch.windower.Shaped :=
  (sound_start settings level line).core_induction (P := fun _ c => c.windower.Shaped)
    (Windower.shaped_new _) (fun _ _ _ _ _ hc hbeat => hbeat.shaped hc) h

/-! ## Readings of the clock -/

/-- The parties of the system leave the clock and the producers alone. -/
theorem TimerCase.clock_eq (h : TimerCase s sights t) :
    t.clock = s.clock ∧ t.stamps = s.stamps := by
  cases h <;> exact ⟨rfl, rfl⟩

/-- The worker moves neither the clock nor the producers. -/
theorem WorkerCase.clock_eq (h : WorkerCase s sights t) :
    t.clock = s.clock ∧ t.stamps = s.stamps := by
  cases h <;> exact ⟨rfl, rfl⟩

/-- The shutdown moves neither the clock nor the producers. -/
theorem ClosingCase.clock_eq (h : ClosingCase s sights t) :
    t.clock = s.clock ∧ t.stamps = s.stamps := by
  cases h <;> exact ⟨rfl, rfl⟩

/-- The clock never goes back. -/
theorem StepCase.clock_le (h : StepCase s a sights t) : s.clock ≤ t.clock := by
  cases h with
  | advance later => exact later
  | timer act => exact act.clock_eq.1 ▸ UInt64.le_refl _
  | worker act => exact act.clock_eq.1 ▸ UInt64.le_refl _
  | closing act => exact act.clock_eq.1 ▸ UInt64.le_refl _
  | _ => exact UInt64.le_refl _

/-- What a producer holds was held before, or is what the clock shows. -/
theorem StepCase.stamps_cases (h : StepCase s a sights t) {stamp : Instant}
    (hstamp : stamp ∈ t.stamps) : stamp ∈ s.stamps ∨ stamp = s.clock := by
  cases h with
  | stamp =>
    rcases List.mem_append.mp hstamp with hstamp | hstamp
    · exact .inl hstamp
    · exact .inr (List.mem_singleton.mp hstamp)
  | enter _ _ => exact .inl (List.mem_of_mem_eraseIdx hstamp)
  | timer act => exact .inl (act.clock_eq.2 ▸ hstamp)
  | worker act => exact .inl (act.clock_eq.2 ▸ hstamp)
  | closing act => exact .inl (act.clock_eq.2 ▸ hstamp)
  | _ => exact .inl hstamp

/-- What the timer polls with was held before, or is what the clock shows. -/
theorem StepCase.polling_cases (h : StepCase s a sights t) {now : Instant}
    (hpolls : t.timer = .polling now) : s.timer = .polling now ∨ now = s.clock := by
  cases h with
  | timer act =>
    cases act with
    | reading _ => exact .inr (TimerAt.polling.inj hpolls).symm
    | @polling polled verdict _ _ _ =>
      change afterPoll polled verdict = .polling now at hpolls
      unfold afterPoll at hpolls
      split at hpolls <;> cases hpolls
    | _ => cases hpolls
  | rouse _ => cases hpolls
  | worker act => exact .inl (act.timer_eq ▸ hpolls)
  | closing act => cases act <;> exact .inl hpolls
  | _ => exact .inl hpolls

/-- The instant of a poll was read from the clock. -/
theorem polling_le_clock
    (h : run System.step (start settings level line) actions = .ok (shown, s)) {now : Instant}
    (hpolls : s.timer = .polling now) : now ≤ s.clock := by
  refine run_invariant (P := fun s => ∀ now, s.timer = .polling now → now ≤ s.clock)
    ?_ ?_ h now hpolls
  · intro now hpolls
    cases hpolls
  · intro s a sights t hs hstep now hpolls
    have hcase := step_eq_ok hstep
    rcases hcase.polling_cases hpolls with hheld | rfl
    · exact UInt64.le_trans (hs now hheld) hcase.clock_le
    · exact hcase.clock_le

/-- Nothing that is said opens a window. -/
theorem openings_notices (notices : List Notice) : openings (notices.map .notice) = [] := by
  rw [← openings_beats, beats_notices]
  rfl

/-- Unless it is given from outside, the instant of an edge was held by a producer. -/
theorem StepCase.mem_stamps_of_opening (h : StepCase s a sights t) (hlive : ∀ now, a ≠ .edge now)
    {stamp : Instant} (hopens : stamp ∈ openings sights) : stamp ∈ s.stamps := by
  have silent (hnone : openings sights = []) : stamp ∈ s.stamps := by
    rw [hnone] at hopens
    exact absurd hopens List.not_mem_nil
  cases h with
  | edge _ => exact absurd rfl (hlive _)
  | @enter i now answer hub found _ =>
    obtain ⟨x, hx, hopening⟩ := List.mem_filterMap.mp hopens
    rw [List.mem_singleton.mp hx, Sight.opening?] at hopening
    split at hopening
    · rw [← Option.some.inj hopening]
      exact List.mem_of_getElem? found
    · cases hopening
  | timer act => cases act <;> exact silent rfl
  | worker act =>
    cases act with
    | telling _ => exact silent (openings_notices _)
    | _ => exact silent rfl
  | closing act =>
    cases act with
    | telling _ => exact silent (by rw [openings_append, tellOf, openings_notices]; rfl)
    | _ => exact silent rfl
  | reply failure _ => cases failure <;> exact silent rfl
  | tell _ => exact silent (openings_notices _)
  | _ => exact silent rfl

/-! ## Two windows, one after the other -/

/-- A step of the timer that shows a window to close. -/
theorem closing_eq_ok {polled : Instant} {report : Report}
    (h : s.step .timer = .ok ([.polled polled (.expired report)], t)) :
    ∃ window total, s.timer = .polling polled ∧
      s.hub.watch.windower.activity = .collecting window ∧ window.deadline ≤ polled ∧
      report = Windower.report window total ∧
      t.hub.watch.windower.activity = window.next s.hub.watch.windower.length := by
  cases timerStep_eq_ok h with
  | polling stands done =>
    cases Watch.poll_eq_ok done with
    | quiet _ unclosed => exact absurd rfl (unclosed report)
    | expired asked _ =>
      cases Windower.poll_eq_ok asked with
      | expired collecting due _ _ => exact ⟨_, _, stands, collecting, due, rfl, rfl⟩

/-- What a producer holds was held at the beginning, or was read from the clock since. -/
structure Held (m : System) (shown : List Sight) (t : System) : Prop where
  clock : m.clock ≤ t.clock
  stamps : ∀ stamp ∈ t.stamps, stamp ∈ m.stamps ∨ m.clock ≤ stamp
  openings : ∀ stamp ∈ openings shown, stamp ∈ m.stamps ∨ m.clock ≤ stamp

/-- At the beginning producers hold what they hold. -/
theorem held_start (m : System) : Held m [] m where
  clock := UInt64.le_refl _
  stamps _ h := .inl h
  openings _ h := absurd h List.not_mem_nil

/-- A producer comes to hold only what it reads from the clock. -/
theorem Held.step {m : System} {shown : List Sight} (h : Held m shown s)
    (hcase : StepCase s a sights t) (hlive : ∀ now, a ≠ .edge now) :
    Held m (shown ++ sights) t where
  clock := UInt64.le_trans h.clock hcase.clock_le
  stamps stamp hstamp := by
    rcases hcase.stamps_cases hstamp with hheld | rfl
    · exact h.stamps stamp hheld
    · exact .inr h.clock
  openings stamp hopens := by
    rw [openings_append] at hopens
    rcases List.mem_append.mp hopens with hopens | hopens
    · exact h.openings stamp hopens
    · exact h.stamps stamp (hcase.mem_stamps_of_opening hlive hopens)

/-- What producers hold after a while they held before, or have read since. -/
theorem held_of_run {m : System} (h : run System.step m actions = .ok (shown, t))
    (hlive : ∀ now, .edge now ∉ actions) : Held m shown.flatten t := by
  refine run_induction
    (P := fun actions shown t => (∀ now, .edge now ∉ actions) → Held m shown.flatten t)
    (fun _ => held_start m) ?_ h hlive
  intro actions shown s a sights t _ ih hstep hlive
  rw [List.flatten_concat]
  refine (ih fun now hedge => hlive now (List.mem_append_left _ hedge)).step (step_eq_ok hstep) ?_
  rintro now rfl
  exact hlive now (List.mem_append_right _ (List.mem_singleton_self _))

/-- **When windows overlap.** Of two windows that close one after the other, the second begins
before the deadline of the first just if an edge has opened a window in between that is older than
this deadline. If all edges bring readings of the clock, the reading of such an edge was made before
the first window closed: a producer held it when the timer closed that window. -/
theorem overlap_iff {before between : List Action} {m u v : System} {polled polled' : Instant}
    {report report' : Report} {shown' : List (List Sight)}
    (hm : run System.step (start settings level line) before = .ok (shown, m))
    (closes : m.step .timer = .ok ([.polled polled (.expired report)], t))
    (hu : run System.step t between = .ok (shown', u))
    (unclosed : closedReports shown'.flatten = [])
    (closes' : u.step .timer = .ok ([.polled polled' (.expired report')], v)) :
    (report'.opened < report.deadline ↔
      ∃ stamp ∈ openings shown'.flatten, stamp < report.deadline) ∧
    ((∀ now, .edge now ∉ between) →
      ∀ stamp ∈ openings shown'.flatten, stamp < report.deadline → stamp ∈ m.stamps) := by
  obtain ⟨window, total, stands, collecting, due, rfl, hnext⟩ := closing_eq_ok closes
  obtain ⟨window', total', -, collecting', -, rfl, -⟩ := closing_eq_ok closes'
  have hact : TimerCase m _ t := timerStep_eq_ok closes
  constructor
  · -- Since the first window closed, the open window is the one of the carried edges, or a new one.
    have hsince : Since window.deadline [] t.core := by
      refine fun _ => ⟨fun _ => rfl, fun next hcollecting => .inr ⟨rfl, ?_⟩⟩
      exact (shaped_of_run hm).deadline_le_next collecting (hnext.symm.trans hcollecting)
    have hbeats := ((sound_of_run hm).step closes).core_induction hsince
      (fun _ _ _ _ _ h hbeat => h.beat hbeat) hu
    rw [Since, closedReports_beats, openings_beats] at hbeats
    show window'.opened < window.deadline ↔
      ∃ stamp ∈ openings shown'.flatten, stamp < window.deadline
    rcases (hbeats unclosed).2 window' collecting' with hopened | ⟨hnone, hlate⟩
    · rw [hopened]
      simp
    · rw [hnone]
      simpa using hlate
  · intro hlive stamp hopens hstale
    rcases (held_of_run hu hlive).openings stamp hopens with hheld | hlate
    · exact hact.clock_eq.2 ▸ hheld
    · rw [hact.clock_eq.1] at hlate
      have hdue := UInt64.le_trans due (UInt64.le_trans (polling_le_clock hm stands) hlate)
      exact absurd hstale (UInt64.not_lt.mpr hdue)

/-- A producer reads the clock while a window is open, and is held up until the timer has read the
clock past the deadline. -/
def staleReading : List Action := [.stamp, .enter 0, .advance 20000, .stamp, .advance 50000, .timer]

/-- Once the timer has closed the window, the edge of the producer is taken in, and the timer comes
to close the next window. -/
def staleEntry : List Action := [.timer, .enter 0, .advance 70000, .timer]

/-- The edge opens a window that begins before the end of the one that has closed. -/
theorem overlap_iff_staleEntry :
    ∃ shown m t shown' u v,
      run System.step (start {} false {}) staleReading = .ok (shown, m) ∧
      m.step .timer = .ok ([.polled 50000 (.expired ⟨0, 50000, 1, 1⟩)], t) ∧
      run System.step t staleEntry = .ok (shown', u) ∧ closedReports shown'.flatten = [] ∧
      u.step .timer = .ok ([.polled 70000 (.expired ⟨20000, 70000, 1, 2⟩)], v) ∧
      (∀ now, .edge now ∉ staleEntry) ∧
      ∃ stamp ∈ m.stamps, stamp < 50000 ∧ stamp ∈ openings shown'.flatten := by
  have hrun : (run System.step (start {} false {}) staleReading >>= fun p =>
      p.2.step .timer >>= fun q => run System.step q.2 staleEntry >>= fun p' =>
      p'.2.step .timer >>= fun q' => pure (q.1, closedReports p'.1.flatten, q'.1)) =
      Except.ok ([.polled 50000 (.expired ⟨0, 50000, 1, 1⟩)], [],
        [.polled 70000 (.expired ⟨20000, 70000, 1, 2⟩)]) := by
    decide +kernel
  simp only [bind_eq_ok_iff, pure_eq_ok_iff, Prod.mk.injEq] at hrun
  obtain ⟨⟨shown, m⟩, hm, ⟨_, t⟩, closes, ⟨shown', u⟩, hu, ⟨_, v⟩, closes', rfl, unclosed, rfl⟩ :=
    hrun
  have hlive : ∀ now, .edge now ∉ staleEntry := by simp [staleEntry]
  obtain ⟨hoverlap, hheld⟩ := overlap_iff hm closes hu unclosed closes'
  obtain ⟨stamp, hopens, hstale⟩ := hoverlap.mp (by decide)
  exact ⟨shown, m, t, shown', u, v, hm, closes, hu, unclosed, closes', hlive,
    stamp, hheld hlive stamp hopens hstale, hstale, hopens⟩

/-- Two windows of a live system overlap, although every edge brings a reading of the clock. -/
theorem staleReading_overlaps :
    (∀ now, .edge now ∉ staleReading ++ .timer :: (staleEntry ++ [.timer])) ∧
    ∃ shown s report report',
      run System.step (start {} false {}) (staleReading ++ .timer :: (staleEntry ++ [.timer])) =
        .ok (shown, s) ∧
      closedReports shown.flatten = [report, report'] ∧ ¬report.deadline ≤ report'.opened := by
  have hrun : (run System.step (start {} false {})
      (staleReading ++ .timer :: (staleEntry ++ [.timer]))).map
        (fun p => closedReports p.1.flatten) =
      .ok [⟨0, 50000, 1, 1⟩, ⟨20000, 70000, 1, 2⟩] := by
    decide +kernel
  obtain ⟨⟨shown, s⟩, h, hclosed⟩ := map_eq_ok_iff.mp hrun
  exact ⟨by simp [staleReading, staleEntry], shown, s, _, _, h, hclosed, by decide⟩

end System

end Settle.Live
