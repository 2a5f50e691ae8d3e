import Settle.Proofs.Live.Owners
import Settle.Proofs.Live.Wakeup
import Settle.Proofs.Watch.Teardown

/-!
# The shutdown comes to its end

The shutdown waits twice, for the timer and for the worker, and each of them may be asleep when it
begins. After the teardown the timer is told to stop by its next poll, and it is woken before it is
waited for; the worker is told to stop when it next asks for a task, and it is signalled before it
is waited for (`Orderly`). So each wait ends (`Reachable.exists_awaited`), and so does the shutdown
(`Reachable.comes_stopped`). What is left at the end does not depend on how the parties took turns:
everything has stopped, the queue is empty, the books are in order, the id is free again, and a task
was cancelled just when one was queued at the teardown.

Main statement: `shutdown_ends`.
-/

namespace Settle.Live

/-- Whether the shutdown has torn the watch down. -/
def ClosingAt.pastTeardown : ClosingAt → Bool
  | .running => false
  | .disarming => false
  | _ => true

/-- Whether the shutdown has seen that the timer has stopped. -/
def ClosingAt.pastTimer : ClosingAt → Bool
  | .running => false
  | .disarming => false
  | .waking => false
  | .joiningTimer => false
  | _ => true

/-- Whether the shutdown has seen that the worker has stopped. -/
def ClosingAt.pastWorker : ClosingAt → Bool
  | .releasing => true
  | .looking => true
  | .telling .. => true
  | .closed => true
  | _ => false

/-- How many acts of the timer lie before it stops, if its next poll tells it to stop. -/
def TimerAt.toStop : TimerAt → Nat
  | .stopped => 0
  | .leaving => 1
  | .polling _ => 2
  | .reading => 3
  | .parking => 4
  | .napping .. => 4
  | .signalling => 4

/-- How many acts of the shutdown lie before its end. -/
def ClosingAt.toClosed : ClosingAt → Nat
  | .closed => 0
  | .telling .. => 1
  | .looking => 2
  | .releasing => 3
  | .joiningWorker => 4
  | .signalling => 5
  | .joiningTimer => 6
  | .waking => 7
  | .disarming => 8
  | .running => 9

namespace System

variable {s t m : System} {a : Action} {actions : List Action} {sights : List Sight}
  {shown : List (List Sight)} {settings : Settings} {level : Bool} {line : Line}

/-! ## What the shutdown can rely on -/

/-- Whoever the shutdown waits for is told to stop, and awake. -/
structure Orderly (s : System) : Prop where
  /-- The watch is torn down by the first act of the shutdown. -/
  torn : s.hub.watch.windower.activity = .disarmed ↔ s.closing.pastTeardown = true
  /-- A timer that is waited for sleeps only with a token. -/
  timerWoken : s.closing = .joiningTimer → s.timer.asleep = true → s.hub.token = true
  /-- After that wait the timer has stopped. -/
  timerGone : s.closing.pastTimer = true → s.timer = .stopped
  /-- A worker that is waited for has stopped, or asks for a task, or was signalled. -/
  workerCalled : s.closing = .joiningWorker →
    s.worker = .stopped ∨ s.worker = .taking ∨ s.hub.signal = true
  /-- After that wait the worker has stopped. -/
  workerGone : s.closing.pastWorker = true → s.worker = .stopped

/-- At the start nobody is waited for. -/
theorem orderly_start (settings : Settings) (level : Bool) (line : Line) :
    (start settings level line).Orderly where
  torn := ⟨Activity.noConfusion, Bool.noConfusion⟩
  timerWoken := ClosingAt.noConfusion
  timerGone := Bool.noConfusion
  workerCalled := ClosingAt.noConfusion
  workerGone := Bool.noConfusion

/-- A step that moves neither the timer nor the shutdown, nor a worker that stands at its end or asks
for a task, and that consumes no token and no signal. -/
theorem Orderly.of_eq (hs : s.Orderly)
    (htorn : t.hub.watch.windower.activity = .disarmed ↔
      s.hub.watch.windower.activity = .disarmed)
    (hclosing : t.closing = s.closing) (htimer : t.timer = s.timer)
    (htoken : s.hub.token = true → t.hub.token = true)
    (hworker : s.worker = .stopped ∨ s.worker = .taking → t.worker = s.worker)
    (hsignal : s.hub.signal = true → t.hub.signal = true) : t.Orderly := by
  refine ⟨?_, ?_, ?_, ?_, ?_⟩
  · rw [htorn, hclosing]
    exact hs.torn
  · rw [hclosing, htimer]
    exact fun hjoins hsleeps => htoken (hs.timerWoken hjoins hsleeps)
  · rw [hclosing, htimer]
    exact hs.timerGone
  · rw [hclosing]
    intro hjoins
    rcases hs.workerCalled hjoins with h | h | h
    · exact .inl ((hworker (.inl h)).trans h)
    · exact .inr (.inl ((hworker (.inr h)).trans h))
    · exact .inr (.inr (hsignal h))
  · rw [hclosing]
    intro hpast
    have hstopped := hs.workerGone hpast
    exact (hworker (.inl hstopped)).trans hstopped

/-- The timer acts: it has not stopped, and does not go to sleep after the teardown. -/
theorem Orderly.of_timer (hs : s.Orderly)
    (htorn : t.hub.watch.windower.activity = .disarmed ↔
      s.hub.watch.windower.activity = .disarmed)
    (hclosing : t.closing = s.closing) (hworker : t.worker = s.worker)
    (hsignal : s.hub.signal = true → t.hub.signal = true) (hstays : s.timer ≠ .stopped)
    (hup : s.hub.watch.windower.activity = .disarmed → t.timer.asleep = false) :
    t.Orderly := by
  refine ⟨?_, ?_, ?_, ?_, ?_⟩
  · rw [htorn, hclosing]
    exact hs.torn
  · rw [hclosing]
    intro hjoins hsleeps
    have hpast : s.closing.pastTeardown = true := by
      rw [hjoins]
      rfl
    rw [hup (hs.torn.mpr hpast)] at hsleeps
    cases hsleeps
  · rw [hclosing]
    exact fun hpast => absurd (hs.timerGone hpast) hstays
  · rw [hclosing, hworker]
    intro hjoins
    exact (hs.workerCalled hjoins).imp_right (Or.imp_right hsignal)
  · rw [hclosing, hworker]
    exact hs.workerGone

/-! ## Each step keeps the shutdown in order -/

/-- An edge moves nobody and tears nothing down. -/
theorem Orderly.edge (hs : s.Orderly) {now : Instant} {answer : EdgeAnswer} {hub : Hub}
    {stamps : List Instant} (done : s.hub.edge now = .ok (answer, hub)) :
    Orderly { s with stamps, hub } := by
  obtain ⟨watch, hwatch, rfl⟩ := Hub.edge_eq_ok done
  obtain ⟨windower, hwindower, rfl⟩ := Watch.edge_eq_ok hwatch
  exact hs.of_eq (Windower.edge_eq_ok hwindower).disarmed_iff rfl rfl
    (fun h => Bool.or_eq_true_iff.mpr (.inl h)) (fun _ => rfl) id

/-- The timer may always go on; once it has stopped it does not act any more. -/
theorem Orderly.timer (hs : s.Orderly) (h : TimerCase s sights t) : t.Orderly := by
  have hstays : s.timer ≠ .stopped := by
    intro hstopped
    cases h with
    | reading stands | polling stands _ | parking stands _ | napping stands _ | signalling stands
    | leaving stands =>
      rw [stands] at hstopped
      cases hstopped
  cases h with
  | reading _ => exact hs.of_timer Iff.rfl rfl rfl id hstays fun _ => rfl
  | polling _ done =>
    have hcase := Watch.poll_eq_ok done
    refine hs.of_timer hcase.disarmed_iff rfl rfl id hstays fun torn => ?_
    rw [hcase.stop_iff.mpr torn]
    rfl
  | parking _ _ => exact hs.of_timer Iff.rfl rfl rfl id hstays fun _ => rfl
  | napping _ _ => exact hs.of_timer Iff.rfl rfl rfl id hstays fun _ => rfl
  | signalling _ => exact hs.of_timer Iff.rfl rfl rfl (fun _ => rfl) hstays fun _ => rfl
  | leaving _ => exact hs.of_timer Iff.rfl rfl rfl id hstays fun _ => rfl

/-- After the teardown a worker that asks for a task stops. -/
theorem Orderly.worker (hs : s.Orderly) (h : WorkerCase s sights t) : t.Orderly := by
  have hactivity := h.activity_eq
  cases h with
  | waiting stands _ =>
    refine ⟨hs.torn, hs.timerWoken, hs.timerGone, fun _ => .inr (.inl rfl), fun hpast => ?_⟩
    have hstopped := hs.workerGone hpast
    rw [stands] at hstopped
    cases hstopped
  | taking stands done =>
    obtain ⟨rfl, cancelled, -, rfl⟩ := Watch.takeJob_eq_ok done
    refine ⟨hs.torn, hs.timerWoken, hs.timerGone, fun hjoins => .inl ?_, fun hpast => ?_⟩
    · have hpast : s.closing.pastTeardown = true := by
        rw [show s.closing = .joiningWorker from hjoins]
        rfl
      change afterJob s.hub.watch.jobNow = .stopped
      rw [Watch.jobNow_of_disarmed (hs.torn.mpr hpast)]
      rfl
    · have hstopped := hs.workerGone hpast
      rw [stands] at hstopped
      cases hstopped
  | sampled stands _ | unread stands _ | stamping stands | settling stands _ | calling stands
  | failing stands _ | concluding stands | flushing stands | telling stands =>
    refine hs.of_eq (by rw [hactivity]) rfl rfl id (fun hends => ?_) id
    rw [stands] at hends
    rcases hends with h | h <;> cases h

/-- Each act of the shutdown leaves behind what the next one relies on. -/
theorem Orderly.closing (hs : s.Orderly) (ha : s.Awake) (h : ClosingCase s sights t) :
    t.Orderly := by
  have htorn := hs.torn
  have htimer := hs.timerGone
  have hworker := hs.workerGone
  cases h with
  | disarming _ =>
    exact ⟨⟨fun _ => rfl, fun _ => rfl⟩, ClosingAt.noConfusion, Bool.noConfusion,
      ClosingAt.noConfusion, Bool.noConfusion⟩
  | waking stands =>
    rw [stands] at htorn
    exact ⟨htorn, fun _ _ => Bool.or_eq_true_iff.mpr (.inr ha.attached), Bool.noConfusion,
      ClosingAt.noConfusion, Bool.noConfusion⟩
  | joinedTimer stands gone =>
    rw [stands] at htorn
    exact ⟨htorn, ClosingAt.noConfusion, fun _ => gone, ClosingAt.noConfusion, Bool.noConfusion⟩
  | signalling stands =>
    rw [stands] at htorn htimer
    exact ⟨htorn, ClosingAt.noConfusion, htimer, fun _ => .inr (.inr rfl), Bool.noConfusion⟩
  | joinedWorker stands gone =>
    rw [stands] at htorn htimer
    exact ⟨htorn, ClosingAt.noConfusion, htimer, ClosingAt.noConfusion, fun _ => gone⟩
  | releasing stands | looking stands | telling stands =>
    rw [stands] at htorn htimer hworker
    exact ⟨htorn, ClosingAt.noConfusion, htimer, ClosingAt.noConfusion, hworker⟩

/-- Whoever acts, the shutdown can still rely on the others. -/
theorem Orderly.step (hs : s.Orderly) (ha : s.Awake) (h : s.step a = .ok (sights, t)) :
    t.Orderly := by
  cases step_eq_ok h with
  | edge done => exact hs.edge done
  | enter _ done => exact hs.edge done
  | timer act => exact hs.timer act
  | rouse asleep =>
    refine hs.of_timer Iff.rfl rfl rfl id ?_ fun _ => rfl
    rcases asleep with h | ⟨polled, us, h⟩ <;> rw [h] <;> exact TimerAt.noConfusion
  | worker act => exact hs.worker act
  | reply _ stands =>
    refine hs.of_eq Iff.rfl rfl rfl id (fun hends => ?_) id
    rw [stands] at hends
    rcases hends with h | h <;> cases h
  | close stands =>
    have htorn := hs.torn
    rw [stands] at htorn
    exact ⟨htorn, ClosingAt.noConfusion, Bool.noConfusion, ClosingAt.noConfusion, Bool.noConfusion⟩
  | closing act => exact hs.closing ha act
  | _ => exact hs.of_eq Iff.rfl rfl rfl id (fun _ => rfl) id

/-- A system that its start leads to. -/
def Reachable (settings : Settings) (level : Bool) (line : Line) (s : System) : Prop :=
  ∃ actions shown, run System.step (start settings level line) actions = .ok (shown, s)

/-- A step leads from a reachable system to a reachable one. -/
theorem Reachable.step (hs : Reachable settings level line s) (h : s.step a = .ok (sights, t)) :
    Reachable settings level line t := by
  obtain ⟨actions, shown, hrun⟩ := hs
  exact ⟨actions ++ [a], _, run_concat_eq_ok_iff.mpr ⟨_, _, _, hrun, h, rfl⟩⟩

/-- The shutdown can rely on the others in every reachable system. -/
theorem orderly_of_run
    (h : run System.step (start settings level line) actions = .ok (shown, s)) : s.Orderly :=
  run_induction (P := fun _ _ s => s.Orderly) (orderly_start settings level line)
    (fun _ _ _ _ _ _ hrun hm hstep => hm.step (awake_of_run hrun) hstep) h

/-! ## If only those act that are waited for -/

/-- Who acts next for the shutdown: the shutdown itself if it can, and else the party it waits for.
A handler ends in the way given. -/
def shutdownNext? (ending : Option String) (s : System) : Option Action :=
  s.closingNext? <|>
    match s.closing with
    | .joiningTimer => some .timer
    | .joiningWorker => s.workerNext? (some ending)
    | _ => none

/-- The shutdown tells that the system of a line has stopped. -/
def TellsStopped (source : UInt32) (x : Sight) : Prop :=
  ∃ tally, x = .notice (.stopped source tally)

/-- What the shutdown can do, it does. -/
theorem exists_of_closingNext? (h : s.closingNext? = some a) :
    a = .closing ∧ ∃ sights t, s.step .closing = .ok (sights, t) := by
  change _ ∧ ∃ sights t, s.closingStep = .ok (sights, t)
  unfold closingNext? at h
  unfold closingStep
  cases stands : s.closing with
  | running | closed =>
    rw [stands] at h
    cases h
  | joiningTimer | joiningWorker =>
    simp only [stands] at h ⊢
    split at h
    · next hgone =>
      cases h
      rw [if_pos hgone]
      exact ⟨rfl, _, _, rfl⟩
    · cases h
  | _ =>
    rw [stands] at h
    cases h
    exact ⟨rfl, _, _, rfl⟩

/-- A shutdown that was asked for and can do nothing waits for the timer or for the worker. -/
theorem waits_of_closingNext? (h : s.closingNext? = none) (asked : s.closing ≠ .running)
    (unfinished : s.closing ≠ .closed) :
    (s.closing = .joiningTimer ∧ s.timer ≠ .stopped) ∨
      (s.closing = .joiningWorker ∧ s.worker ≠ .stopped) := by
  unfold closingNext? at h
  cases stands : s.closing with
  | running => exact absurd stands asked
  | closed => exact absurd stands unfinished
  | joiningTimer =>
    simp only [stands, ite_eq_right_iff, reduceCtorEq, imp_false] at h
    exact .inl ⟨rfl, h⟩
  | joiningWorker =>
    simp only [stands, ite_eq_right_iff, reduceCtorEq, imp_false] at h
    exact .inr ⟨rfl, h⟩
  | _ =>
    rw [stands] at h
    cases h

/-! ### Every act leads on -/

/-- After the teardown every act brings the timer nearer to its end. -/
theorem TimerCase.toStop_lt (h : TimerCase s sights t)
    (torn : s.hub.watch.windower.activity = .disarmed) : t.timer.toStop < s.timer.toStop := by
  cases h with
  | polling stands done =>
    rw [stands, (Watch.poll_eq_ok done).stop_iff.mpr torn]
    exact Nat.lt_succ_self 1
  | reading stands | parking stands _ | napping stands _ | signalling stands | leaving stands =>
    rw [stands]
    simp only [TimerAt.toStop, Nat.reduceLT]

/-- Every act of the shutdown brings it nearer to its end. -/
theorem ClosingCase.toClosed_lt (h : ClosingCase s sights t) :
    t.closing.toClosed < s.closing.toClosed := by
  cases h with
  | disarming stands | waking stands | joinedTimer stands _ | signalling stands
  | joinedWorker stands _ | releasing stands | looking stands | telling stands =>
    rw [stands]
    simp only [ClosingAt.toClosed, Nat.reduceLT]

/-- A shutdown that has begun is not taken back. -/
theorem ClosingCase.ne_running (h : ClosingCase s sights t) : t.closing ≠ .running := by
  cases h <;> exact ClosingAt.noConfusion

/-- The last act of the shutdown tells that it has ended. -/
theorem ClosingCase.tellsStopped (h : ClosingCase s sights t) (closed : t.closing = .closed) :
    ∃ x ∈ sights, TellsStopped s.source x := by
  cases h with
  | telling _ => exact ⟨_, List.mem_append_right _ (List.mem_singleton_self _), _, rfl⟩
  | _ => cases closed

/-- While the shutdown waits, the party it waits for can act, and comes nearer to its end. -/
theorem Reachable.exists_awaited (hs : Reachable settings level line s)
    (hnext : s.closingNext? = none) (asked : s.closing ≠ .running)
    (unfinished : s.closing ≠ .closed) (ending : Option String) :
    ∃ a sights t, shutdownNext? ending s = some a ∧ s.step a = .ok (sights, t) ∧
      t.closing = s.closing ∧
      t.timer.toStop + t.worker.toStop < s.timer.toStop + s.worker.toStop := by
  obtain ⟨actions, shown, hrun⟩ := hs
  have hsound := sound_of_run hrun
  have ho := orderly_of_run hrun
  rcases waits_of_closingNext? hnext asked unfinished with ⟨stands, hstays⟩ | ⟨stands, hstays⟩
  · have torn := ho.torn.mpr (by rw [stands]; rfl)
    obtain ⟨sights, t, hstep⟩ := hsound.exists_timer hstays (ho.timerWoken stands)
    have act : TimerCase s sights t := timerStep_eq_ok hstep
    refine ⟨.timer, sights, t, ?_, hstep, act.closing_eq, ?_⟩
    · rw [shutdownNext?, hnext, stands]
      rfl
    · rw [act.worker_eq]
      exact Nat.add_lt_add_right (act.toStop_lt torn) _
  · have torn := ho.torn.mpr (by rw [stands]; rfl)
    have hsignalled (hwaits : s.worker = .waiting) : s.hub.signal = true := by
      rcases ho.workerCalled stands with h | h | h
      · exact absurd h hstays
      · rw [hwaits] at h
        cases h
      · exact h
    obtain ⟨a, sights, t, hgoes, hstep, htimer, hclosing, hlt, -⟩ :=
      hsound.exists_workerNext ending hstays hsignalled fun _ => torn
    refine ⟨a, sights, t, ?_, hstep, hclosing, ?_⟩
    · rw [shutdownNext?, hnext, stands, hgoes]
      rfl
    · rw [htimer]
      exact Nat.add_lt_add_left hlt _

/-- Wherever a shutdown stands that was asked for, it comes to its end. -/
theorem Reachable.comes_stopped (hs : Reachable settings level line s)
    (asked : s.closing ≠ .running) (unfinished : s.closing ≠ .closed) (ending : Option String) :
    Comes (shutdownNext? ending) (TellsStopped settings.source) s := by
  -- The shutdown comes nearer to its end, or stays where it is while the party that it waits for
  -- comes nearer to its own.
  induction hn : s.closing.toClosed using Nat.strongRecOn generalizing s with
  | ind n ihClosing =>
    induction hk : s.timer.toStop + s.worker.toStop using Nat.strongRecOn generalizing s with
    | ind k ihAwaited =>
      cases hnext : s.closingNext? with
      | none =>
        obtain ⟨a, sights, t, turn, hstep, hclosing, hlt⟩ :=
          hs.exists_awaited hnext asked unfinished ending
        rw [← hclosing] at asked unfinished hn
        exact .later turn hstep (ihAwaited _ (hk ▸ hlt) (hs.step hstep) asked unfinished hn rfl)
      | some a =>
        obtain ⟨rfl, sights, t, hstep⟩ := exists_of_closingNext? hnext
        have turn : shutdownNext? ending s = some .closing := by
          rw [shutdownNext?, hnext]
          rfl
        have act : ClosingCase s sights t := closingStep_eq_ok hstep
        by_cases closed : t.closing = .closed
        · obtain ⟨actions, shown, hrun⟩ := hs
          obtain ⟨x, hx, htells⟩ := act.tellsStopped closed
          rw [source_of_run hrun] at htells
          exact .now turn hstep hx htells
        · exact .later turn hstep
            (ihClosing _ (hn ▸ act.toClosed_lt) (hs.step hstep) act.ne_running closed rfl)

/-! ## What is left at the end -/

/-- A shutdown that has torn the watch down did so at one point of the run. -/
theorem exists_teardown_of_run
    (h : run System.step (start settings level line) actions = .ok (shown, s))
    (hpast : s.closing.pastTeardown = true) :
    ∃ before after m, actions = before ++ .closing :: after ∧
      (∃ shown', run System.step (start settings level line) before = .ok (shown', m)) ∧
      m.closing = .disarming ∧
      ∃ shown', run System.step { m.setWatch m.hub.watch.disarm.2 with closing := .waking } after =
        .ok (shown', s) := by
  refine run_induction (P := fun actions _ s => s.closing.pastTeardown = true →
    ∃ before after m, actions = before ++ .closing :: after ∧
      (∃ shown', run System.step (start settings level line) before = .ok (shown', m)) ∧
      m.closing = .disarming ∧
      ∃ shown', run System.step { m.setWatch m.hub.watch.disarm.2 with closing := .waking } after =
        .ok (shown', s)) Bool.noConfusion ?_ h hpast
  intro actions shown s a sights t hrun ih hstep hpast
  by_cases hbefore : s.closing.pastTeardown = true
  · obtain ⟨before, after, m, rfl, hm, hdisarming, shown', hafter⟩ := ih hbefore
    exact ⟨before, after ++ [a], m, List.append_assoc _ _ _, hm, hdisarming, _,
      run_concat_eq_ok_iff.mpr ⟨_, _, _, hafter, hstep, rfl⟩⟩
  · rcases (step_eq_ok hstep).closing_cases with hsame | ⟨-, hasked⟩ | ⟨rfl, act⟩
    · exact absurd (hsame ▸ hpast) hbefore
    · rw [hasked] at hpast
      cases hpast
    · cases act with
      | disarming stands => exact ⟨actions, [], s, rfl, ⟨shown, hrun⟩, stands, [], rfl⟩
      | waking stands | joinedTimer stands _ | signalling stands | joinedWorker stands _
      | releasing stands | looking stands | telling stands =>
        rw [stands] at hbefore
        exact absurd rfl hbefore

/-- At the end everything has stopped, and nothing is left to do. -/
theorem stopped_of_closed
    (h : run System.step (start settings level line) actions = .ok (shown, s))
    (closed : s.closing = .closed) :
    s.hub.watch.windower.phase = .disarmed ∧ s.timer = .stopped ∧ s.worker = .stopped ∧
      s.hub.watch.task = none ∧ s.hub.watch.snapshot.accounted = .ok true := by
  have ho := orderly_of_run h
  have hworker : s.worker = .stopped := ho.workerGone (by rw [closed]; rfl)
  obtain ⟨torn, empty⟩ := (awake_of_run h).stopped hworker
  obtain ⟨k, hm, hk⟩ := sound_of_run h
  have hhand := hm.hand
  rw [hworker] at hhand
  have haccounted := hk.balanced.accounted hhand
  rw [hm.watch] at haccounted
  refine ⟨?_, ho.timerGone (by rw [closed]; rfl), hworker, empty, haccounted⟩
  rw [Windower.phase, torn]

/-- Once the queue is empty after the teardown, a task was cancelled just when one was queued. -/
theorem cancelled_of_teardown {before after : List Action} {shown' : List (List Sight)}
    (hbefore : run System.step (start settings level line) before = .ok (shown, m))
    (hdisarming : m.closing = .disarming)
    (hafter : run System.step { m.setWatch m.hub.watch.disarm.2 with closing := .waking } after =
      .ok (shown', s)) (empty : s.hub.watch.task = none) :
    s.hub.watch.windower.tally.cancelled.toNat = m.hub.watch.task.toList.length := by
  obtain ⟨ops, answers, k, hrun, hm⟩ := exists_shift_of_run hbefore
  have hzero : k.watch.windower.tally.cancelled.toNat = 0 := by
    by_contra hne
    have htorn := ((Shift.balanced_of_run hrun).cancelled_of hne).1
    rw [hm.watch, (orderly_of_run hbefore).torn, hdisarming] at htorn
    cases htorn
  have hmirrors : Mirrors { m.setWatch m.hub.watch.disarm.2 with closing := .waking }
      { k with watch := k.watch.disarm.2 } := ⟨by rw [hm.watch]; rfl, hm.hand⟩
  obtain ⟨ops', answers', k', hrun', hs⟩ := hmirrors.of_run hafter
  have hfinishing := (Shift.finishing_of_run hrun').cancelled_add_task
  rw [hzero, hs.watch, hm.watch, empty, Option.toList_none, List.length_nil] at hfinishing
  omega

end System

/-- **The shutdown comes to its end.** Whatever the parties of a started system and its callers do:
while the shutdown waits for the timer, the timer has stopped, or is told to stop by a poll that it
is about to make, or finds a token; while it waits for the worker, the worker has stopped, or asks
what to do, or is signalled. So the shutdown never waits for good: if only those act that it waits
for, it comes to its end. There, everything has stopped, no task waits, the check of a snapshot
succeeds, the registry is what it was before the start, and one task was cancelled if one was queued
at the teardown, none otherwise. To ask for the shutdown again changes nothing. -/
theorem shutdown_ends {w₀ w : World} {i : Nat} {settings : Settings} {line : Line}
    {machine : Machine} {actions : List Action} {shown : List (List Sight)}
    (started : (w₀.start settings line machine).result = .ok i)
    (h : run (fun w a => w.act i a) (w₀.start settings line machine).world actions =
      .ok (shown, w)) :
    ∃ s, w.system? i = some s ∧
      (s.closing = .joiningTimer → s.timer = .stopped ∨ s.timer = .leaving ∨
        (∃ now, s.timer = .polling now) ∨ s.timer = .reading ∨ s.timer = .signalling ∨
        s.hub.token = true) ∧
      (s.closing = .joiningWorker →
        s.worker = .stopped ∨ s.worker = .taking ∨ s.hub.signal = true) ∧
      (s.closing ≠ .running → s.closing ≠ .closed → ∀ ending,
        System.Comes (System.shutdownNext? ending) (System.TellsStopped settings.source) s) ∧
      (s.closing = .closed → s.hub.watch.windower.phase = .disarmed ∧ s.timer = .stopped ∧
        s.worker = .stopped ∧ s.hub.watch.task = none ∧
        s.hub.watch.snapshot.accounted = .ok true ∧ w.registry = w₀.registry ∧
        w.registry.isClaimed settings.source = false ∧
        ∃ before after m, actions = before ++ .closing :: after ∧
          (∃ shown' v, run (fun w a => w.act i a) (w₀.start settings line machine).world before =
            .ok (shown', v) ∧ v.system? i = some m) ∧ m.closing = .disarming ∧
          s.hub.watch.windower.tally.cancelled.toNat =
            if m.hub.watch.task.isSome then 1 else 0) ∧
      (s.closing ≠ .running → w.act i .close = .ok ([], w)) := by
  obtain ⟨registry, level, after, hclaim, rfl, hworld⟩ := World.exists_of_start started
  rw [hworld] at h ⊢
  have hfound : World.system?
      { registry, owners := w₀.owners ++ [.system (.start settings level after)] }
      w₀.owners.length = some (.start settings level after) :=
    World.system?_eq_some_iff.mpr List.getElem?_concat_length
  obtain ⟨s, hrun, hs⟩ := World.system_of_run hfound h
  have ho := System.orderly_of_run hrun
  refine ⟨s, hs, fun hjoins => ?_, ho.workerCalled, fun asked unfinished ending => ?_,
    fun closed => ?_, fun asked => ?_⟩
  · cases htimer : s.timer with
    | reading => simp
    | polling now => simp
    | parking => simp [ho.timerWoken hjoins (by rw [htimer]; rfl)]
    | napping polled us => simp [ho.timerWoken hjoins (by rw [htimer]; rfl)]
    | signalling => simp
    | leaving => simp
    | stopped => simp
  · exact System.Reachable.comes_stopped ⟨actions, shown, hrun⟩ asked unfinished ending
  · obtain ⟨hphase, htimer, hworker, empty, haccounted⟩ := System.stopped_of_closed hrun closed
    have hregistry := World.registry_of_run hclaim hfound rfl h hs
    rw [System.owning, closed] at hregistry
    refine ⟨hphase, htimer, hworker, empty, haccounted, hregistry, ?_, ?_⟩
    · rw [hregistry]
      exact Registry.isClaimed_of_claim hclaim
    · obtain ⟨before, rest, m, rfl, ⟨shown', hbefore⟩, hdisarming, shown'', hafter⟩ :=
        System.exists_teardown_of_run hrun (by rw [closed]; rfl)
      obtain ⟨shown₁, v, shown₂, hv, -⟩ := run_append_eq_ok_iff.mp h
      obtain ⟨m', hm', hfound'⟩ := World.system_of_run hfound hv
      rw [hbefore, Except.ok.injEq, Prod.mk.injEq] at hm'
      obtain ⟨rfl, rfl⟩ := hm'
      refine ⟨before, rest, m, rfl, ⟨_, v, hv, hfound'⟩, hdisarming, ?_⟩
      rw [System.cancelled_of_teardown hbefore hdisarming hafter empty, Option.length_toList]
  · refine World.act_of_same hs ?_
    rw [System.step, System.close]
    cases hclosing : s.closing with
    | running => exact absurd hclosing asked
    | _ => rfl

/-- A handler fails; then an edge comes too late for a window that becomes a task, and the shutdown
finds that task queued, the next window open, and timer and worker asleep. -/
def busyShutdown : List Action :=
  [.edge 0, .timer, .timer, .advance 50000, .rouse, .timer, .timer, .timer, .worker, .worker,
    .worker, .worker, .worker, .worker, .reply (some "no"), .worker, .worker, .worker, .timer,
    .timer, .edge 60000, .timer, .timer, .timer, .edge 120000, .advance 120000, .rouse, .timer,
    .timer, .timer, .timer, .timer, .close, .closing, .edge 130000, .closing, .timer, .timer,
    .timer, .timer, .closing, .closing, .worker, .worker, .closing, .closing, .look, .closing,
    .closing, .close]

/-- The shutdown of `busyShutdown` comes to its end with the queued task cancelled, and a second
call finds nothing to do. -/
theorem shutdown_ends_busyShutdown :
    (({} : World).start {} {}).result = .ok 0 ∧
    ∃ shown w s, run (fun w a => w.act 0 a) (({} : World).start {} {}).world busyShutdown =
        .ok (shown, w) ∧
      w.system? 0 = some s ∧ s.closing = .closed ∧ s.hub.watch.windower.tally.cancelled.toNat = 1 ∧
      s.hub.watch.snapshot.accounted = .ok true ∧ w.registry = {} ∧
      w.act 0 .close = .ok ([], w) := by
  have started : (({} : World).start {} {}).result = .ok 0 := by decide +kernel
  have hrun : (run (fun w a => w.act 0 a) (({} : World).start {} {}).world busyShutdown).map
      (fun p => (p.2.system? 0).map fun s =>
        (s.closing, s.hub.watch.windower.tally.cancelled.toNat)) =
      .ok (some (.closed, 1)) := by
    decide +kernel
  obtain ⟨⟨shown, w⟩, h, hw⟩ := map_eq_ok_iff.mp hrun
  obtain ⟨s, hs, -, -, -, hend, hagain⟩ := shutdown_ends started h
  simp only [hs, Option.map_some, Option.some.injEq, Prod.mk.injEq] at hw
  obtain ⟨closed, hcancelled⟩ := hw
  obtain ⟨-, -, -, -, haccounted, hregistry, -⟩ := hend closed
  refine ⟨started, shown, w, s, h, hs, closed, hcancelled, haccounted, hregistry, hagain ?_⟩
  rw [closed]
  exact ClosingAt.noConfusion

end Settle.Live
