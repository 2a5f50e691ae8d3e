import Settle.Live.Schedule
import Settle.Proofs.Live.Projection

/-!
# No wake-up is lost

The timer looks for a window and then goes to sleep, and the worker looks for a task and then waits.
Between looking and sleeping others act, and wake-ups merge. Nothing is missed nevertheless
(`Awake`). The timer parks only after a poll that found no window, and whatever opens a window while
the timer parks leaves a token; it naps only for the window that is open, whose deadline no edge
moves. A task comes into the queue only by the hand of the timer, which signals the worker next, and
the worker that consumes a signal asks for a task next.

So an open window is closed by the timer, and a waiting task is taken by the worker, even if nobody
else does anything any more (`Comes`).

Main statement: `wakeups_kept`.
-/

namespace Settle.Live

/-- How many acts of the worker, its handler's ending among them, lie before it stops, if it is told
to stop when it next asks what to do. -/
def WorkerAt.toStop : WorkerAt → Nat
  | .stopped => 0
  | .taking => 1
  | .waiting => 2
  | .telling _ => 3
  | .flushing => 4
  | .concluding _ => 5
  | .failing _ => 5
  | .handling _ => 6
  | .calling _ => 7
  | .settling .. => 8
  | .stamping .. => 9
  | .sampling _ => 10

namespace System

variable {s t : System} {a : Action} {actions : List Action} {sights : List Sight}

/-! ## What the worker leaves alone -/

/-- Only by asking for a task does the worker change the queue. -/
theorem WorkerCase.task_eq (h : WorkerCase s sights t) (hnot : s.worker ≠ .taking) :
    t.hub.watch.task = s.hub.watch.task := by
  cases h with
  | taking stands _ => exact absurd stands hnot
  | settling _ done =>
    obtain ⟨delivered, -, -, -, rfl⟩ := Watch.settle_eq_ok done
    rfl
  | failing _ done =>
    obtain ⟨failed, -, rfl⟩ := Watch.unreadable_eq_ok done
    rfl
  | concluding _ => exact Watch.task_handled _ _
  | _ => rfl

/-- Only when it asks for a task does the worker stop. -/
theorem WorkerCase.ne_stopped (h : WorkerCase s sights t) (hnot : s.worker ≠ .taking) :
    t.worker ≠ .stopped := by
  cases h with
  | taking stands _ => exact absurd stands hnot
  | flushing _ =>
    change afterFlush _ ≠ .stopped
    unfold afterFlush
    split <;> exact WorkerAt.noConfusion
  | _ => exact WorkerAt.noConfusion

/-- Every act brings the worker nearer to its end, unless it is given a task. -/
theorem WorkerCase.toStop_lt (h : WorkerCase s sights t)
    (hlast : s.worker = .taking → s.hub.watch.windower.activity = .disarmed) :
    t.worker.toStop < s.worker.toStop := by
  cases h with
  | taking stands done =>
    obtain ⟨rfl, -⟩ := Watch.takeJob_eq_ok done
    rw [stands, Watch.jobNow_of_disarmed (hlast stands)]
    exact Nat.one_pos
  | flushing stands =>
    rw [stands]
    change (afterFlush _).toStop < 4
    unfold afterFlush
    split <;> simp only [WorkerAt.toStop, Nat.reduceLT]
  | waiting stands _ | sampled stands _ | unread stands _ | stamping stands | settling stands _
  | calling stands | failing stands _ | concluding stands | telling stands =>
    rw [stands]
    simp only [WorkerAt.toStop, Nat.reduceLT]

/-! ## What keeps the sleepers from missing anything -/

/-- Nobody who sleeps misses anything. -/
structure Awake (s : System) : Prop where
  /-- There is a timer to be woken. -/
  attached : s.hub.attached = true
  /-- The timer goes only after the teardown. -/
  leaves : s.timer = .leaving ∨ s.timer = .stopped → s.hub.watch.windower.activity = .disarmed
  /-- A window that opened while the timer parks has left a token. -/
  parking : s.timer = .parking → ∀ window,
    s.hub.watch.windower.activity = .collecting window → s.hub.token = true
  /-- While the timer naps, the window that it naps for is open. -/
  napping : ∀ polled us, s.timer = .napping polled us →
    s.hub.watch.windower.activity = .disarmed ∨ ∃ window,
      s.hub.watch.windower.activity = .collecting window ∧
        us.toNat + polled.toNat = window.deadline.toNat
  /-- A task that waits is announced to the worker, or about to be. -/
  announced : s.hub.watch.task ≠ none →
    s.hub.signal = true ∨ s.timer = .signalling ∨ s.worker = .taking
  /-- The worker stops only when no task is left and none can come. -/
  stopped : s.worker = .stopped →
    s.hub.watch.windower.activity = .disarmed ∧ s.hub.watch.task = none

/-- At the start everybody is up and nothing waits. -/
theorem awake_start (settings : Settings) (level : Bool) (line : Line) :
    (start settings level line).Awake where
  attached := rfl
  leaves := Or.rec TimerAt.noConfusion TimerAt.noConfusion
  parking := TimerAt.noConfusion
  napping _ _ := TimerAt.noConfusion
  announced h := absurd rfl h
  stopped := WorkerAt.noConfusion

/-- A step that changes neither the windows nor the queue, and does not move the timer, makes nobody
miss anything, if it consumes no token and no signal. -/
theorem Awake.of_eq (hs : s.Awake) (htimer : t.timer = s.timer)
    (hattached : t.hub.attached = s.hub.attached)
    (htoken : s.hub.token = true → t.hub.token = true)
    (hsignal : s.hub.signal = true → t.hub.signal = true)
    (hactivity : t.hub.watch.windower.activity = s.hub.watch.windower.activity)
    (htask : t.hub.watch.task = s.hub.watch.task)
    (htaking : s.worker = .taking → t.worker = .taking)
    (hstopped : t.worker = .stopped → s.worker = .stopped) : t.Awake := by
  refine ⟨hattached.trans hs.attached, ?_, ?_, ?_, ?_, ?_⟩
  · rw [htimer, hactivity]
    exact hs.leaves
  · intro hparks window hopen
    rw [htimer] at hparks
    rw [hactivity] at hopen
    exact htoken (hs.parking hparks window hopen)
  · rw [htimer, hactivity]
    exact hs.napping
  · intro hwaits
    rw [htask] at hwaits
    rw [htimer]
    exact (hs.announced hwaits).imp hsignal (Or.imp_right htaking)
  · intro hstops
    rw [hactivity, htask]
    exact hs.stopped (hstopped hstops)

/-- The timer moves to another place and leaves the watch alone. It was not about to signal, or it
has signalled. -/
theorem Awake.of_timer (hs : s.Awake) {place : TimerAt} {online token signal : Bool}
    (hsignal : signal = true ∨ (signal = s.hub.signal ∧ s.timer ≠ .signalling))
    (hleaves : place = .leaving ∨ place = .stopped → s.hub.watch.windower.activity = .disarmed)
    (hparks : place = .parking → ∀ window,
      s.hub.watch.windower.activity = .collecting window → token = true)
    (hnaps : ∀ polled us, place = .napping polled us → ∃ window,
      s.hub.watch.windower.activity = .collecting window ∧
        us.toNat + polled.toNat = window.deadline.toNat) :
    Awake { s with hub := { s.hub with online, token, signal }, timer := place } where
  attached := hs.attached
  leaves := hleaves
  parking := hparks
  napping polled us h := .inr (hnaps polled us h)
  announced hwaits := by
    rcases hsignal with hsignal | ⟨rfl, hnot⟩
    · exact .inl hsignal
    · rcases hs.announced hwaits with h | h | h
      · exact .inl h
      · exact absurd h hnot
      · exact .inr (.inr h)
  stopped := hs.stopped

/-- A timer that is up misses nothing. -/
theorem Awake.of_up (hs : s.Awake) {place : TimerAt} {online token signal : Bool}
    (hup : place = .reading ∨ ∃ now, place = .polling now)
    (hsignal : signal = true ∨ (signal = s.hub.signal ∧ s.timer ≠ .signalling)) :
    Awake { s with hub := { s.hub with online, token, signal }, timer := place } := by
  refine hs.of_timer hsignal ?_ ?_ ?_
  · rcases hup with rfl | ⟨now, rfl⟩ <;> exact Or.rec TimerAt.noConfusion TimerAt.noConfusion
  · rcases hup with rfl | ⟨now, rfl⟩ <;> exact TimerAt.noConfusion
  · rcases hup with rfl | ⟨now, rfl⟩ <;> exact fun _ _ => TimerAt.noConfusion

/-! ## Each step keeps the sleepers from missing anything -/

/-- An edge that opens a window leaves a token, and no edge moves the deadline of a window. -/
theorem Awake.edge (hs : s.Awake) {now : Instant} {answer : EdgeAnswer} {hub : Hub}
    {stamps : List Instant} (done : s.hub.edge now = .ok (answer, hub)) :
    Awake { s with stamps, hub } := by
  obtain ⟨watch, hwatch, rfl⟩ := Hub.edge_eq_ok done
  obtain ⟨windower, hwindower, rfl⟩ := Watch.edge_eq_ok hwatch
  have hcase := Windower.edge_eq_ok hwindower
  refine ⟨hs.attached, fun hleaves => hcase.disarmed_iff.mpr (hs.leaves hleaves), ?_, ?_,
    hs.announced, fun hstops => (hs.stopped hstops).imp_left hcase.disarmed_iff.mpr⟩
  · intro hparks window hopen
    change (s.hub.token || _) = true
    rw [Bool.or_eq_true]
    cases hcase with
    | ignored torn => exact .inl (hs.parking hparks window hopen)
    | opened _ _ _ => exact .inr hs.attached
    | degraded idle _ _ _ => exact .inl (hs.parking hparks window hopen)
    | absorbed collecting _ _ _ => exact .inl (hs.parking hparks _ collecting)
    | carried collecting _ _ _ => exact .inl (hs.parking hparks _ collecting)
  · intro polled us hnaps
    have hbefore := hs.napping polled us hnaps
    cases hcase with
    | ignored _ => exact hbefore
    | opened idle _ _ =>
      rw [idle] at hbefore
      obtain h | ⟨window, h, -⟩ := hbefore <;> cases h
    | degraded _ _ _ _ => exact hbefore
    | absorbed collecting _ _ _ | carried collecting _ _ _ =>
      rw [collecting] at hbefore
      obtain h | ⟨window, h, hdeadline⟩ := hbefore
      · cases h
      · cases h
        exact .inr ⟨_, rfl, hdeadline⟩

/-- After a poll the timer sleeps for the window that is open, or parks because there is none, or
signals the task that it has queued. -/
theorem Awake.polling (hs : s.Awake) {now : Instant} {verdict : Verdict} {watch : Watch}
    (stands : s.timer = .polling now) (done : s.hub.watch.poll now = .ok (verdict, watch)) :
    Awake { s.setWatch watch with timer := afterPoll now verdict } := by
  have hnot : s.timer ≠ .signalling := by
    rw [stands]
    exact TimerAt.noConfusion
  cases Watch.poll_eq_ok done with
  | quiet asked unclosed =>
    rcases (Windower.poll_eq_ok asked).unclosed unclosed with
      ⟨rfl, torn⟩ | ⟨rfl, idle⟩ | ⟨window, us, rfl, collecting, -, rest⟩
    · exact hs.of_timer (.inr ⟨rfl, hnot⟩) (fun _ => torn) TimerAt.noConfusion
        fun _ _ => TimerAt.noConfusion
    · refine hs.of_timer (.inr ⟨rfl, hnot⟩) (Or.rec TimerAt.noConfusion TimerAt.noConfusion)
        (fun _ window hopen => ?_) fun _ _ => TimerAt.noConfusion
      rw [idle] at hopen
      cases hopen
    · refine hs.of_timer (.inr ⟨rfl, hnot⟩) (Or.rec TimerAt.noConfusion TimerAt.noConfusion)
        TimerAt.noConfusion fun polled us' hnaps => ?_
      cases hnaps
      exact ⟨window, collecting, rest⟩
  | expired asked _ =>
    refine ⟨hs.attached, Or.rec TimerAt.noConfusion TimerAt.noConfusion, TimerAt.noConfusion,
      fun _ _ => TimerAt.noConfusion, fun _ => .inr (.inl rfl), fun hstops => ?_⟩
    -- A window was open, so the worker has not stopped.
    have htorn := (hs.stopped hstops).1
    cases Windower.poll_eq_ok asked with
    | expired collecting _ _ _ =>
      rw [collecting] at htorn
      cases htorn

/-- The timer parks only when no window is open, and naps only for the window that is. -/
theorem Awake.timer (hs : s.Awake) (h : TimerCase s sights t) : t.Awake := by
  cases h with
  | polling stands done => exact hs.polling stands done
  | signalling _ => exact hs.of_up (.inl rfl) (.inl rfl)
  | leaving stands =>
    refine hs.of_timer (.inr ⟨rfl, ?_⟩) (fun _ => hs.leaves (.inl stands)) TimerAt.noConfusion
      fun _ _ => TimerAt.noConfusion
    rw [stands]
    exact TimerAt.noConfusion
  | reading stands =>
    refine hs.of_up (.inr ⟨_, rfl⟩) (.inr ⟨rfl, ?_⟩)
    rw [stands]
    exact TimerAt.noConfusion
  | parking stands _ | napping stands _ =>
    refine hs.of_up (.inl rfl) (.inr ⟨rfl, ?_⟩)
    rw [stands]
    exact TimerAt.noConfusion

/-- A worker that is told to stop leaves no task behind. -/
theorem Awake.taking (hs : s.Awake) {job : Job} {watch : Watch}
    (done : s.hub.watch.takeJob = .ok (job, watch)) :
    Awake { s.setWatch watch with worker := afterJob job } := by
  obtain ⟨rfl, cancelled, -, rfl⟩ := Watch.takeJob_eq_ok done
  refine ⟨hs.attached, hs.leaves, hs.parking, hs.napping, fun h => absurd rfl h, fun hstops => ?_⟩
  refine ⟨?_, rfl⟩
  change afterJob s.hub.watch.jobNow = .stopped at hstops
  by_cases htorn : s.hub.watch.windower.isDisarmed = true
  · exact Windower.isDisarmed_eq_true_iff.mp htorn
  · rw [Watch.jobNow, if_neg htorn] at hstops
    cases htask : s.hub.watch.task <;> rw [htask] at hstops <;> cases hstops

/-- The worker waits only when no task does, and stops only after the teardown. -/
theorem Awake.worker (hs : s.Awake) (h : WorkerCase s sights t) : t.Awake := by
  have hactivity := h.activity_eq
  have htask := h.task_eq
  have hstays := h.ne_stopped
  cases h with
  | waiting _ _ =>
    exact ⟨hs.attached, hs.leaves, hs.parking, hs.napping, fun _ => .inr (.inr rfl),
      WorkerAt.noConfusion⟩
  | taking _ done => exact hs.taking done
  | sampled stands _ | unread stands _ | stamping stands | settling stands _ | calling stands
  | failing stands _ | concluding stands | flushing stands | telling stands =>
    have hnot : s.worker ≠ .taking := by
      rw [stands]
      exact WorkerAt.noConfusion
    exact hs.of_eq rfl rfl id id hactivity (htask hnot) (fun h => absurd h hnot)
      fun hstops => absurd hstops (hstays hnot)

/-- After the teardown timer and worker may go. -/
theorem Awake.closing (hs : s.Awake) (h : ClosingCase s sights t) : t.Awake := by
  cases h with
  | disarming _ =>
    exact ⟨hs.attached, fun _ => rfl, fun _ _ => Activity.noConfusion, fun _ _ _ => .inl rfl,
      hs.announced, fun hstops => ⟨rfl, (hs.stopped hstops).2⟩⟩
  | waking _ =>
    exact hs.of_eq rfl rfl (fun h => Bool.or_eq_true_iff.mpr (.inl h)) id rfl rfl id id
  | signalling _ => exact hs.of_eq rfl rfl id (fun _ => rfl) rfl rfl id id
  | _ => exact hs.of_eq rfl rfl id id rfl rfl id id

/-- Whoever acts, nobody who sleeps misses anything. -/
theorem Awake.step (hs : s.Awake) (h : s.step a = .ok (sights, t)) : t.Awake := by
  cases step_eq_ok h with
  | edge done => exact hs.edge done
  | enter _ done => exact hs.edge done
  | timer act => exact hs.timer act
  | rouse asleep =>
    refine hs.of_up (.inl rfl) (.inr ⟨rfl, ?_⟩)
    rcases asleep with h | ⟨polled, us, h⟩ <;> rw [h] <;> exact TimerAt.noConfusion
  | worker act => exact hs.worker act
  | reply _ stands =>
    refine hs.of_eq rfl rfl id id rfl rfl (fun h => ?_) WorkerAt.noConfusion
    rw [stands] at h
    cases h
  | closing act => exact hs.closing act
  | _ => exact hs.of_eq rfl rfl id id rfl rfl id id

/-- In no reachable system does a sleeper miss anything. -/
theorem awake_of_run {settings : Settings} {level : Bool} {line : Line}
    {shown : List (List Sight)}
    (h : run System.step (start settings level line) actions = .ok (shown, s)) : s.Awake :=
  run_invariant (awake_start settings level line) (fun _ _ _ _ hm hstep => hm.step hstep) h

/-! ## What comes if nobody else acts -/

/-- If only the parties act that `next` names, something of the kind `P` is shown in the end. -/
inductive Comes (next : System → Option Action) (P : Sight → Prop) : System → Prop where
  /-- The next step shows it. -/
  | now {s t : System} {a : Action} {sights : List Sight} {x : Sight} (turn : next s = some a)
      (done : s.step a = .ok (sights, t)) (seen : x ∈ sights) (holds : P x) : Comes next P s
  /-- A step brings the system to where it comes. -/
  | later {s t : System} {a : Action} {sights : List Sight} (turn : next s = some a)
      (done : s.step a = .ok (sights, t)) (rest : Comes next P t) : Comes next P s

/-- What comes may be described less closely. -/
theorem Comes.imp {next : System → Option Action} {P Q : Sight → Prop} (h : Comes next P s)
    (himp : ∀ x, P x → Q x) : Comes next Q s := by
  induction h with
  | now turn done seen holds => exact .now turn done seen (himp _ holds)
  | later turn done _ ih => exact .later turn done ih

/-! ### The open window is closed -/

section Window

variable {window : OpenWindow} {horizon now polled : Instant} {us : Micros}

/-- A poll closed the window. -/
def Closes (window : OpenWindow) (x : Sight) : Prop :=
  ∃ now total, x = .polled now (.expired (Windower.report window total))

/-- A poll closes the window, or sends the timer to nap until the deadline. -/
theorem Sound.comes_of_polling (hs : s.Sound)
    (hopen : s.hub.watch.windower.activity = .collecting window) (stands : s.timer = .polling now)
    (hnap : ∀ us, now < window.deadline → us.toNat + now.toNat = window.deadline.toNat →
      Comes (timerNext? · horizon) (Closes window) { s with timer := .napping now us }) :
    Comes (timerNext? · horizon) (Closes window) s := by
  have turn : s.timerNext? horizon = some .timer := by rw [timerNext?, stands]
  obtain ⟨verdict, watch, hpoll⟩ := hs.exists_poll now
  have done := (TimerCase.polling stands hpoll).step_eq
  cases Watch.poll_eq_ok hpoll with
  | quiet asked unclosed =>
    rcases (Windower.poll_eq_ok asked).unclosed unclosed with
      ⟨rfl, torn⟩ | ⟨rfl, idle⟩ | ⟨found, us, rfl, collecting, early, rest⟩
    · rw [hopen] at torn
      cases torn
    · rw [hopen] at idle
      cases idle
    · rw [hopen] at collecting
      cases collecting
      exact .later turn done (hnap us early rest)
  | expired asked _ =>
    cases Windower.poll_eq_ok asked with
    | expired collecting _ _ _ =>
      rw [hopen] at collecting
      cases collecting
      exact .now turn done (List.mem_singleton_self _) ⟨now, _, rfl⟩

/-- A timer that is up reads the clock and polls. -/
theorem comes_of_reading (stands : s.timer = .reading)
    (hpoll : Comes (timerNext? · horizon) (Closes window) { s with timer := .polling s.clock }) :
    Comes (timerNext? · horizon) (Closes window) s := by
  have turn : s.timerNext? horizon = some .timer := by rw [timerNext?, stands]
  exact .later turn (TimerCase.reading stands).step_eq hpoll

/-- A timer that is woken from a nap when the deadline is over closes the window. -/
theorem Sound.comes_of_rouse (hs : s.Sound)
    (hopen : s.hub.watch.windower.activity = .collecting window)
    (stands : s.timer = .napping polled us) (late : window.deadline ≤ s.clock)
    (turn : s.timerNext? horizon = some .rouse) :
    Comes (timerNext? · horizon) (Closes window) s := by
  have done : s.step .rouse = .ok ([], { s with timer := .reading }) := by
    rw [System.step, rouse, stands]
  refine .later turn done (comes_of_reading rfl ?_)
  refine Sound.comes_of_polling (hs.of_eq rfl rfl) hopen rfl fun _ early _ => ?_
  exact absurd early (UInt64.not_lt.mpr late)

/-- A timer that naps undisturbed naps until the deadline, and then closes the window. -/
theorem Sound.comes_of_undisturbed (hs : s.Sound)
    (hopen : s.hub.watch.windower.activity = .collecting window)
    (hhorizon : window.deadline ≤ horizon) (stands : s.timer = .napping polled us)
    (hrest : us.toNat + polled.toNat = window.deadline.toNat) (alone : s.hub.token = false) :
    Comes (timerNext? · horizon) (Closes window) s := by
  have hword := window.deadline.toNat_lt
  have hdue : Word.later polled us = window.deadline := by
    rw [← UInt64.toNat_inj, Word.toNat_later_of_lt (by simp only [UInt64.size]; omega), ← hrest,
      Nat.add_comm]
  by_cases hlate : window.deadline ≤ s.clock
  · refine hs.comes_of_rouse hopen stands hlate ?_
    simp only [timerNext?, stands, alone, hdue, Bool.false_eq_true, if_false,
      UInt64.not_lt.mpr hhorizon, UInt64.not_lt.mpr hlate]
  · have hearly := UInt64.not_le.mp hlate
    have turn : s.timerNext? horizon = some (.advance window.deadline) := by
      simp only [timerNext?, stands, alone, hdue, Bool.false_eq_true, if_false,
        UInt64.not_lt.mpr hhorizon, if_pos hearly]
    have done : s.step (.advance window.deadline) =
        .ok ([], { s with clock := window.deadline }) := by
      rw [System.step, if_pos (UInt64.le_of_lt hearly)]
    refine .later turn done ?_
    refine Sound.comes_of_rouse (hs.of_eq rfl rfl) hopen stands (UInt64.le_refl _) ?_
    simp only [timerNext?, stands, alone, hdue, Bool.false_eq_true, if_false,
      UInt64.not_lt.mpr hhorizon, UInt64.lt_irrefl]

/-- A timer that finds its token reads the clock and polls, and then naps undisturbed. -/
theorem Sound.comes_of_token (hs : s.Sound)
    (hopen : s.hub.watch.windower.activity = .collecting window)
    (hhorizon : window.deadline ≤ horizon) (woken : s.hub.token = true)
    (asleep : s.timer.asleep = true) : Comes (timerNext? · horizon) (Closes window) s := by
  rw [TimerAt.asleep_iff] at asleep
  have done : s.step .timer =
      .ok ([], { s with hub := { s.hub with token := false }, timer := .reading }) := by
    rcases asleep with stands | ⟨polled, us, stands⟩
    · exact (TimerCase.parking stands woken).step_eq
    · exact (TimerCase.napping stands woken).step_eq
  have turn : s.timerNext? horizon = some .timer := by
    rcases asleep with stands | ⟨polled, us, stands⟩ <;>
      simp only [timerNext?, stands, woken, if_true]
  refine .later turn done (comes_of_reading rfl ?_)
  refine Sound.comes_of_polling (hs.of_eq rfl rfl) hopen rfl fun us _ hrest => ?_
  exact Sound.comes_of_undisturbed (hs.of_eq rfl rfl) hopen hhorizon rfl hrest rfl

/-- A timer that naps until the deadline closes the window, even if it is woken before. -/
theorem Sound.comes_of_napping (hs : s.Sound)
    (hopen : s.hub.watch.windower.activity = .collecting window)
    (hhorizon : window.deadline ≤ horizon) (stands : s.timer = .napping polled us)
    (hrest : us.toNat + polled.toNat = window.deadline.toNat) :
    Comes (timerNext? · horizon) (Closes window) s := by
  by_cases woken : s.hub.token = true
  · exact hs.comes_of_token hopen hhorizon woken (by rw [stands]; rfl)
  · exact hs.comes_of_undisturbed hopen hhorizon stands hrest (Bool.eq_false_iff.mpr woken)

/-- Wherever the timer stands, it closes the window that is open. -/
theorem Awake.comes_window (ha : s.Awake) (hs : s.Sound)
    (hopen : s.hub.watch.windower.activity = .collecting window)
    (hhorizon : window.deadline ≤ horizon) :
    Comes (timerNext? · horizon) (Closes window) s := by
  have hup (t : System) (hwatch : t.hub.watch = s.hub.watch) (hworker : t.worker = s.worker)
      (stands : t.timer = .reading) : Comes (timerNext? · horizon) (Closes window) t := by
    have ht := hs.of_eq hwatch hworker
    rw [← hwatch] at hopen
    refine comes_of_reading stands (Sound.comes_of_polling (ht.of_eq rfl rfl) hopen rfl ?_)
    intro us _ hrest
    exact Sound.comes_of_napping (ht.of_eq rfl rfl) hopen hhorizon rfl hrest
  cases htimer : s.timer with
  | reading => exact hup s rfl rfl htimer
  | polling now =>
    refine hs.comes_of_polling hopen htimer fun us _ hrest => ?_
    exact Sound.comes_of_napping (hs.of_eq rfl rfl) hopen hhorizon rfl hrest
  | parking =>
    exact hs.comes_of_token hopen hhorizon (ha.parking htimer _ hopen) (by rw [htimer]; rfl)
  | napping polled us =>
    rcases ha.napping polled us htimer with torn | ⟨found, collecting, hrest⟩
    · rw [hopen] at torn
      cases torn
    · rw [hopen] at collecting
      cases collecting
      exact hs.comes_of_napping hopen hhorizon htimer hrest
  | signalling =>
    have turn : s.timerNext? horizon = some .timer := by rw [timerNext?, htimer]
    exact .later turn (TimerCase.signalling htimer).step_eq (hup _ rfl rfl rfl)
  | leaving =>
    have torn := ha.leaves (.inl htimer)
    rw [hopen] at torn
    cases torn
  | stopped =>
    have torn := ha.leaves (.inr htimer)
    rw [hopen] at torn
    cases torn

end Window

/-! ### The waiting task is taken -/

/-- Who brings a waiting task into the worker's hands: the timer if it is about to signal, and else
the worker, whose handler ends in the way given. -/
def handsNext? (ending : Option String) (s : System) : Option Action :=
  if s.timer = .signalling then some .timer else s.workerNext? (some ending)

/-- A worker that has not stopped acts, or its handler ends, unless it waits without a signal. That
leaves the other parties alone, and brings the worker nearer to its end unless it is given a task;
and only if it asks for a task does the queue change. -/
theorem Sound.exists_workerNext (hs : s.Sound) (ending : Option String)
    (stays : s.worker ≠ .stopped) (signalled : s.worker = .waiting → s.hub.signal = true)
    (hlast : s.worker = .taking → s.hub.watch.windower.activity = .disarmed) :
    ∃ a sights t, s.workerNext? (some ending) = some a ∧ s.step a = .ok (sights, t) ∧
      t.timer = s.timer ∧ t.closing = s.closing ∧ t.worker.toStop < s.worker.toStop ∧
      (s.worker ≠ .taking → t.hub.watch.task = s.hub.watch.task ∧
        t.hub.watch.jobNow = s.hub.watch.jobNow) := by
  by_cases hhandling : ∃ event, s.worker = .handling event
  · obtain ⟨event, stands⟩ := hhandling
    refine ⟨.reply ending, s.tellOfHandling event ending, { s with worker := .concluding ending },
      ?_, ?_, rfl, rfl, ?_, fun _ => ⟨rfl, rfl⟩⟩
    · rw [workerNext?, stands]
      rfl
    · rw [System.step, reply, stands]
    · rw [stands]
      exact Nat.lt_succ_self 5
  · obtain ⟨sights, t, hstep⟩ := hs.exists_worker stays signalled
      fun event stands => hhandling ⟨event, stands⟩
    have act : WorkerCase s sights t := workerStep_eq_ok hstep
    refine ⟨.worker, sights, t, ?_, hstep, act.timer_eq, act.closing_eq, act.toStop_lt hlast,
      fun hnot => ⟨act.task_eq hnot, ?_⟩⟩
    · unfold workerNext?
      cases hworker : s.worker with
      | waiting => exact if_pos (signalled hworker)
      | handling event => exact absurd ⟨event, hworker⟩ hhandling
      | stopped => exact absurd hworker stays
      | _ => rfl
    · rw [Watch.jobNow, Watch.jobNow, Windower.isDisarmed, Windower.isDisarmed, act.activity_eq,
        act.task_eq hnot]

/-- Wherever the worker stands, it takes the task that waits for it. -/
theorem Awake.comes_task (ha : s.Awake) (hs : s.Sound) (hwaits : s.hub.watch.task ≠ none)
    (hquiet : s.timer ≠ .signalling) (ending : Option String) :
    Comes (handsNext? ending) (· = .took s.hub.watch.jobNow) s := by
  induction hn : s.worker.toStop using Nat.strongRecOn generalizing s with
  | ind n ih =>
    have hturn {a : Action} (h : s.workerNext? (some ending) = some a) :
        handsNext? ending s = some a := by
      rw [handsNext?, if_neg hquiet, h]
    by_cases htaking : s.worker = .taking
    · obtain ⟨job, watch, htake⟩ := hs.exists_takeJob htaking
      obtain ⟨rfl, -⟩ := Watch.takeJob_eq_ok htake
      have done : s.step .worker = .ok ([.took s.hub.watch.jobNow],
          { s.setWatch watch with worker := afterJob s.hub.watch.jobNow }) := by
        rw [System.step, workerStep, htaking]
        exact bind_eq_ok_iff.mpr ⟨_, mapError_eq_ok_iff.mpr htake, rfl⟩
      refine .now (hturn ?_) done (List.mem_singleton_self _) rfl
      rw [workerNext?, htaking]
    · have hstays : s.worker ≠ .stopped := fun hstops => hwaits (ha.stopped hstops).2
      have hsignalled : s.hub.signal = true := by
        rcases ha.announced hwaits with h | h | h
        · exact h
        · exact absurd h hquiet
        · exact absurd h htaking
      obtain ⟨a, sights, t, hnext, hstep, htimer, -, hlt, hsame⟩ :=
        hs.exists_workerNext ending hstays (fun _ => hsignalled) fun h => absurd h htaking
      obtain ⟨htask, hjob⟩ := hsame htaking
      rw [← htask] at hwaits
      rw [← htimer] at hquiet
      refine .later (hturn hnext) hstep ?_
      rw [← hjob]
      exact ih _ (hn ▸ hlt) (ha.step hstep) (hs.step hstep) hwaits hquiet rfl

/-- **No wake-up is lost.** In whatever order the parties of a live system take their steps: while a
window is open, a timer that parks has a token, and a timer that naps does so until the deadline of
that window; and a task that waits is announced, or about to be, or about to be taken. So if nobody
else acts, the timer closes the open window, and the worker takes the waiting task, or cancels it
after the teardown. -/
theorem wakeups_kept {settings : Settings} {level : Bool} {line : Line} {shown : List (List Sight)}
    (h : run System.step (start settings level line) actions = .ok (shown, s)) :
    (∀ opened deadline, s.hub.watch.windower.phase = .pending opened deadline →
      (s.timer = .parking → s.hub.token = true) ∧
      (∀ polled us, s.timer = .napping polled us → deadline.toNat = polled.toNat + us.toNat) ∧
      ∀ horizon, deadline ≤ horizon → Comes (timerNext? · horizon)
        (fun x => ∃ now report, x = .polled now (.expired report) ∧ report.opened = opened ∧
          report.deadline = deadline) s) ∧
    (∀ report, s.hub.watch.task = some report →
      (s.hub.signal = true ∨ s.timer = .signalling ∨ s.worker = .taking) ∧
      ∀ ending, Comes (handsNext? ending)
        (· = .took (if s.hub.watch.windower.isDisarmed then .stop else .run report)) s) := by
  have ha := awake_of_run h
  have hs := sound_of_run h
  constructor
  · intro opened deadline hphase
    obtain ⟨window, hopen, rfl, rfl⟩ := Windower.exists_collecting_of_phase hphase
    refine ⟨fun hparks => ha.parking hparks window hopen, ?_, ?_⟩
    · intro polled us hnaps
      rcases ha.napping polled us hnaps with torn | ⟨found, collecting, hrest⟩
      · rw [hopen] at torn
        cases torn
      · rw [hopen] at collecting
        cases collecting
        rw [← hrest, Nat.add_comm]
    · intro horizon hhorizon
      refine (ha.comes_window hs hopen hhorizon).imp ?_
      rintro x ⟨now, total, rfl⟩
      exact ⟨now, _, rfl, rfl, rfl⟩
  · intro report htask
    have hwaits : s.hub.watch.task ≠ none := by
      rw [htask]
      exact Option.some_ne_none report
    refine ⟨ha.announced hwaits, fun ending => ?_⟩
    have hjob : s.hub.watch.jobNow =
        if s.hub.watch.windower.isDisarmed then .stop else .run report := by
      rw [Watch.jobNow, htask]
    rw [← hjob]
    by_cases hquiet : s.timer = .signalling
    · -- The timer signals first, and is then up.
      have turn : handsNext? ending s = some .timer := if_pos hquiet
      have done := (TimerCase.signalling hquiet).step_eq
      exact .later turn done
        ((ha.step done).comes_task (hs.step done) hwaits TimerAt.noConfusion ending)
    · exact ha.comes_task hs hwaits hquiet ending

/-- Edges come while the timer parks and while it naps, the second too late for the window. Then a
task waits, and the timer naps for the next window. -/
def twoWaits : List Action :=
  [.timer, .timer, .edge 0, .timer, .timer, .timer, .edge 50000, .advance 50000, .rouse, .timer,
    .timer, .timer, .timer, .timer]

/-- Both sleepers of `twoWaits` get to what waits for them. -/
theorem wakeups_kept_twoWaits :
    ∃ shown s, run System.step (start {} false {}) twoWaits = .ok (shown, s) ∧
      s.hub.watch.windower.phase = .pending 50000 100000 ∧ s.timer = .napping 50000 50000 ∧
      s.hub.watch.task = some ⟨0, 50000, 1, 1⟩ ∧
      Comes (timerNext? · 100000)
        (fun x => ∃ now report, x = .polled now (.expired report) ∧ report.opened = 50000 ∧
          report.deadline = 100000) s ∧
      (s.hub.signal = true ∨ s.timer = .signalling ∨ s.worker = .taking) ∧
      Comes (handsNext? none) (· = .took (.run ⟨0, 50000, 1, 1⟩)) s := by
  have hrun : (run System.step (start {} false {}) twoWaits).map (fun p =>
      (p.2.hub.watch.windower.phase, p.2.timer, p.2.hub.watch.task,
        p.2.hub.watch.windower.isDisarmed)) =
      .ok (.pending 50000 100000, .napping 50000 50000, some ⟨0, 50000, 1, 1⟩, false) := by
    decide +kernel
  obtain ⟨⟨shown, s⟩, h, hs⟩ := map_eq_ok_iff.mp hrun
  simp only [Prod.mk.injEq] at hs
  obtain ⟨hphase, htimer, htask, htorn⟩ := hs
  obtain ⟨hwindow, hqueue⟩ := wakeups_kept h
  obtain ⟨hannounced, hcomes⟩ := hqueue _ htask
  have htakes := hcomes none
  rw [htorn, if_neg Bool.false_ne_true] at htakes
  exact ⟨shown, s, h, hphase, htimer, htask,
    (hwindow _ _ hphase).2.2 100000 (UInt64.le_refl _), hannounced, htakes⟩

end System

end Settle.Live
