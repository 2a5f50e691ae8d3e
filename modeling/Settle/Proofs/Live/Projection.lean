import Settle.Proofs.Live.Freshness
import Settle.Proofs.Watch.Bounds

/-!
# The watch of a live system

The parties of a live system change the shared watch by its operations only, and the one worker
keeps to the rule of a shift: it asks for a task when it holds none, and records once what came of a
task it holds. So each step of a system is matched by one operation of a shift, or by none
(`Mirrors.step`), and whatever holds of every shift holds of the watch of every reachable system
(`exists_shift_of_run`, `Mirrors.of_run`).

In particular a live system is sound: nothing that the timer or the worker do halts, so each of them
can act unless it waits for another party (`Sound.exists_timer`, `Sound.exists_worker`).
-/

namespace Settle.Live

/-- Whether the timer sleeps. -/
def TimerAt.asleep : TimerAt → Bool
  | .parking => true
  | .napping .. => true
  | _ => false

/-- The timer sleeps when it parks or naps. -/
theorem TimerAt.asleep_iff {place : TimerAt} :
    place.asleep = true ↔ place = .parking ∨ ∃ polled us, place = .napping polled us := by
  cases place <;> simp [asleep]

/-- The task that the worker has taken and not recorded yet. -/
def WorkerAt.inHand : WorkerAt → Option Report
  | .sampling report => some report
  | .stamping report _ => some report
  | .settling report _ _ => some report
  | .failing report => some report
  | _ => none

namespace System

variable {s t : System} {a : Action} {actions : List Action} {sights : List Sight} {k : Shift}

/-- A shift with the watch of a system, and with the task that the worker has in hand. -/
structure Mirrors (s : System) (k : Shift) : Prop where
  /-- The watch is that of the system. -/
  watch : k.watch = s.hub.watch
  /-- The task in hand is the worker's. -/
  hand : k.inHand = s.worker.inHand

/-- A run of the shift `k` leads to what the system `t` shows. -/
def Followed (k : Shift) (t : System) : Prop :=
  ∃ ops answers k', run Shift.step k ops = .ok (answers, k') ∧ Mirrors t k'

/-- A new system is mirrored by a new shift. -/
theorem mirrors_start (settings : Settings) (level : Bool) (line : Line) :
    Mirrors (start settings level line) (Shift.start settings.source settings.window level) :=
  ⟨rfl, rfl⟩

/-- Every system, reachable or not, is mirrored by some shift. -/
theorem exists_mirrors (s : System) : ∃ k, Mirrors s k :=
  ⟨{ watch := s.hub.watch, inHand := s.worker.inHand }, rfl, rfl⟩

/-! ## Each step is one operation, or none -/

/-- A step that leaves the watch alone is matched by no operation. -/
theorem Mirrors.still (hm : Mirrors s k) (hwatch : t.hub.watch = s.hub.watch)
    (hhand : t.worker.inHand = s.worker.inHand) : Followed k t :=
  ⟨[], [], k, rfl, hm.watch.trans hwatch.symm, hm.hand.trans hhand.symm⟩

/-- A step that performs an operation on the watch is matched by it, if the shift allows it. -/
theorem Mirrors.performs (hm : Mirrors s k) (op : Watch.Op) {answer : Watch.Answer}
    (done : s.hub.watch.apply op = .ok (answer, t.hub.watch)) (hallows : k.allows op = true)
    (hhand : k.handAfter op answer = t.worker.inHand) : Followed k t := by
  rw [← hm.watch] at done
  have hstep := Shift.step_eq_ok_iff.mpr ⟨hallows, _, done, rfl⟩
  exact ⟨[op], [answer], _, run_cons_eq_ok_iff.mpr ⟨_, _, [], hstep, rfl, rfl⟩, rfl, hhand⟩

/-- An edge at a system is an edge at the shift. -/
theorem Mirrors.edge (hm : Mirrors s k) {now : Instant} {answer : EdgeAnswer} {hub : Hub}
    {stamps : List Instant} (done : s.hub.edge now = .ok (answer, hub)) :
    Followed k { s with stamps, hub } := by
  obtain ⟨watch, hwatch, rfl⟩ := Hub.edge_eq_ok done
  exact hm.performs (.edge now s.hub.armable) (bind_eq_ok_iff.mpr ⟨_, hwatch, rfl⟩) rfl hm.hand

/-- The timer's poll is the only act of the timer that the shift sees. -/
theorem Mirrors.timer (hm : Mirrors s k) (h : TimerCase s sights t) : Followed k t := by
  cases h with
  | @polling now verdict watch _ done =>
    exact hm.performs (.poll now) (bind_eq_ok_iff.mpr ⟨_, done, rfl⟩) rfl hm.hand
  | _ => exact hm.still rfl rfl

/-- The worker takes, settles and fails tasks as a shift allows it to. -/
theorem Mirrors.worker (hm : Mirrors s k) (h : WorkerCase s sights t) : Followed k t := by
  have hhand := hm.hand
  cases h with
  | waiting stands _ => exact hm.still rfl (by rw [stands]; rfl)
  | @taking job watch stands done =>
    rw [stands] at hhand
    refine hm.performs .takeJob (bind_eq_ok_iff.mpr ⟨_, done, rfl⟩) ?_ ?_
    · exact Option.isNone_iff_eq_none.mpr hhand
    · cases job <;> rfl
  | sampled stands _ => exact hm.still rfl (by rw [stands]; rfl)
  | unread stands _ => exact hm.still rfl (by rw [stands]; rfl)
  | stamping stands => exact hm.still rfl (by rw [stands]; rfl)
  | @settling report level now event watch stands done =>
    rw [stands] at hhand
    exact hm.performs (.settle level report now) (bind_eq_ok_iff.mpr ⟨_, done, rfl⟩)
      (beq_iff_eq.mpr hhand) rfl
  | calling stands => exact hm.still rfl (by rw [stands]; rfl)
  | failing stands done =>
    rw [stands] at hhand
    exact hm.performs (.unreadable levelFailureMessage) (bind_eq_ok_iff.mpr ⟨_, done, rfl⟩)
      (Option.isSome_iff_exists.mpr ⟨_, hhand⟩) rfl
  | @concluding failure stands =>
    rw [stands] at hhand
    exact hm.performs (.handled failure) rfl rfl hhand
  | flushing stands =>
    rw [stands] at hhand
    refine hm.performs .takeUnreported rfl rfl (hhand.trans ?_)
    rw [afterFlush]
    split <;> rfl
  | telling stands => exact hm.still rfl (by rw [stands]; rfl)

/-- Of the shutdown's acts the shift sees the teardown and the last look. -/
theorem Mirrors.closing (hm : Mirrors s k) (h : ClosingCase s sights t) : Followed k t := by
  cases h with
  | disarming _ => exact hm.performs .disarm rfl rfl hm.hand
  | looking _ => exact hm.performs .takeUnreported rfl rfl hm.hand
  | _ => exact hm.still rfl rfl

/-- Each step of a system is matched by an operation of the shift, or by none. -/
theorem Mirrors.step (hm : Mirrors s k) (h : s.step a = .ok (sights, t)) : Followed k t := by
  cases step_eq_ok h with
  | edge done => exact hm.edge done
  | enter _ done => exact hm.edge done
  | timer act => exact hm.timer act
  | worker act => exact hm.worker act
  | reply _ stands => exact hm.still rfl (by rw [stands]; rfl)
  | look => exact hm.performs .takeUnreported rfl rfl hm.hand
  | closing act => exact hm.closing act
  | _ => exact hm.still rfl rfl

/-- Every run of a system is matched by a run of a shift. -/
theorem Mirrors.of_run (hm : Mirrors s k) {shown : List (List Sight)}
    (h : run System.step s actions = .ok (shown, t)) : Followed k t := by
  refine run_invariant (P := Followed k) ⟨[], [], k, rfl, hm⟩ ?_ h
  rintro m a sights t ⟨ops, answers, k', hrun, hm'⟩ hstep
  obtain ⟨ops', answers', k'', hrun', hm''⟩ := hm'.step hstep
  exact ⟨ops ++ ops', _, k'', run_append_eq_ok_iff.mpr ⟨_, _, _, hrun, hrun', rfl⟩, hm''⟩

/-- The watch of a reachable system is the watch of a shift. -/
theorem exists_shift_of_run {settings : Settings} {level : Bool} {line : Line}
    {shown : List (List Sight)}
    (h : run System.step (start settings level line) actions = .ok (shown, s)) :
    Followed (Shift.start settings.source settings.window level) s :=
  (mirrors_start settings level line).of_run h

/-! ## The parties do not halt -/

/-- The watch of a sound system is the watch of a sound shift. -/
def Sound (s : System) : Prop := ∃ k, Mirrors s k ∧ k.Sound

/-- Every reachable system is sound. -/
theorem sound_of_run {settings : Settings} {level : Bool} {line : Line} {shown : List (List Sight)}
    (h : run System.step (start settings level line) actions = .ok (shown, s)) : s.Sound := by
  obtain ⟨ops, answers, k, hrun, hm⟩ := exists_shift_of_run h
  exact ⟨k, hm, Shift.sound_of_run hrun⟩

/-- A new system is sound. -/
theorem sound_start (settings : Settings) (level : Bool) (line : Line) :
    (start settings level line).Sound :=
  sound_of_run run_nil

/-- Soundness is about the watch and the worker. -/
theorem Sound.of_eq (hs : s.Sound) (hwatch : t.hub.watch = s.hub.watch)
    (hworker : t.worker = s.worker) : t.Sound := by
  obtain ⟨k, hm, hk⟩ := hs
  exact ⟨k, ⟨hm.watch.trans hwatch.symm, hworker ▸ hm.hand⟩, hk⟩

/-- A sound system stays sound. -/
theorem Sound.step (hs : s.Sound) (h : s.step a = .ok (sights, t)) : t.Sound := by
  obtain ⟨k, hm, hk⟩ := hs
  obtain ⟨ops, answers, k', hrun, hm'⟩ := hm.step h
  exact ⟨k', hm', run_invariant hk (fun _ _ _ _ hk hstep => hk.step hstep) hrun⟩

/-- An operation other than an edge does not halt, if every shift allows it whose worker has the same
task in hand as the worker of the system. -/
theorem Sound.exists_apply (hs : s.Sound) (op : Watch.Op)
    (hallows : ∀ k : Shift, k.inHand = s.worker.inHand → k.allows op = true)
    (hnot : ∀ now armable, op ≠ .edge now armable) :
    ∃ answer watch, s.hub.watch.apply op = .ok (answer, watch) := by
  obtain ⟨k, hm, hk⟩ := hs
  rw [← hm.watch]
  exact hk.exists_apply op (hallows k hm.hand) fun now armable hedge =>
    absurd hedge (hnot now armable)

/-- A poll of a sound system does not halt. -/
theorem Sound.exists_poll (hs : s.Sound) (now : Instant) :
    ∃ verdict watch, s.hub.watch.poll now = .ok (verdict, watch) := by
  obtain ⟨_, _, happly⟩ := hs.exists_apply (.poll now) (fun _ _ => rfl)
    fun _ _ => Watch.Op.noConfusion
  obtain ⟨⟨verdict, watch⟩, hpoll, -⟩ := bind_eq_ok_iff.mp happly
  exact ⟨verdict, watch, hpoll⟩

/-- The question of a worker in a sound system does not halt. -/
theorem Sound.exists_takeJob (hs : s.Sound) (stands : s.worker = .taking) :
    ∃ job watch, s.hub.watch.takeJob = .ok (job, watch) := by
  obtain ⟨_, _, happly⟩ := hs.exists_apply .takeJob
    (fun k hhand => Option.isNone_iff_eq_none.mpr (hhand.trans (by rw [stands]; rfl)))
    fun _ _ => Watch.Op.noConfusion
  obtain ⟨⟨job, watch⟩, htake, -⟩ := bind_eq_ok_iff.mp happly
  exact ⟨job, watch, htake⟩

/-- The worker of a sound system can record that its task is settled. -/
theorem Sound.exists_settle (hs : s.Sound) {report : Report} {level : Bool} {now : Instant}
    (stands : s.worker = .settling report level now) :
    ∃ event watch, s.hub.watch.settle level report now = .ok (event, watch) := by
  obtain ⟨_, _, happly⟩ := hs.exists_apply (.settle level report now)
    (fun k hhand => beq_iff_eq.mpr (hhand.trans (by rw [stands]; rfl)))
    fun _ _ => Watch.Op.noConfusion
  obtain ⟨⟨event, watch⟩, hsettle, -⟩ := bind_eq_ok_iff.mp happly
  exact ⟨event, watch, hsettle⟩

/-- The worker of a sound system can record that it could not read the line. -/
theorem Sound.exists_unreadable (hs : s.Sound) {report : Report}
    (stands : s.worker = .failing report) :
    ∃ watch, s.hub.watch.unreadable levelFailureMessage = .ok watch := by
  obtain ⟨_, _, happly⟩ := hs.exists_apply (.unreadable levelFailureMessage)
    (fun k hhand => Option.isSome_iff_exists.mpr ⟨report, hhand.trans (by rw [stands]; rfl)⟩)
    fun _ _ => Watch.Op.noConfusion
  obtain ⟨watch, hfail, -⟩ := bind_eq_ok_iff.mp happly
  exact ⟨watch, hfail⟩

/-- The timer can act unless it has stopped or sleeps without a token. -/
theorem Sound.exists_timer (hs : s.Sound) (stays : s.timer ≠ .stopped)
    (woken : s.timer.asleep = true → s.hub.token = true) :
    ∃ sights t, s.step .timer = .ok (sights, t) := by
  cases htimer : s.timer with
  | reading => exact ⟨_, _, (TimerCase.reading htimer).step_eq⟩
  | polling now =>
    obtain ⟨verdict, watch, hpoll⟩ := hs.exists_poll now
    exact ⟨_, _, (TimerCase.polling htimer hpoll).step_eq⟩
  | parking =>
    have htoken := woken (by rw [htimer]; rfl)
    exact ⟨_, _, (TimerCase.parking htimer htoken).step_eq⟩
  | napping polled us =>
    have htoken := woken (by rw [htimer]; rfl)
    exact ⟨_, _, (TimerCase.napping htimer htoken).step_eq⟩
  | signalling => exact ⟨_, _, (TimerCase.signalling htimer).step_eq⟩
  | leaving => exact ⟨_, _, (TimerCase.leaving htimer).step_eq⟩
  | stopped => exact absurd htimer stays

/-- The worker can act unless it has stopped, waits without a signal, or the handler is running. -/
theorem Sound.exists_worker (hs : s.Sound) (stays : s.worker ≠ .stopped)
    (signalled : s.worker = .waiting → s.hub.signal = true)
    (free : ∀ event, s.worker ≠ .handling event) :
    ∃ sights t, s.step .worker = .ok (sights, t) := by
  change ∃ sights t, s.workerStep = .ok (sights, t)
  unfold workerStep
  cases hworker : s.worker with
  | waiting =>
    simp only [if_pos (signalled hworker)]
    exact ⟨_, _, rfl⟩
  | taking =>
    obtain ⟨job, watch, htake⟩ := hs.exists_takeJob hworker
    exact ⟨_, _, bind_eq_ok_iff.mpr ⟨_, mapError_eq_ok_iff.mpr htake, rfl⟩⟩
  | sampling report => exact ⟨_, _, rfl⟩
  | stamping report level => exact ⟨_, _, rfl⟩
  | settling report level now =>
    obtain ⟨event, watch, hsettle⟩ := hs.exists_settle hworker
    exact ⟨_, _, bind_eq_ok_iff.mpr ⟨_, mapError_eq_ok_iff.mpr hsettle, rfl⟩⟩
  | calling event => exact ⟨_, _, rfl⟩
  | failing report =>
    obtain ⟨watch, hfail⟩ := hs.exists_unreadable hworker
    exact ⟨_, _, bind_eq_ok_iff.mpr ⟨_, mapError_eq_ok_iff.mpr hfail, rfl⟩⟩
  | handling event => exact absurd hworker (free event)
  | concluding failure => exact ⟨_, _, rfl⟩
  | flushing => exact ⟨_, _, rfl⟩
  | telling faults => exact ⟨_, _, rfl⟩
  | stopped => exact absurd hworker stays

end System

end Settle.Live
