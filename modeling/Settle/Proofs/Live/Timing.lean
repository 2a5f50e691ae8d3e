import Settle.Proofs.Live.Overlap
import Settle.Proofs.Live.Stream

/-!
# No window is settled early

A window is closed with a reading of the clock that the timer made some time before it polled. After
that the window's report waits for the worker, or is replaced by a later one; the worker reads the
line for it, and reads the clock only then. The clock never goes back, so a window that was past
its deadline at the first of these readings is past it ever after. The instants that edges bring
with them have no part in this: they decide which deadlines there are, and no window closes before
the clock shows its deadline.

So every report that is on its way to the handler is of a window that is over (`Due`).

Main statement: `never_early`.
-/

namespace Settle

/-- The window that a report tells of is over at an instant. -/
structure Report.Over (r : Report) (now : Instant) : Prop where
  ordered : r.opened ≤ r.deadline
  past : r.deadline ≤ now

/-- What is over stays over. -/
theorem Report.Over.mono {r : Report} {now later : Instant} (h : r.Over now) (hle : now ≤ later) :
    r.Over later :=
  ⟨h.ordered, UInt64.le_trans h.past hle⟩

/-- From the window's first edge to a reading of the clock after its end, at least its length has
gone by. -/
theorem Event.length_le_latency {e : Event} (h : e.window.Over e.settled) :
    e.window.deadline.toNat - e.window.opened.toNat ≤ e.latency.toNat := by
  have hpast := UInt64.le_iff_toNat_le.mp h.past
  rw [Event.latency, Word.toNat_since]
  omega

namespace Live

/-- The window of the task that the worker holds is over at the instant of the clock, or at the
instant that the worker has read from it. -/
def WorkerAt.Over (clock : Instant) : WorkerAt → Prop
  | .sampling report => report.Over clock
  | .stamping report _ => report.Over clock
  | .settling report _ now => report.Over now ∧ now ≤ clock
  | _ => True

/-- What the worker holds stays over too. -/
theorem WorkerAt.Over.mono {place : WorkerAt} {clock later : Instant} (h : place.Over clock)
    (hle : clock ≤ later) : place.Over later := by
  cases place with
  | sampling report => exact Report.Over.mono h hle
  | stamping report level => exact Report.Over.mono h hle
  | settling report level now => exact ⟨h.1, UInt64.le_trans h.2 hle⟩
  | _ => trivial

namespace System

variable {s t : System} {a : Action} {actions : List Action} {sights : List Sight} {x : Sight}
  {shown : List (List Sight)} {settings : Settings} {level : Bool} {line : Line}

/-! ## What is on its way to the handler -/

/-- Whatever is on its way to the handler tells of a window that is over. -/
structure Due (s : System) : Prop where
  /-- The window of the task that waits is over. -/
  queued : ∀ report, s.hub.watch.task = some report → report.Over s.clock
  /-- The window of the task that the worker holds is over. -/
  held : s.worker.Over s.clock

/-- At the start nothing is on its way. -/
theorem due_start (settings : Settings) (level : Bool) (line : Line) :
    (start settings level line).Due where
  queued _ h := nomatch h
  held := trivial

/-- What is over stays over as the clock goes on. -/
theorem Due.of_eq (hs : s.Due) (htask : t.hub.watch.task = s.hub.watch.task)
    (hworker : t.worker = s.worker) (hclock : s.clock ≤ t.clock) : t.Due where
  queued report h := (hs.queued report (htask.symm.trans h)).mono hclock
  held := hworker ▸ hs.held.mono hclock

/-- An edge queues no task. -/
theorem Due.edge (hs : s.Due) {now : Instant} {answer : EdgeAnswer} {hub : Hub}
    {stamps : List Instant} (done : s.hub.edge now = .ok (answer, hub)) :
    Due { s with stamps, hub } := by
  obtain ⟨watch, hwatch, rfl⟩ := Hub.edge_eq_ok done
  obtain ⟨windower, -, rfl⟩ := Watch.edge_eq_ok hwatch
  exact hs.of_eq rfl rfl (UInt64.le_refl _)

/-- A window becomes a task when it is over: the timer polls with a reading that the clock has
reached. -/
theorem Due.timer (hs : s.Due) (hshaped : s.hub.watch.windower.Shaped)
    (hpolls : ∀ now, s.timer = .polling now → now ≤ s.clock) (h : TimerCase s sights t) :
    t.Due := by
  cases h with
  | polling stands done =>
    cases Watch.poll_eq_ok done with
    | quiet _ _ => exact hs.of_eq rfl rfl (UInt64.le_refl _)
    | expired asked _ =>
      cases Windower.poll_eq_ok asked with
      | @expired window total _ collecting due _ _ =>
        have hordered : window.opened ≤ window.deadline := by
          rw [(hshaped window collecting).deadline]
          exact Word.le_later _ _
        refine ⟨?_, hs.held⟩
        rintro _ ⟨⟩
        exact ⟨hordered, UInt64.le_trans due (hpolls _ stands)⟩
  | _ => exact hs.of_eq rfl rfl (UInt64.le_refl _)

/-- The worker gets the task that waits. -/
theorem Due.taking (hs : s.Due) {job : Job} {watch : Watch}
    (done : s.hub.watch.takeJob = .ok (job, watch)) :
    Due { s.setWatch watch with worker := afterJob job } := by
  obtain ⟨rfl, cancelled, -, rfl⟩ := Watch.takeJob_eq_ok done
  refine ⟨fun _ hnone => (nomatch hnone), ?_⟩
  show (afterJob s.hub.watch.jobNow).Over s.clock
  unfold Watch.jobNow
  split_ifs
  · trivial
  · cases htask : s.hub.watch.task with
    | none => trivial
    | some report => exact hs.queued report htask

/-- The worker reads the clock after the line, when the window is over already. -/
theorem Due.worker (hs : s.Due) (h : WorkerCase s sights t) : t.Due := by
  have hheld := hs.held
  have hqueued (hnot : s.worker ≠ .taking) (report : Report)
      (htask : t.hub.watch.task = some report) : report.Over t.clock := by
    rw [h.clock_eq.1]
    exact hs.queued report ((h.task_eq hnot).symm.trans htask)
  cases h with
  | waiting _ _ => exact ⟨hs.queued, trivial⟩
  | taking _ done => exact hs.taking done
  | sampled stands _ =>
    rw [stands] at hheld
    exact ⟨hs.queued, hheld⟩
  | unread _ _ => exact ⟨hs.queued, trivial⟩
  | stamping stands =>
    rw [stands] at hheld
    exact ⟨hs.queued, hheld, UInt64.le_refl _⟩
  | settling stands _ | calling stands | failing stands _ | concluding stands | telling stands =>
    exact ⟨hqueued (stands ▸ WorkerAt.noConfusion), trivial⟩
  | flushing stands =>
    refine ⟨hqueued (stands ▸ WorkerAt.noConfusion), ?_⟩
    show (afterFlush _).Over _
    unfold afterFlush
    split_ifs <;> trivial

/-- The shutdown queues no task, though it may cancel one. -/
theorem Due.closing (hs : s.Due) (h : ClosingCase s sights t) : t.Due := by
  cases h <;> exact hs.of_eq rfl rfl (UInt64.le_refl _)

/-- Only a poll queues a task, and it does so when the window is over. -/
theorem Due.step (hs : s.Due) (hshaped : s.hub.watch.windower.Shaped)
    (hpolls : ∀ now, s.timer = .polling now → now ≤ s.clock) (h : StepCase s a sights t) :
    t.Due := by
  cases h with
  | advance later => exact hs.of_eq rfl rfl later
  | edge done => exact hs.edge done
  | enter _ done => exact hs.edge done
  | timer act => exact hs.timer hshaped hpolls act
  | worker act => exact hs.worker act
  | reply _ _ => exact ⟨hs.queued, trivial⟩
  | closing act => exact hs.closing act
  | _ => exact hs.of_eq rfl rfl (UInt64.le_refl _)

/-- In every reachable system it is over. -/
theorem due_of_run (h : run System.step (start settings level line) actions = .ok (shown, s)) :
    s.Due := by
  refine run_induction (P := fun _ _ s => s.Due) (due_start settings level line) ?_ h
  intro actions shown m a sights t hrun hm hstep
  exact hm.step (shaped_of_run hrun) (fun _ => polling_le_clock hrun) (step_eq_ok hstep)

/-! ## What the worker shows -/

/-- Notices show nothing of tasks. -/
theorem ofTask_notices (notices : List Notice) :
    (notices.map Sight.notice).filter Sight.ofTask = [] := by
  rw [← ofTask_beats, beats_notices]
  rfl

/-- Only the worker shows what it does for a task. -/
theorem StepCase.worker_acts (h : StepCase s a sights t) (hx : x ∈ sights)
    (htask : x.ofTask = true) : WorkerCase s sights t := by
  have silent (hnone : sights.filter Sight.ofTask = []) : WorkerCase s sights t := by
    have hmem := List.mem_filter.mpr ⟨hx, htask⟩
    rw [hnone] at hmem
    exact absurd hmem List.not_mem_nil
  cases h with
  | worker act => exact act
  | timer act => cases act <;> exact silent rfl
  | closing act =>
    cases act with
    | telling _ => exact silent (by rw [List.filter_append, tellOf, ofTask_notices]; rfl)
    | _ => exact silent rfl
  | reply failure _ => cases failure <;> exact silent rfl
  | tell _ => exact silent (ofTask_notices _)
  | _ => exact silent rfl

/-- The line is read only by a worker that is about to. -/
theorem WorkerCase.sampling_of_mem (h : WorkerCase s sights t) {level? : Option Bool}
    (hx : .sampled level? ∈ sights) : ∃ report, s.worker = .sampling report := by
  cases h with
  | sampled stands _ => exact ⟨_, stands⟩
  | unread stands _ => exact ⟨_, stands⟩
  | telling _ =>
    obtain ⟨notice, -, hnotice⟩ := List.mem_map.mp hx
    cases hnotice
  | _ => simp at hx

/-- An event is delivered only by a worker that holds its window, level and instant. -/
theorem WorkerCase.settling_of_mem (h : WorkerCase s sights t) {event : Event}
    (hx : .delivered event ∈ sights) :
    s.worker = .settling event.window event.level event.settled := by
  cases h with
  | settling stands done =>
    obtain ⟨delivered, -, -, rfl, -⟩ := Watch.settle_eq_ok done
    cases List.mem_singleton.mp hx
    exact stands
  | telling _ =>
    obtain ⟨notice, -, hnotice⟩ := List.mem_map.mp hx
    cases hnotice
  | _ => simp at hx

/-- **Never settled early.** In whatever order the parties of a live system take their steps and
whatever instants edges bring with them: when the worker reads the line for a task, the clock shows
the deadline of the task's window or a later instant; and the instant at which an event is settled,
which was read from the clock, is not before the deadline of the event's window, so that the event's
latency is at least the length of the window. -/
theorem never_early (h : run System.step (start settings level line) actions = .ok (shown, s))
    (hstep : s.step a = .ok (sights, t)) :
    (∀ level?, .sampled level? ∈ sights →
      ∃ report, s.worker = .sampling report ∧ report.deadline ≤ s.clock) ∧
    ∀ event, .delivered event ∈ sights →
      event.window.deadline ≤ event.settled ∧ event.settled ≤ s.clock ∧
        event.window.opened ≤ event.window.deadline ∧
        event.window.deadline.toNat - event.window.opened.toNat ≤ event.latency.toNat := by
  have hcase := step_eq_ok hstep
  have hheld := (due_of_run h).held
  constructor
  · intro level? hx
    obtain ⟨report, stands⟩ := (hcase.worker_acts hx rfl).sampling_of_mem hx
    rw [stands] at hheld
    exact ⟨report, stands, hheld.past⟩
  · intro event hx
    rw [(hcase.worker_acts hx rfl).settling_of_mem hx] at hheld
    obtain ⟨hover, hread⟩ := hheld
    exact ⟨hover.past, hread, hover.ordered, event.length_le_latency hover⟩

/-- A window is coalesced with the next one, which was opened by an edge that was ahead of the clock,
and the worker takes the task. -/
def aheadOfClock : List Action :=
  [.edge 0, .edge 60000, .advance 50000, .timer, .timer, .timer, .timer, .advance 115000, .timer,
    .rouse, .timer, .timer, .worker, .worker]

/-- The worker reads the clock some time after the line. -/
def slowWorker : List Action := [.advance 120000, .worker]

/-- The window of `aheadOfClock` was over when the line was read for it, and the latency of its
event is longer than the window. -/
theorem never_early_aheadOfClock :
    ∃ shown m u shown' s t,
      run System.step (start {} false {}) aheadOfClock = .ok (shown, m) ∧
      m.step .worker = .ok ([.sampled (some false)], u) ∧
      run System.step u slowWorker = .ok (shown', s) ∧
      s.step .worker = .ok ([.delivered ⟨60, false, 1, 120000, ⟨60000, 110000, 1, 2⟩⟩], t) ∧
      (∃ report, m.worker = .sampling report ∧ report.deadline ≤ m.clock) ∧
      (120000 : Instant) ≤ s.clock ∧ (50000 : Nat) ≤ (Word.since 120000 60000).toNat := by
  have hrun : (run System.step (start {} false {}) aheadOfClock >>= fun p =>
      p.2.step .worker >>= fun q => run System.step q.2 slowWorker >>= fun p' =>
      p'.2.step .worker >>= fun q' => pure (q.1, q'.1)) =
      Except.ok ([.sampled (some false)],
        [.delivered ⟨60, false, 1, 120000, ⟨60000, 110000, 1, 2⟩⟩]) := by
    decide +kernel
  simp only [bind_eq_ok_iff, pure_eq_ok_iff, Prod.mk.injEq] at hrun
  obtain ⟨⟨shown, m⟩, hm, ⟨_, u⟩, hread, ⟨shown', s⟩, hs, ⟨_, t⟩, hsettled, rfl, rfl⟩ := hrun
  have hfirst := (never_early hm hread).1 (some false) (List.mem_singleton_self _)
  have hwhole := run_append_eq_ok_iff.mpr
    ⟨_, _, _, hm, run_cons_eq_ok_iff.mpr ⟨_, _, _, hread, hs, rfl⟩, rfl⟩
  obtain ⟨-, hclock, -, hlatency⟩ :=
    (never_early hwhole hsettled).2 _ (List.mem_singleton_self _)
  exact ⟨shown, m, u, shown', s, t, hm, hread, hs, hsettled, hfirst, hclock, hlatency⟩

end System

end Live

end Settle
