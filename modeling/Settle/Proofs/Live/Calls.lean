import Settle.Proofs.Live.Projection
import Settle.Proofs.Watch.Teardown

/-!
# When the handler is called

The worker records a delivery while it holds the watch, and calls the handler after it has let go of
it. Between the two anybody may act, the shutdown among them, so a call may begin after the teardown
also for a task that was recorded before it (`called_after_record`). What is true is that the worker
has one task at a time. The task that it has taken and not called the handler for is the only one
that a call can be for, and a new one comes only from the watch (`CallCase`), which after the
teardown has none to give. So from then on the calls and the task that is still without its call
make up no more than the task that was without its call at the teardown (`calls_sublist`).

Main statement: `teardown_final`, with what `Shift.Final` says about the watch.
-/

namespace Settle.Live

/-- The event with which a sight shows the handler to be called. -/
def Sight.called? : Sight → Option Event
  | .called event => some event
  | _ => none

/-- The events with which the handler was called. -/
def calledEvents (sights : List Sight) : List Event := sights.filterMap Sight.called?

/-- The task that the worker has taken and for which the call of the handler may still come. -/
def WorkerAt.uncalled : WorkerAt → Option Report
  | .sampling report => some report
  | .stamping report _ => some report
  | .settling report _ _ => some report
  | .calling event => some event.window
  | _ => none

/-- Nothing that is said is a call. -/
theorem calledEvents_notices (notices : List Notice) :
    calledEvents (notices.map .notice) = [] := by
  rw [calledEvents, List.filterMap_eq_nil_iff]
  intro x hx
  obtain ⟨notice, -, rfl⟩ := List.mem_map.mp hx
  rfl

/-- The calls among sights are those of each part. -/
theorem calledEvents_append (sights sights' : List Sight) :
    calledEvents (sights ++ sights') = calledEvents sights ++ calledEvents sights' :=
  List.filterMap_append

namespace System

variable {s t : System} {a : Action} {actions : List Action} {sights : List Sight}
  {shown : List (List Sight)}

/-! ## Each step makes one call, or none -/

/-- What a step means for the task that is without its call. -/
inductive CallCase (s : System) (sights : List Sight) (t : System) : Prop where
  /-- The task is what it was, or there is none any more. -/
  | none (silent : calledEvents sights = [])
      (kept : t.worker.uncalled = .none ∨ t.worker.uncalled = s.worker.uncalled)
  /-- The worker takes a task from a watch that is not torn down. -/
  | taken {report : Report} (active : s.hub.watch.windower.activity ≠ .disarmed)
      (told : sights = [.took (.run report)]) (holds : t.worker.uncalled = some report)
  /-- The handler is called for the task. -/
  | called {event : Event} (begun : sights = [.called event])
      (held : s.worker.uncalled = some event.window) (free : t.worker.uncalled = .none)

/-- A step of another party is no call, and leaves the worker its task. -/
theorem CallCase.of_worker_eq (silent : calledEvents sights = []) (hworker : t.worker = s.worker) :
    CallCase s sights t :=
  .none silent (.inr (congrArg WorkerAt.uncalled hworker))

/-- The worker takes what the watch has to give. -/
theorem callCase_taking {job : Job} {watch : Watch}
    (done : s.hub.watch.takeJob = .ok (job, watch)) :
    CallCase s [.took job] { s.setWatch watch with worker := afterJob job } := by
  obtain ⟨rfl, -⟩ := Watch.takeJob_eq_ok done
  cases hjob : s.hub.watch.jobNow with
  | run report =>
    refine .taken (fun htorn => ?_) rfl rfl
    rw [Watch.jobNow_of_disarmed htorn] at hjob
    cases hjob
  | nothing => exact .none rfl (.inl rfl)
  | stop => exact .none rfl (.inl rfl)

/-- The worker calls the handler for the task that it has recorded, and for no other. -/
theorem WorkerCase.callCase (h : WorkerCase s sights t) : CallCase s sights t := by
  cases h with
  | waiting _ _ => exact .none rfl (.inl rfl)
  | taking _ done => exact callCase_taking done
  | sampled stands _ => exact .none rfl (.inr (by rw [stands]; rfl))
  | unread _ _ => exact .none rfl (.inl rfl)
  | stamping stands => exact .none rfl (.inr (by rw [stands]; rfl))
  | settling stands done =>
    obtain ⟨delivered, -, -, rfl, -⟩ := Watch.settle_eq_ok done
    exact .none rfl (.inr (by rw [stands]; rfl))
  | calling stands => exact .called rfl (by rw [stands]; rfl) rfl
  | failing _ _ => exact .none rfl (.inl rfl)
  | concluding _ => exact .none rfl (.inl rfl)
  | flushing _ =>
    refine .none rfl (.inl ?_)
    change (afterFlush _).uncalled = none
    unfold afterFlush
    split <;> rfl
  | telling _ => exact .none (calledEvents_notices _) (.inl rfl)

/-- The timer calls no handler. -/
theorem TimerCase.calledEvents_eq (h : TimerCase s sights t) : calledEvents sights = [] := by
  cases h <;> rfl

/-- The shutdown calls no handler. -/
theorem ClosingCase.calledEvents_eq (h : ClosingCase s sights t) : calledEvents sights = [] := by
  cases h with
  | telling _ =>
    rw [calledEvents_append, tellOf, calledEvents_notices]
    rfl
  | _ => rfl

/-- The shutdown does not move the worker. -/
theorem ClosingCase.worker_eq (h : ClosingCase s sights t) : t.worker = s.worker := by
  cases h <;> rfl

/-- Whoever acts, at most one call begins, and it is for the task that the worker has. -/
theorem StepCase.callCase (h : StepCase s a sights t) : CallCase s sights t := by
  cases h with
  | timer act => exact .of_worker_eq act.calledEvents_eq act.worker_eq
  | worker act => exact act.callCase
  | @reply event failure stands =>
    refine .none ?_ (.inl rfl)
    cases failure <;> rfl
  | tell _ => exact .of_worker_eq (calledEvents_notices _) rfl
  | closing act => exact .of_worker_eq act.calledEvents_eq act.worker_eq
  | _ => exact .of_worker_eq rfl rfl

/-! ## After the teardown -/

/-- No step brings a watch back that was torn down. -/
theorem torn_of_step (h : s.step a = .ok (sights, t))
    (torn : s.hub.watch.windower.activity = .disarmed) :
    t.hub.watch.windower.activity = .disarmed := by
  obtain ⟨k, hm⟩ := exists_mirrors s
  obtain ⟨ops, answers, k', hrun, hm'⟩ := hm.step h
  rw [← hm.watch] at torn
  have hsame : { k with watch := k.watch.disarm.2 } = k := by
    rw [Watch.disarm_of_disarmed torn]
  rw [← hsame] at hrun
  rw [← hm'.watch]
  exact (Shift.finishing_of_run hrun).torn

/-- After the teardown a call is for the task that is without its call, which then has it. -/
theorem CallCase.sublist (h : CallCase s sights t)
    (torn : s.hub.watch.windower.activity = .disarmed) :
    ((calledEvents sights).map Event.window ++ t.worker.uncalled.toList).Sublist
      s.worker.uncalled.toList := by
  cases h with
  | none silent kept =>
    rw [silent, List.map_nil, List.nil_append]
    rcases kept with hnone | hsame
    · rw [hnone]
      exact List.nil_sublist _
    · exact hsame ▸ List.Sublist.refl _
  | taken active _ _ => exact absurd torn active
  | called begun held free =>
    rw [begun, held, free]
    exact List.Sublist.refl _

/-- After the teardown the calls that begin are for the task that was without its call, and for no
other. -/
theorem calls_sublist (torn : s.hub.watch.windower.activity = .disarmed)
    (h : run System.step s actions = .ok (shown, t)) :
    t.hub.watch.windower.activity = .disarmed ∧
      ((calledEvents shown.flatten).map Event.window ++ t.worker.uncalled.toList).Sublist
        s.worker.uncalled.toList := by
  refine run_induction (P := fun _ shown t => t.hub.watch.windower.activity = .disarmed ∧
    ((calledEvents shown.flatten).map Event.window ++ t.worker.uncalled.toList).Sublist
      s.worker.uncalled.toList) ⟨torn, List.Sublist.refl _⟩ ?_ h
  rintro actions shown m a sights t - ⟨htorn, hcalls⟩ hstep
  refine ⟨torn_of_step hstep htorn, ?_⟩
  have hnext := (step_eq_ok hstep).callCase.sublist htorn
  rw [List.flatten_append, List.flatten_singleton, calledEvents_append, List.map_append,
    List.append_assoc]
  exact (hnext.append_left _).trans hcalls

/-- A task that is without its call was taken. -/
theorem took_of_uncalled {settings : Settings} {level : Bool} {line : Line} {report : Report}
    (h : run System.step (start settings level line) actions = .ok (shown, s))
    (hholds : s.worker.uncalled = some report) : .took (.run report) ∈ shown.flatten := by
  refine run_induction (P := fun _ shown s => ∀ report, s.worker.uncalled = some report →
    .took (.run report) ∈ shown.flatten) nofun ?_ h report hholds
  intro actions shown m a sights t _ ih hstep report hholds
  rw [List.flatten_append, List.flatten_singleton, List.mem_append]
  cases (step_eq_ok hstep).callCase with
  | none _ kept =>
    rcases kept with hnone | hsame
    · rw [hnone] at hholds
      cases hholds
    · exact .inl (ih report (hsame.symm.trans hholds))
  | taken _ told holds =>
    rw [holds, Option.some.injEq] at hholds
    rw [told, hholds]
    exact .inr (List.mem_singleton_self _)
  | called _ _ free =>
    rw [free] at hholds
    cases hholds

/-- **The teardown is final.** In whatever order operations on the watch come after it: none of them
halts; every edge is ignored and asks for no timer, every poll and every question of the worker is
answered with *stop*, and another teardown does nothing. Of all that was counted only three numbers
can change: the task that was queued is cancelled by the first question of the worker, and the task
in hand is recorded once, as delivered or as failed. And whatever the parties of a live system do
after it: at most one call of the handler begins, and only for the task that the worker had taken
before and not called the handler for, be it recorded by then or not. -/
theorem teardown_final :
    (∀ {source : UInt32} {length : Micros} {level : Bool} {ops ops' : List Watch.Op}
      {answers answers' : List Watch.Answer} {k l : Shift},
      run Shift.step (Shift.start source length level) ops = .ok (answers, k) →
      run Shift.step { k with watch := k.watch.disarm.2 } ops' = .ok (answers', l) →
      Shift.Final k ops' l) ∧
    ∀ {settings : Settings} {level : Bool} {line : Line} {actions actions' : List Action}
      {shown shown' : List (List Sight)} {s t : System},
      run System.step (start settings level line) actions = .ok (shown, s) →
      s.hub.watch.windower.activity = .disarmed →
      run System.step s actions' = .ok (shown', t) →
      (calledEvents shown'.flatten).length ≤ 1 ∧
      ∀ event ∈ calledEvents shown'.flatten,
        s.worker.uncalled = some event.window ∧ .took (.run event.window) ∈ shown.flatten := by
  refine ⟨Shift.final_of_run, fun {_ _ _ _ _ shown shown' s t} h torn h' => ?_⟩
  obtain ⟨-, hcalls⟩ := calls_sublist torn h'
  have hwindows := (List.sublist_append_left _ _).trans hcalls
  constructor
  · have hlength := hwindows.length_le
    rw [List.length_map] at hlength
    exact hlength.trans Option.length_toList_le
  · intro event hevent
    have hholds := Option.mem_toList.mp (hwindows.subset (List.mem_map_of_mem hevent))
    exact ⟨hholds, took_of_uncalled h hholds⟩

/-- The teardown finds a window open, one task queued and one in hand. -/
def busy : List Watch.Op :=
  [.edge 0 true, .poll 10, .takeJob, .edge 20 true, .poll 30, .edge 40 true]

/-- After it, the task in hand is settled and the queued one is cancelled, once each. -/
def leftovers : List Watch.Op :=
  [.edge 41 true, .poll 50, .settle true ⟨0, 10, 1, 1⟩ 51, .takeJob, .disarm, .takeJob]

/-- The worker has read the line for its task, and another task is queued, when the watch is torn
down. -/
def busyWorker : List Action :=
  [.edge 0, .advance 50000, .timer, .timer, .timer, .worker, .worker, .worker, .edge 60000,
    .advance 110000, .timer, .timer, .timer, .close, .closing]

/-- After it, the delivery is recorded, the handler runs, and the worker is told to stop. -/
def lastCall : List Action :=
  [.worker, .worker, .worker, .reply none, .worker, .worker, .closing, .timer, .timer, .timer,
    .closing, .closing, .worker, .worker]

/-- In both the task in hand is settled, and the queued one is cancelled. -/
theorem teardown_final_busy :
    (∃ answers answers' k l,
      run Shift.step (Shift.start 7 10 false) busy = .ok (answers, k) ∧
      run Shift.step { k with watch := k.watch.disarm.2 } leftovers = .ok (answers', l) ∧
      k.watch.task.isSome = true ∧ k.inHand = some ⟨0, 10, 1, 1⟩ ∧ Shift.Final k leftovers l ∧
      l.watch.windower.tally.delivered = 1 ∧ l.watch.windower.tally.cancelled = 1) ∧
    ∃ shown s shown' t,
      run System.step (start {} false {}) busyWorker = .ok (shown, s) ∧
      s.hub.watch.windower.activity = .disarmed ∧ s.worker.inHand = some ⟨0, 50000, 1, 1⟩ ∧
      run System.step s lastCall = .ok (shown', t) ∧ t.worker = .stopped ∧
      calledEvents shown'.flatten = [⟨60, false, 1, 110000, ⟨0, 50000, 1, 1⟩⟩] ∧
      s.worker.uncalled = some ⟨0, 50000, 1, 1⟩ ∧
      .took (.run ⟨0, 50000, 1, 1⟩) ∈ shown.flatten := by
  constructor
  · have hbusy : (run Shift.step (Shift.start 7 10 false) busy >>= fun p =>
        run Shift.step { p.2 with watch := p.2.watch.disarm.2 } leftovers >>= fun q =>
        pure (p.2.watch.task.isSome, p.2.inHand, q.2.watch.windower.tally.delivered,
          q.2.watch.windower.tally.cancelled)) =
        Except.ok (true, some ⟨0, 10, 1, 1⟩, 1, 1) := rfl
    simp only [bind_eq_ok_iff, pure_eq_ok_iff, Prod.mk.injEq] at hbusy
    obtain ⟨⟨answers, k⟩, h, ⟨answers', l⟩, h', hqueued, hhand, hcounts⟩ := hbusy
    exact ⟨answers, answers', k, l, h, h', hqueued, hhand, teardown_final.1 h h', hcounts⟩
  · have hlive : (run System.step (start {} false {}) busyWorker >>= fun p =>
        run System.step p.2 lastCall >>= fun q =>
        pure (p.2.hub.watch.windower.activity, p.2.worker.inHand, q.2.worker,
          calledEvents q.1.flatten)) =
        Except.ok (.disarmed, some ⟨0, 50000, 1, 1⟩, .stopped,
          [⟨60, false, 1, 110000, ⟨0, 50000, 1, 1⟩⟩]) := by
      decide +kernel
    simp only [bind_eq_ok_iff, pure_eq_ok_iff, Prod.mk.injEq] at hlive
    obtain ⟨⟨shown, s⟩, h, ⟨shown', t⟩, h', torn, hhand, hstopped, hcalls⟩ := hlive
    obtain ⟨-, howned⟩ := teardown_final.2 h torn h'
    obtain ⟨huncalled, htook⟩ := howned _ (by rw [hcalls]; exact List.mem_singleton_self _)
    exact ⟨shown, s, shown', t, h, torn, hhand, h', hstopped, hcalls, huncalled, htook⟩

/-- The worker records its delivery, and then the watch is torn down. -/
def recordedFirst : List Action :=
  [.edge 0, .advance 50000, .timer, .timer, .timer, .worker, .worker, .worker, .worker, .worker,
    .close, .closing]

/-- A settled task is recorded once more after the teardown. -/
def recordedTwice : List Watch.Op :=
  [.edge 0 true, .edge 3 true, .poll 10, .takeJob, .settle true ⟨0, 10, 2, 2⟩ 11, .disarm,
    .settle true ⟨0, 10, 2, 2⟩ 12]

/-- That no task is left unrecorded at the teardown rules out neither that a call of the handler
begins after it, nor, if records were not kept to the tasks in hand, another delivery. -/
theorem called_after_record :
    (∃ shown s t, run System.step (start {} false {}) recordedFirst = .ok (shown, s) ∧
      s.hub.watch.windower.activity = .disarmed ∧ s.worker.inHand = none ∧
      s.hub.watch.windower.tally.delivered = 1 ∧
      s.step .worker = .ok ([.called ⟨60, false, 1, 50000, ⟨0, 50000, 1, 1⟩⟩], t)) ∧
    ∃ answers w, run Watch.apply (Watch.new 7 10 false) recordedTwice = .ok (answers, w) ∧
      w.windower.activity = .disarmed ∧ w.windower.tally.closed = 1 ∧
      w.windower.tally.delivered = 2 := by
  constructor
  · have hlive : (run System.step (start {} false {}) recordedFirst >>= fun p =>
        p.2.step .worker >>= fun q =>
        pure (p.2.hub.watch.windower.activity, p.2.worker.inHand,
          p.2.hub.watch.windower.tally.delivered, q.1)) =
        Except.ok (.disarmed, none, 1, [.called ⟨60, false, 1, 50000, ⟨0, 50000, 1, 1⟩⟩]) := by
      decide +kernel
    simp only [bind_eq_ok_iff, pure_eq_ok_iff, Prod.mk.injEq] at hlive
    obtain ⟨⟨shown, s⟩, h, ⟨_, t⟩, hcall, torn, hhand, hcount, rfl⟩ := hlive
    exact ⟨shown, s, t, h, torn, hhand, hcount, hcall⟩
  · have htwice : (run Watch.apply (Watch.new 7 10 false) recordedTwice).map (fun p =>
        (p.2.windower.activity, p.2.windower.tally.closed, p.2.windower.tally.delivered)) =
        .ok (.disarmed, 1, 2) := rfl
    obtain ⟨⟨answers, w⟩, h, hw⟩ := map_eq_ok_iff.mp htwice
    simp only [Prod.mk.injEq] at hw
    exact ⟨answers, w, h, hw⟩

end System

end Settle.Live
