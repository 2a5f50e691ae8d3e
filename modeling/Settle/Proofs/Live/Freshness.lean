import Settle.Proofs.Live.Steps

/-!
# A quiet system shows the level of its line

The level that a snapshot shows was read some time ago, and the line may have changed since. It may
also have changed while the worker was between reading the line and recording what it read, and the
window of that change may have been coalesced with another one. The reason why nothing is lost is
that an edge is never forgotten before the line is read again: after an edge, a window is open, or a
task waits, or the worker has a task and is about to read (`Covered`). The reading that ends this
state comes after the edge, hence after the change that the edge reported.

So every reachable system is *fresh*: it is covered, or the level it is going to show
(`levelToShow`) is the level that the line has now. The line's changes alone may break this, until
the edge comes that reports them (`Announced`).

Main statement: `level_eq_of_quiet`.
-/

namespace Settle

namespace Watch

/-- The level that a watch shows, unless the last reading of the line has failed. -/
def lastRead? (w : Watch) : Option Bool :=
  if w.faults.active.has .levelReadFailed then none else some w.level

/-- A new watch shows the level that the line was first read at. -/
@[simp] theorem lastRead?_new (source : UInt32) (length : Micros) (level : Bool) :
    (new source length level).lastRead? = some level := by
  simp [lastRead?, new]

/-- After a delivery a watch shows the level that was read for it. -/
theorem lastRead?_of_settle {w v : Watch} {level : Bool} {window : Report} {now : Instant}
    {event : Event} (h : w.settle level window now = .ok (event, v)) :
    v.lastRead? = some level := by
  obtain ⟨delivered, -, -, -, rfl⟩ := settle_eq_ok h
  simp [lastRead?]

/-- After a failed reading a watch shows no level. -/
theorem lastRead?_of_unreadable {w v : Watch} {message : String}
    (h : w.unreadable message = .ok v) : v.lastRead? = none := by
  obtain ⟨failed, -, rfl⟩ := unreadable_eq_ok h
  simp [lastRead?]

/-- How the handler ended does not change the level. -/
@[simp] theorem lastRead?_handled (w : Watch) (failure : Option String) :
    (w.handled failure).lastRead? = w.lastRead? := by
  rw [lastRead?, lastRead?, level_handled, has_active_handled _ _ Fault.noConfusion]

end Watch

namespace Live

/-- Whether an action reports an edge. -/
def Action.reportsEdge : Action → Bool
  | .edge _ => true
  | .enter _ => true
  | _ => false

/-- Whether the worker has taken a task and not recorded yet what came of it. -/
def WorkerAt.holdsTask : WorkerAt → Bool
  | .sampling _ => true
  | .stamping .. => true
  | .settling .. => true
  | .failing _ => true
  | _ => false

/-- Whether the worker is about to read the line for a task. -/
def WorkerAt.isSampling : WorkerAt → Bool
  | .sampling _ => true
  | _ => false

/-- What the worker has read and not recorded yet; a reading that failed is `some none`. -/
def WorkerAt.unrecorded : WorkerAt → Option (Option Bool)
  | .stamping _ level => some (some level)
  | .settling _ level _ => some (some level)
  | .failing _ => some none
  | _ => none

/-- A task that is held was not read for yet, or what was read is not recorded yet. -/
theorem WorkerAt.holdsTask_eq (w : WorkerAt) :
    w.holdsTask = (w.isSampling || w.unrecorded.isSome) := by
  cases w <;> rfl

namespace System

variable {s t m : System} {a : Action} {actions : List Action} {sights : List Sight}

/-! ## Changes that are announced -/

/-- Each action that changes the level of the line is followed by the report of an edge. -/
def Announced (s : System) : List Action → Prop
  | [] => True
  | a :: rest =>
    match s.step a with
    | .error _ => True
    | .ok (_, t) =>
      (t.line.level ≠ s.line.level → ∃ b ∈ rest, b.reportsEdge = true) ∧ t.Announced rest

/-- The first action is announced when an edge follows it or it changes no level. -/
theorem announced_cons_iff {rest : List Action} (h : s.step a = .ok (sights, t)) :
    s.Announced (a :: rest) ↔
      (t.line.level ≠ s.line.level → ∃ b ∈ rest, b.reportsEdge = true) ∧ t.Announced rest := by
  rw [Announced, h]

/-- Whether every change of the line is announced can be tested step by step. -/
instance decidableAnnounced :
    (s : System) → (actions : List Action) → Decidable (s.Announced actions)
  | _, [] => isTrue trivial
  | s, a :: rest =>
    match h : s.step a with
    | .error _ => isTrue (by rw [Announced, h]; trivial)
    | .ok (_, t) =>
      have := decidableAnnounced t rest
      decidable_of_iff _ (announced_cons_iff h).symm

/-- Where the last action is not an edge, all changes were announced before it, and it is no change
itself. -/
theorem Announced.of_concat (hannounced : s.Announced (actions ++ [a]))
    (hquiet : a.reportsEdge = false) {shown : List (List Sight)}
    (hrun : run System.step s actions = .ok (shown, m)) (hstep : m.step a = .ok (sights, t)) :
    s.Announced actions ∧ t.line.level = m.line.level := by
  induction actions generalizing s shown with
  | nil =>
    obtain ⟨-, rfl⟩ := run_nil_eq_ok_iff.mp hrun
    rw [List.nil_append, announced_cons_iff hstep] at hannounced
    refine ⟨trivial, ?_⟩
    by_contra hchange
    obtain ⟨b, hb, -⟩ := hannounced.1 hchange
    exact List.not_mem_nil hb
  | cons x rest ih =>
    obtain ⟨o, s', shown', hfirst, hrest, -⟩ := run_cons_eq_ok_iff.mp hrun
    rw [List.cons_append, announced_cons_iff hfirst] at hannounced
    obtain ⟨hrestAnnounced, hlevel⟩ := ih hannounced.2 hrest
    refine ⟨(announced_cons_iff hfirst).mpr ⟨fun hchange => ?_, hrestAnnounced⟩, hlevel⟩
    obtain ⟨b, hb, hedge⟩ := hannounced.1 hchange
    rcases List.mem_append.mp hb with hb | hb
    · exact ⟨b, hb, hedge⟩
    · rw [List.mem_singleton.mp hb, hquiet] at hedge
      cases hedge

/-! ## The timer can be armed -/

/-- Unless the watch is torn down, the timer can be armed, and is not about to leave. -/
def Ready (s : System) : Prop :=
  s.hub.watch.windower.activity = .disarmed ∨ (s.hub.armable = true ∧ s.timer ≠ .leaving)

/-- The timer of a new system can be armed. -/
theorem ready_start (settings : Settings) (level : Bool) (line : Line) :
    (start settings level line).Ready :=
  .inr ⟨rfl, TimerAt.noConfusion⟩

/-- What is ready stays so while nothing touches what arms the timer, and the timer is not sent
off. -/
theorem Ready.of_eq (hs : s.Ready)
    (htorn : s.hub.watch.windower.activity = .disarmed →
      t.hub.watch.windower.activity = .disarmed)
    (harmable : t.hub.armable = s.hub.armable) (htimer : t.timer = .leaving → s.timer = .leaving) :
    t.Ready := by
  rcases hs with hdis | ⟨harms, hstays⟩
  · exact .inl (htorn hdis)
  · exact .inr ⟨harmable.trans harms, fun hleaves => hstays (htimer hleaves)⟩

/-- An edge leaves the timer where it is. -/
theorem Ready.edge (hs : s.Ready) {now : Instant} {answer : EdgeAnswer} {hub : Hub}
    {stamps : List Instant} (done : s.hub.edge now = .ok (answer, hub)) :
    Ready { s with stamps, hub } := by
  obtain ⟨watch, hwatch, rfl⟩ := Hub.edge_eq_ok done
  obtain ⟨windower, hwindower, rfl⟩ := Watch.edge_eq_ok hwatch
  exact hs.of_eq (Windower.edge_eq_ok hwindower).disarmed_iff.mpr rfl id

/-- The timer leaves only if a poll told it to stop. -/
theorem Ready.timer (hs : s.Ready) (h : TimerCase s sights t) : t.Ready := by
  cases h with
  | reading _ => exact hs.of_eq id rfl TimerAt.noConfusion
  | @polling now verdict watch stands done =>
    have hcase := Watch.poll_eq_ok done
    by_cases hstop : verdict = .stop
    · exact .inl (hcase.disarmed_iff.mpr (hcase.stop_iff.mp hstop))
    · refine hs.of_eq hcase.disarmed_iff.mpr rfl fun hleaves => ?_
      change afterPoll now verdict = .leaving at hleaves
      cases verdict with
      | stop => exact absurd rfl hstop
      | idle => cases hleaves
      | wait us => cases hleaves
      | expired report => cases hleaves
  | parking _ _ => exact hs.of_eq id rfl TimerAt.noConfusion
  | napping _ _ => exact hs.of_eq id rfl TimerAt.noConfusion
  | signalling _ => exact hs.of_eq id rfl TimerAt.noConfusion
  | leaving stands =>
    rcases hs with hdis | ⟨-, hstays⟩
    · exact .inl hdis
    · exact absurd stands hstays

/-- The worker tears nothing down. -/
theorem WorkerCase.activity_eq (h : WorkerCase s sights t) :
    t.hub.watch.windower.activity = s.hub.watch.windower.activity := by
  cases h with
  | waiting _ _ => rfl
  | taking _ done =>
    obtain ⟨-, cancelled, -, rfl⟩ := Watch.takeJob_eq_ok done
    rfl
  | sampled _ _ => rfl
  | unread _ _ => rfl
  | stamping _ => rfl
  | settling _ done =>
    obtain ⟨delivered, -, -, -, rfl⟩ := Watch.settle_eq_ok done
    rfl
  | calling _ => rfl
  | failing _ done =>
    obtain ⟨failed, -, rfl⟩ := Watch.unreadable_eq_ok done
    rfl
  | concluding _ => exact congrArg Windower.activity (Watch.windower_handled _ _)
  | flushing _ => rfl
  | telling _ => rfl

/-- The worker does not detach the timer. -/
theorem WorkerCase.armable_eq (h : WorkerCase s sights t) : t.hub.armable = s.hub.armable := by
  cases h <;> rfl

/-- The worker does not move the timer. -/
theorem WorkerCase.timer_eq (h : WorkerCase s sights t) : t.timer = s.timer := by
  cases h <;> rfl

/-- The shutdown leaves the timer where it is. -/
theorem Ready.closing (hs : s.Ready) (h : ClosingCase s sights t) : t.Ready := by
  cases h with
  | disarming _ => exact .inl rfl
  | _ => exact hs.of_eq id rfl id

/-- The timer can be armed until the teardown. -/
theorem Ready.step (hs : s.Ready) (h : s.step a = .ok (sights, t)) : t.Ready := by
  cases step_eq_ok h with
  | edge done => exact hs.edge done
  | enter _ done => exact hs.edge done
  | timer act => exact hs.timer act
  | rouse _ => exact hs.of_eq id rfl TimerAt.noConfusion
  | worker act =>
    exact hs.of_eq (fun hdis => act.activity_eq.trans hdis) act.armable_eq
      fun hleaves => act.timer_eq.symm.trans hleaves
  | closing act => exact hs.closing act
  | _ => exact hs.of_eq id rfl id

/-- The timer of every reachable system is ready. -/
theorem ready_of_run {settings : Settings} {level : Bool} {line : Line}
    {shown : List (List Sight)}
    (h : run System.step (start settings level line) actions = .ok (shown, s)) : s.Ready :=
  run_invariant (ready_start settings level line) (fun _ _ _ _ hm hstep => hm.step hstep) h

/-! ## What is going to be read and shown -/

/-- The line is still going to be read: a window is open or the watch is torn down, or a task waits,
or the worker is about to read the line for one. -/
def Covered (s : System) : Prop :=
  s.hub.watch.windower.activity ≠ .idle ∨ s.hub.watch.task ≠ none ∨ s.worker.isSampling = true

/-- The level that is shown once the worker has recorded what it has read, unless the last reading
has failed by then. -/
def levelToShow (s : System) : Option Bool :=
  s.worker.unrecorded.getD s.hub.watch.lastRead?

/-- The line is still going to be read, or what is going to be shown is the level of the line. -/
def Fresh (s : System) : Prop :=
  s.Covered ∨ ∀ level, s.levelToShow = some level → level = s.line.level

/-- Nothing has changed that freshness depends on. -/
structure Alike (s t : System) : Prop where
  activity : t.hub.watch.windower.activity = s.hub.watch.windower.activity
  task : t.hub.watch.task = s.hub.watch.task
  sampling : t.worker.isSampling = s.worker.isSampling
  toShow : t.levelToShow = s.levelToShow
  level : t.line.level = s.line.level

/-- Freshness depends on no more than this of the parties. -/
theorem Alike.of_watch_eq (hwatch : t.hub.watch = s.hub.watch)
    (hsampling : t.worker.isSampling = s.worker.isSampling)
    (hunrecorded : t.worker.unrecorded = s.worker.unrecorded)
    (hlevel : t.line.level = s.line.level) : s.Alike t where
  activity := by rw [hwatch]
  task := by rw [hwatch]
  sampling := hsampling
  toShow := by rw [levelToShow, levelToShow, hwatch, hunrecorded]
  level := hlevel

/-- Freshness goes over to a system in which nothing has changed that it depends on. -/
theorem Fresh.of_alike (hs : s.Fresh) (h : s.Alike t) : t.Fresh := by
  unfold Fresh Covered at hs ⊢
  rw [h.activity, h.task, h.sampling, h.toShow, h.level]
  exact hs

/-- A system that starts with the level of its line is fresh. -/
theorem fresh_start (settings : Settings) (line : Line) :
    (start settings line.level line).Fresh := by
  have hread : (start settings line.level line).levelToShow = some line.level :=
    Watch.lastRead?_new _ _ _
  refine .inr fun level hshown => ?_
  rw [hread] at hshown
  exact (Option.some.inj hshown).symm

/-! ## Each step keeps a system fresh -/

/-- After an edge the line is still going to be read. -/
theorem Ready.covered_edge (hs : s.Ready) {now : Instant} {answer : EdgeAnswer} {hub : Hub}
    {stamps : List Instant} (done : s.hub.edge now = .ok (answer, hub)) :
    Covered { s with stamps, hub } := by
  obtain ⟨watch, hwatch, rfl⟩ := Hub.edge_eq_ok done
  obtain ⟨windower, hwindower, rfl⟩ := Watch.edge_eq_ok hwatch
  refine .inl ?_
  show windower.activity ≠ .idle
  cases Windower.edge_eq_ok hwindower with
  | ignored torn => simp [torn]
  | opened _ _ _ => simp
  | degraded idle fails _ _ =>
    -- An idle watch is not torn down, so the timer can be armed.
    rcases hs with hdis | ⟨harms, -⟩
    · rw [idle] at hdis
      cases hdis
    · rw [harms] at fails
      cases fails
  | absorbed _ _ _ _ => simp
  | carried _ _ _ _ => simp

/-- The timer changes nothing that freshness depends on, or makes a closed window a task. -/
theorem Fresh.timer (hs : s.Fresh) (h : TimerCase s sights t) : t.Fresh := by
  cases h with
  | polling _ done =>
    cases Watch.poll_eq_ok done with
    | quiet _ _ => exact hs.of_alike (.of_watch_eq rfl rfl rfl rfl)
    | expired _ _ => exact .inl (.inr (.inl (Option.some_ne_none _)))
  | _ => exact hs.of_alike (.of_watch_eq rfl rfl rfl rfl)

/-- A task that is taken makes the worker read the line, unless the watch is torn down. -/
theorem Fresh.taking (hs : s.Fresh) {job : Job} {watch : Watch} (stands : s.worker = .taking)
    (done : s.hub.watch.takeJob = .ok (job, watch)) :
    Fresh { s.setWatch watch with worker := afterJob job } := by
  obtain ⟨rfl, cancelled, -, rfl⟩ := Watch.takeJob_eq_ok done
  by_cases hdis : s.hub.watch.windower.isDisarmed = true
  · refine .inl (.inl ?_)
    show s.hub.watch.windower.activity ≠ .idle
    rw [Windower.isDisarmed_eq_true_iff.mp hdis]
    exact Activity.noConfusion
  · cases htask : s.hub.watch.task with
    | some report =>
      have hjob : s.hub.watch.jobNow = .run report := by rw [Watch.jobNow, if_neg hdis, htask]
      rw [hjob]
      exact .inl (.inr (.inr rfl))
    | none =>
      have hjob : s.hub.watch.jobNow = .nothing := by rw [Watch.jobNow, if_neg hdis, htask]
      rw [hjob]
      refine hs.of_alike ⟨rfl, htask.symm, ?_, ?_, rfl⟩
      · rw [stands]
        rfl
      · rw [levelToShow, levelToShow, stands]
        rfl

/-- What is read is the level of the line, and what is recorded is what was read. -/
theorem Fresh.worker (hs : s.Fresh) (h : WorkerCase s sights t) : t.Fresh := by
  cases h with
  | waiting stands _ =>
    exact hs.of_alike (.of_watch_eq rfl (by rw [stands]; rfl) (by rw [stands]; rfl) rfl)
  | taking stands done => exact hs.taking stands done
  | @sampled report stands works =>
    refine .inr fun level hshown => ?_
    change some s.line.level = some level at hshown
    exact (Option.some.inj hshown).symm
  | unread _ _ =>
    refine .inr fun level hshown => ?_
    change none = some level at hshown
    cases hshown
  | stamping stands =>
    exact hs.of_alike (.of_watch_eq rfl (by rw [stands]; rfl) (by rw [stands]; rfl) rfl)
  | settling stands done =>
    have hread := Watch.lastRead?_of_settle done
    obtain ⟨delivered, -, -, -, rfl⟩ := Watch.settle_eq_ok done
    refine hs.of_alike ⟨rfl, rfl, by rw [stands]; rfl, ?_, rfl⟩
    rw [levelToShow, levelToShow, stands]
    exact hread
  | calling stands =>
    exact hs.of_alike (.of_watch_eq rfl (by rw [stands]; rfl) (by rw [stands]; rfl) rfl)
  | failing stands done =>
    have hread := Watch.lastRead?_of_unreadable done
    obtain ⟨failed, -, rfl⟩ := Watch.unreadable_eq_ok done
    refine hs.of_alike ⟨rfl, rfl, by rw [stands]; rfl, ?_, rfl⟩
    rw [levelToShow, levelToShow, stands]
    exact hread
  | concluding stands =>
    refine hs.of_alike ⟨?_, Watch.task_handled _ _, by rw [stands]; rfl, ?_, rfl⟩
    · exact congrArg Windower.activity (Watch.windower_handled _ _)
    · rw [levelToShow, levelToShow, stands]
      exact Watch.lastRead?_handled _ _
  | flushing stands =>
    refine hs.of_alike ⟨rfl, rfl, ?_, ?_, rfl⟩
    · rw [stands, afterFlush]
      split <;> rfl
    · rw [levelToShow, levelToShow, stands, afterFlush]
      split <;> rfl
  | telling stands =>
    exact hs.of_alike (.of_watch_eq rfl (by rw [stands]; rfl) (by rw [stands]; rfl) rfl)

/-- The shutdown changes nothing that freshness depends on, except that it tears the watch down. -/
theorem Fresh.closing (hs : s.Fresh) (h : ClosingCase s sights t) : t.Fresh := by
  cases h with
  | disarming _ => exact .inl (.inl Activity.noConfusion)
  | _ => exact hs.of_alike ⟨rfl, rfl, rfl, rfl, rfl⟩

/-- A step that does not change the level of the line keeps a system fresh. -/
theorem Fresh.step (hs : s.Fresh) (hready : s.Ready) (h : s.step a = .ok (sights, t))
    (hlevel : t.line.level = s.line.level) : t.Fresh := by
  cases step_eq_ok h with
  | edge done => exact .inl (hready.covered_edge done)
  | enter _ done => exact .inl (hready.covered_edge done)
  | timer act => exact hs.timer act
  | worker act => exact hs.worker act
  | reply failure stands =>
    exact hs.of_alike (.of_watch_eq rfl (by rw [stands]; rfl) (by rw [stands]; rfl) rfl)
  | closing act => exact hs.closing act
  | _ => exact hs.of_alike ⟨rfl, rfl, rfl, rfl, hlevel⟩

/-- A system whose line's changes are all announced is fresh. -/
theorem fresh_of_run {settings : Settings} {line : Line} {shown : List (List Sight)}
    (h : run System.step (start settings line.level line) actions = .ok (shown, s))
    (hannounced : (start settings line.level line).Announced actions) : s.Fresh := by
  refine run_induction
    (P := fun actions _ t => (start settings line.level line).Announced actions → t.Fresh)
    (fun _ => fresh_start settings line) ?_ h hannounced
  intro actions shown m a sights t hrun ih hstep hannounced
  have hready := ready_of_run hrun
  by_cases hedge : a.reportsEdge = true
  · -- The edge reports all changes before it, announced or not.
    cases step_eq_ok hstep with
    | edge done => exact .inl (hready.covered_edge done)
    | enter _ done => exact .inl (hready.covered_edge done)
    | _ => cases hedge
  · rw [Bool.not_eq_true] at hedge
    obtain ⟨hbefore, hlevel⟩ := hannounced.of_concat hedge hrun hstep
    exact (ih hbefore).step hready hstep hlevel

/-- **No stale level.** In whatever order the parties of a live system take their steps: when no
window is open, no task waits and the worker holds none, then the level that a snapshot shows is the
level of the line, if every change of the line was followed by an edge and the last reading of the
line did not fail. -/
theorem level_eq_of_quiet {settings : Settings} {line : Line} {shown : List (List Sight)}
    (h : run System.step (start settings line.level line) actions = .ok (shown, s))
    (announced : (start settings line.level line).Announced actions)
    (idle : s.hub.watch.snapshot.phase = .idle) (empty : s.hub.watch.snapshot.queued = false)
    (free : s.worker.holdsTask = false)
    (readable : s.hub.watch.snapshot.faults.has .levelReadFailed = false) :
    s.hub.watch.snapshot.level = s.line.level := by
  rw [WorkerAt.holdsTask_eq, Bool.or_eq_false_iff] at free
  obtain ⟨hnotSampling, hrecorded⟩ := free
  rcases fresh_of_run h announced with hcovered | hfresh
  · rcases hcovered with hopen | hwaits | hsampling
    · exact absurd (Windower.phase_eq_idle_iff.mp idle) hopen
    · change s.hub.watch.task.isSome = false at empty
      rw [Option.isSome_eq_false_iff, Option.isNone_iff_eq_none] at empty
      exact absurd empty hwaits
    · rw [hnotSampling] at hsampling
      cases hsampling
  · refine hfresh _ ?_
    rw [Option.isSome_eq_false_iff, Option.isNone_iff_eq_none] at hrecorded
    change s.hub.watch.faults.active.has .levelReadFailed = false at readable
    rw [levelToShow, hrecorded, Option.getD_none, Watch.lastRead?, readable]
    rfl

/-- A line that is low. -/
def quietLine : Line := {}

/-- The line goes high for a window, and back again after the worker has read it and before the
reading is recorded. -/
def lateBounce : List Action :=
  [.toggle, .edge 0, .timer, .timer, .advance 50000, .rouse, .timer, .timer, .timer,
    .worker, .worker, .worker, .toggle, .edge 50001, .worker, .worker, .worker, .reply none,
    .worker, .worker, .timer, .timer, .advance 100001, .rouse, .timer, .timer, .timer, .worker,
    .worker, .worker, .worker, .worker]

/-- The second reading sees what happened during the first. -/
theorem level_eq_of_quiet_lateBounce :
    ∃ shown s, run System.step (start {} quietLine.level quietLine) lateBounce = .ok (shown, s) ∧
      (start {} quietLine.level quietLine).Announced lateBounce ∧ s.hub.watch.snapshot.phase = .idle ∧
      s.hub.watch.snapshot.queued = false ∧ s.worker.holdsTask = false ∧
      s.hub.watch.snapshot.faults.has .levelReadFailed = false ∧
      s.hub.watch.snapshot.tally.delivered = 2 ∧
      s.hub.watch.snapshot.level = s.line.level := by
  have hrun : (run System.step (start {} quietLine.level quietLine) lateBounce).map (fun p =>
      (p.2.hub.watch.snapshot.phase, p.2.hub.watch.snapshot.queued, p.2.worker.holdsTask,
        p.2.hub.watch.snapshot.faults.has .levelReadFailed,
        p.2.hub.watch.snapshot.tally.delivered)) = .ok (.idle, false, false, false, 2) := by
    decide +kernel
  have hannounced : (start {} quietLine.level quietLine).Announced lateBounce := by decide +kernel
  obtain ⟨⟨shown, s⟩, h, hs⟩ := map_eq_ok_iff.mp hrun
  simp only [Prod.mk.injEq] at hs
  obtain ⟨idle, empty, free, readable, hdelivered⟩ := hs
  exact ⟨shown, s, h, hannounced, idle, empty, free, readable, hdelivered,
    level_eq_of_quiet h hannounced idle empty free readable⟩

end System

end Live

end Settle
