import Settle.Proofs.Live.Fates
import Settle.Proofs.Live.Owners
import Settle.Proofs.Live.Wakeup

/-!
# The stream of events

The worker has one task at a time. It reads the line once for it, and then either records a delivery
or records that the line could not be read (`TaskEnd`). So what the sights show of tasks is a
sequence of such rounds, the last of which may not have ended (`Logged`). Together with the fates of
the closed windows this describes the stream of events that the handler is given (`Delivers`).

Main statement: `stream_delivered`.
-/

namespace Settle.Live

/-! ## What the sights tell of tasks -/

/-- The event that a sight shows to be delivered. -/
def Sight.event? : Sight → Option Event
  | .delivered event => some event
  | _ => none

/-- Whether a sight shows a reading of the line. -/
def Sight.isReading : Sight → Bool
  | .sampled _ => true
  | _ => false

/-- Whether a sight belongs to a task that was taken. -/
def Sight.ofTask : Sight → Bool
  | .took (.run _) => true
  | .sampled _ => true
  | .failed => true
  | .delivered _ => true
  | _ => false

/-- The events that were delivered. -/
def deliveredEvents (sights : List Sight) : List Event := sights.filterMap Sight.event?

/-- How often the line was read for a task. -/
def readings (sights : List Sight) : Nat := sights.countP Sight.isReading

/-- How a task ended. -/
inductive TaskEnd where
  /-- An event was delivered. -/
  | delivered (event : Event)
  /-- The line could not be read. -/
  | failed (report : Report)

/-- What the sights show of a task that has ended: that it was taken, one reading, and how it
ended. -/
def TaskEnd.sights : TaskEnd → List Sight
  | .delivered event => [.took (.run event.window), .sampled (some event.level), .delivered event]
  | .failed report => [.took (.run report), .sampled none, .failed]

/-- What the sights show of the task that the worker holds. -/
inductive Progress.Shows : Progress → List Sight → Prop where
  | free : Shows .free []
  | taken (report : Report) : Shows (.taken report) [.took (.run report)]
  | read (report : Report) (level : Bool) :
      Shows (.read report level) [.took (.run report), .sampled (some level)]
  | unread (report : Report) : Shows .unread [.took (.run report), .sampled none]

variable {shown : List Sight} {c d : Core} {x : Sight}

/-- One more sight adds its event if it is a delivery. -/
theorem deliveredEvents_concat (shown : List Sight) (x : Sight) :
    deliveredEvents (shown ++ [x]) = deliveredEvents shown ++ x.event?.toList :=
  filterMap_concat _ _ _

/-- A sight without an event adds none. -/
theorem deliveredEvents_concat_of_none (h : x.event? = none) :
    deliveredEvents (shown ++ [x]) = deliveredEvents shown := by
  rw [deliveredEvents_concat, h, Option.toList_none, List.append_nil]

/-- One more sight counts if it is a reading of the line. -/
theorem readings_concat (shown : List Sight) (x : Sight) :
    readings (shown ++ [x]) = readings shown + if x.isReading then 1 else 0 := by
  rw [readings, List.countP_append, List.countP_singleton]
  rfl

/-- A sight that is no reading does not count. -/
theorem readings_concat_of_false (h : x.isReading = false) :
    readings (shown ++ [x]) = readings shown := by
  rw [readings_concat, h]
  rfl

/-- All deliveries are among the beats. -/
theorem deliveredEvents_beats (sights : List Sight) :
    deliveredEvents (beats sights) = deliveredEvents sights := by
  refine filterMap_beats (fun x hx => ?_) sights
  cases x with
  | delivered event => cases hx
  | _ => rfl

/-- All that is seen of tasks is among the beats. -/
theorem ofTask_beats (sights : List Sight) :
    (beats sights).filter Sight.ofTask = sights.filter Sight.ofTask := by
  refine filter_beats (fun x hx => ?_) sights
  cases x with
  | took job =>
    cases job with
    | run report => rfl
    | _ => cases hx
  | sampled _ | failed | delivered _ => rfl
  | _ => cases hx

/-- All readings of the line are among the beats. -/
theorem readings_beats (sights : List Sight) : readings (beats sights) = readings sights := by
  rw [readings, readings, List.countP_eq_length_filter, List.countP_eq_length_filter,
    filter_beats]
  intro x hx
  cases x with
  | sampled _ => rfl
  | _ => cases hx

/-! ## The rounds of the worker -/

/-- The report of a task that can still be delivered. -/
def Progress.deliverable? : Progress → Option Report
  | .taken report => some report
  | .read report _ => some report
  | _ => none

/-- Whether the line was read for a task, and what came of it is not recorded yet. -/
def Progress.isUnrecorded : Progress → Bool
  | .read .. => true
  | .unread => true
  | _ => false

/-- The progress tells whether the worker still has to record what it read. -/
theorem WorkerAt.isUnrecorded_progress (place : WorkerAt) :
    place.progress.isUnrecorded = place.unrecorded.isSome := by
  cases place <;> rfl

/-- What the sights show of the tasks that were taken, when the line was read `first` times before.
-/
structure Logged (first : Count) (shown : List Sight) (c : Core) : Prop where
  /-- They are rounds, and the last one may not have ended. -/
  rounds : ∃ (ends : List TaskEnd) (begun : List Sight),
    shown.filter Sight.ofTask = ends.flatMap TaskEnd.sights ++ begun ∧ c.progress.Shows begun
  /-- The events are numbered without a gap. -/
  numbered : (deliveredEvents shown).map (·.sequence.toNat) =
    List.range' 1 c.windower.tally.delivered.toNat
  /-- The events, and the task that can still be delivered, are among the tasks. -/
  inOrder : ((deliveredEvents shown).map Event.window ++ c.progress.deliverable?.toList).Sublist
    (takenReports shown)
  /-- Each reading is recorded, or is going to be. -/
  recorded : readings shown = c.windower.tally.delivered.toNat + c.windower.tally.failed.toNat +
    if c.progress.isUnrecorded then 1 else 0
  /-- The line counts them. -/
  reads : c.reads = first + UInt64.ofNat (readings shown)

section Logs

variable {first : Count}

/-- Most beats have nothing to do with tasks that were taken. -/
theorem Logged.still (h : Logged first shown c) (htask : x.ofTask = false)
    (htaken : x.taken? = none) (hevent : x.event? = none) (hreading : x.isReading = false)
    (hprogress : d.progress = c.progress) (hreads : d.reads = c.reads)
    (hdelivered : d.windower.tally.delivered = c.windower.tally.delivered)
    (hfailed : d.windower.tally.failed = c.windower.tally.failed) :
    Logged first (shown ++ [x]) d where
  rounds := by
    obtain ⟨ends, begun, hrounds, hshows⟩ := h.rounds
    refine ⟨ends, begun, ?_, hprogress ▸ hshows⟩
    rw [List.filter_append, List.filter_cons_of_neg (by simp [htask]), List.filter_nil,
      List.append_nil, hrounds]
  numbered := by
    rw [deliveredEvents_concat_of_none hevent, hdelivered]
    exact h.numbered
  inOrder := by
    rw [deliveredEvents_concat_of_none hevent, takenReports_concat_of_none htaken, hprogress]
    exact h.inOrder
  recorded := by
    rw [readings_concat_of_false hreading, hdelivered, hfailed, hprogress]
    exact h.recorded
  reads := by
    rw [readings_concat_of_false hreading, hreads]
    exact h.reads

/-- A task that is taken begins a round. -/
theorem Logged.taking (h : Logged first shown c) {report : Report} (free : c.progress = .free) :
    Logged first (shown ++ [.took (.run report)])
      { c with task := none, progress := .taken report } where
  rounds := by
    -- With empty hands, the last round has ended.
    obtain ⟨ends, begun, hrounds, hshows⟩ := h.rounds
    rw [free] at hshows
    cases hshows
    refine ⟨ends, _, ?_, .taken report⟩
    rw [List.filter_append, hrounds, List.append_nil]
    rfl
  numbered := by
    rw [deliveredEvents_concat_of_none rfl]
    exact h.numbered
  inOrder := by
    have hinOrder := h.inOrder
    rw [free, show Progress.free.deliverable?.toList = [] from rfl, List.append_nil] at hinOrder
    rw [deliveredEvents_concat_of_none rfl, takenReports_concat]
    exact hinOrder.append_right [report]
  recorded := by
    have hrecorded := h.recorded
    rw [free] at hrecorded
    rw [readings_concat_of_false rfl]
    exact hrecorded
  reads := by
    rw [readings_concat_of_false rfl]
    exact h.reads

/-- The line is read once for a task, whether it can be read or not. -/
theorem Logged.reading (h : Logged first shown c) {report : Report} {level? : Option Bool}
    {progress : Progress} (holds : c.progress = .taken report)
    (hshows : progress.Shows [.took (.run report), .sampled level?])
    (hdeliverable : progress.deliverable?.toList.Sublist [report])
    (hunrecorded : progress.isUnrecorded = true) :
    Logged first (shown ++ [.sampled level?]) { c with progress, reads := c.reads + 1 } where
  rounds := by
    obtain ⟨ends, begun, hrounds, hbegun⟩ := h.rounds
    rw [holds] at hbegun
    cases hbegun
    refine ⟨ends, _, ?_, hshows⟩
    rw [List.filter_append, hrounds, List.append_assoc]
    rfl
  numbered := by
    rw [deliveredEvents_concat_of_none rfl]
    exact h.numbered
  inOrder := by
    have hinOrder := h.inOrder
    rw [holds] at hinOrder
    rw [deliveredEvents_concat_of_none rfl, takenReports_concat_of_none rfl]
    exact (hdeliverable.append_left _).trans hinOrder
  recorded := by
    have hrecorded := h.recorded
    rw [holds] at hrecorded
    rw [readings_concat, hrecorded, hunrecorded]
    rfl
  reads := by
    rw [readings_concat, h.reads]
    exact (UInt64.add_assoc _ _ _).trans (congrArg _ (UInt64.ofNat_add _ 1).symm)

/-- The end of a task ends its round. -/
theorem Logged.settling (h : Logged first shown c) {event : Event}
    (holds : c.progress = .read event.window event.level)
    (count : event.sequence.toNat = c.windower.tally.delivered.toNat + 1) :
    Logged first (shown ++ [.delivered event])
      { c with
        windower :=
          { c.windower with tally := { c.windower.tally with delivered := event.sequence } }
        progress := .free } where
  rounds := by
    -- The round that had begun is the one that ends.
    obtain ⟨ends, begun, hrounds, hbegun⟩ := h.rounds
    rw [holds] at hbegun
    cases hbegun
    refine ⟨ends ++ [.delivered event], [], ?_, .free⟩
    rw [List.filter_append, hrounds, List.append_assoc, List.flatMap_append, List.append_nil]
    rfl
  numbered := by
    rw [deliveredEvents_concat, List.map_append, h.numbered]
    show _ = List.range' 1 event.sequence.toNat
    rw [count, List.range'_concat, Nat.one_mul, Nat.add_comm 1, ← count]
    rfl
  inOrder := by
    have hinOrder := h.inOrder
    rw [holds] at hinOrder
    rw [deliveredEvents_concat, takenReports_concat_of_none rfl, List.map_append]
    exact (List.append_nil _).symm ▸ hinOrder
  recorded := by
    have hrecorded := h.recorded
    rw [holds] at hrecorded
    rw [readings_concat_of_false rfl, hrecorded]
    show _ = event.sequence.toNat + _ + 0
    rw [count]
    simp only [Progress.isUnrecorded, if_true]
    omega
  reads := by
    rw [readings_concat_of_false rfl]
    exact h.reads

/-- A task for which the line could not be read ends its round without an event. -/
theorem Logged.failing (h : Logged first shown c) {failed : Count} (holds : c.progress = .unread)
    (count : failed.toNat = c.windower.tally.failed.toNat + 1) :
    Logged first (shown ++ [.failed])
      { c with
        windower := { c.windower with tally := { c.windower.tally with failed } }
        progress := .free } where
  rounds := by
    obtain ⟨ends, begun, hrounds, hbegun⟩ := h.rounds
    rw [holds] at hbegun
    cases hbegun with
    | unread report =>
      refine ⟨ends ++ [.failed report], [], ?_, .free⟩
      rw [List.filter_append, hrounds, List.append_assoc, List.flatMap_append, List.append_nil]
      rfl
  numbered := by
    rw [deliveredEvents_concat_of_none rfl]
    exact h.numbered
  inOrder := by
    have hinOrder := h.inOrder
    rw [holds] at hinOrder
    rw [deliveredEvents_concat_of_none rfl, takenReports_concat_of_none rfl]
    exact hinOrder
  recorded := by
    have hrecorded := h.recorded
    rw [holds] at hrecorded
    rw [readings_concat_of_false rfl, hrecorded]
    show _ = _ + failed.toNat + 0
    rw [count]
    simp only [Progress.isUnrecorded, if_true]
    omega
  reads := by
    rw [readings_concat_of_false rfl]
    exact h.reads

/-- Every beat goes on with the rounds. -/
theorem Logged.beat (h : Logged first shown c) (hbeat : Beat c x d) :
    Logged first (shown ++ [x]) d := by
  cases hbeat with
  | edge act =>
    obtain ⟨hdelivered, hfailed, -⟩ := act.ends_eq
    exact h.still rfl rfl rfl rfl rfl rfl hdelivered hfailed
  | closed act _ =>
    obtain ⟨hdelivered, hfailed, -⟩ := act.ends_eq
    exact h.still rfl rfl rfl rfl rfl rfl hdelivered hfailed
  | took _ free => exact h.taking free
  | stopped _ free _ => exact h.still rfl rfl rfl rfl free.symm rfl rfl rfl
  | sampled holds => exact h.reading holds (.read _ _) (List.Sublist.refl _) rfl
  | unread holds => exact h.reading holds (.unread _) (List.nil_sublist _) rfl
  | settled holds count => exact h.settling holds count
  | failed holds count => exact h.failing holds count
  | torn => exact h.still rfl rfl rfl rfl rfl rfl rfl rfl

/-- What is known of the beats is known of all sights. -/
theorem Logged.of_beats (h : Logged first (beats shown) c) : Logged first shown c := by
  obtain ⟨hrounds, hnumbered, hinOrder, hrecorded, hreads⟩ := h
  rw [ofTask_beats] at hrounds
  rw [deliveredEvents_beats] at hnumbered hinOrder
  rw [takenReports_beats] at hinOrder
  rw [readings_beats] at hrecorded hreads
  exact ⟨hrounds, hnumbered, hinOrder, hrecorded, hreads⟩

/-- The last event has the number of all deliveries. -/
theorem Logged.sequence_eq (h : Logged first shown c) {event : Event}
    (hlast : (deliveredEvents shown).getLast? = some event) :
    event.sequence = c.windower.tally.delivered := by
  have hnumber := congrArg List.getLast? h.numbered
  rw [List.getLast?_map, hlast, List.getLast?_range'] at hnumber
  split at hnumber
  · cases hnumber
  · have hcount : event.sequence.toNat = 1 + c.windower.tally.delivered.toNat - 1 :=
      Option.some.inj hnumber
    exact UInt64.toNat_inj.mp (by omega)

end Logs

/-! ## The whole stream -/

/-- Each task that is taken is the window that closed last. -/
def TakesLatest (shown : List Sight) : Prop :=
  ∀ before report after, shown = before ++ .took (.run report) :: after →
    (closedReports before).getLast? = some report

/-- Nothing was taken before anything was seen. -/
theorem takesLatest_nil : TakesLatest [] := by
  intro before report after hsplit
  exact absurd hsplit.symm (List.append_ne_nil_of_right_ne_nil _ (List.cons_ne_nil _ _))

/-- It is enough to look at each sight when it comes. -/
theorem TakesLatest.concat (h : TakesLatest shown)
    (hlast : ∀ report, x = .took (.run report) → (closedReports shown).getLast? = some report) :
    TakesLatest (shown ++ [x]) := by
  intro before report after hsplit
  rcases List.eq_nil_or_concat after with rfl | ⟨after, y, rfl⟩
  · obtain ⟨rfl, rfl⟩ := List.append_singleton_inj.mp hsplit
    exact hlast report rfl
  · rw [List.concat_eq_append, ← List.cons_append, ← List.append_assoc] at hsplit
    exact h before report after (List.append_singleton_inj.mp hsplit).1

/-- What is known of windows, tasks and events in every reachable system. -/
structure Flow (first : Count) (shown : List Sight) (c : Core) : Prop where
  fated : ∃ past, Fated past shown c
  rising : Windower.Rising (closedReports shown) c.windower
  latest : TakesLatest shown
  logged : Logged first shown c

/-- At the start nothing has happened, and the line was read once. -/
theorem flow_start (settings : Settings) (level : Bool) (line : Line) :
    Flow line.reads [] (System.start settings level line).core where
  fated := ⟨[], rfl, rfl, rfl, rfl, rfl, rfl⟩
  rising := Windower.rising_nil _
  latest := takesLatest_nil
  logged := ⟨⟨[], [], rfl, .free⟩, rfl, List.Sublist.refl _, rfl, (UInt64.add_zero _).symm⟩

/-- Every beat keeps the totals rising. -/
theorem Flow.rising_beat {first : Count} (h : Flow first shown c) (hbounded : c.windower.Bounded)
    (hbeat : Beat c x d) : Windower.Rising (closedReports (shown ++ [x])) d.windower := by
  have still {w : Windower} (hclosed : x.closed? = none)
      (hrising : Windower.Rising (closedReports shown) w) :
      Windower.Rising (closedReports (shown ++ [x])) w := by
    rwa [closedReports_concat, hclosed, Option.toList_none, List.append_nil]
  cases hbeat with
  | edge act => exact still rfl (h.rising.edge act)
  | closed act _ =>
    rw [closedReports_concat]
    exact (h.rising.poll hbounded act).of_eq rfl rfl
  | torn => exact still rfl h.rising.disarm
  | _ => exact still rfl (h.rising.of_eq rfl rfl)

/-- Every beat keeps what is known of the stream. -/
theorem Flow.beat {first : Count} (h : Flow first shown c) (hbounded : c.windower.Bounded)
    (hbeat : Beat c x d) : Flow first (shown ++ [x]) d := by
  obtain ⟨past, hfated⟩ := h.fated
  refine ⟨hfated.beat hbeat, h.rising_beat hbounded hbeat, h.latest.concat ?_, h.logged.beat hbeat⟩
  -- The task that waits is the last of the closed windows.
  rintro report rfl
  cases hbeat with
  | took waits _ =>
    rw [← hfated.closed, waits]
    exact List.getLast?_concat

/-- What is known of the beats is known of all sights. -/
theorem TakesLatest.of_beats (h : TakesLatest (beats shown)) : TakesLatest shown := by
  rintro before report after rfl
  rw [← closedReports_beats]
  refine h (beats before) report (beats after) ?_
  rw [System.beats_append]
  rfl

/-- What is known of the beats is known of all sights. -/
theorem Flow.of_beats {first : Count} (h : Flow first (beats shown) c) : Flow first shown c where
  fated := h.fated.imp fun _ hfated => hfated.of_beats
  rising := closedReports_beats shown ▸ h.rising
  latest := h.latest.of_beats
  logged := h.logged.of_beats

/-- It is known in every reachable system. -/
theorem flow_of_run {settings : Settings} {level : Bool} {line : Line} {actions : List Action}
    {shown : List (List Sight)} {s : System}
    (h : run System.step (System.start settings level line) actions = .ok (shown, s)) :
    Flow line.reads shown.flatten s.core :=
  Flow.of_beats <| (System.sound_start settings level line).core_induction
    (flow_start settings level line)
    (fun _ _ _ _ hbounded hflow hbeat => hflow.beat hbounded hbeat) h

/-! ## Every task comes to its end -/

/-- A sight that shows the end of a task. -/
def EndsTask (x : Sight) : Prop := x = .failed ∨ ∃ event, x = .delivered event

/-- A task that the worker holds comes to its end by the worker's own acts. -/
theorem System.Sound.comes_ended {s : System} (hs : s.Sound) (holds : s.worker.holdsTask = true) :
    System.Comes (fun _ => some .worker) EndsTask s := by
  induction hn : s.worker.toStop using Nat.strongRecOn generalizing s with
  | ind n ih =>
    have hcannot {place : WorkerAt} (hfree : place.holdsTask = false) : s.worker ≠ place := by
      rintro rfl
      rw [hfree] at holds
      cases holds
    obtain ⟨sights, t, hstep⟩ := hs.exists_worker (hcannot rfl) (fun h => absurd h (hcannot rfl))
      fun event => hcannot rfl
    have act : WorkerCase s sights t := System.workerStep_eq_ok hstep
    have hlt := act.toStop_lt fun h => absurd h (hcannot rfl)
    have later (hheld : t.worker.holdsTask = true) :
        System.Comes (fun _ => some .worker) EndsTask s :=
      .later rfl hstep (ih _ (hn ▸ hlt) (hs.step hstep) hheld rfl)
    cases act with
    | sampled _ _ | unread _ _ | stamping _ => exact later rfl
    | settling _ _ => exact .now rfl hstep (List.mem_singleton_self _) (.inr ⟨_, rfl⟩)
    | failing _ _ => exact .now rfl hstep (List.mem_singleton_self _) (.inl rfl)
    | waiting stands _ | taking stands _ | calling stands | concluding stands | flushing stands
    | telling stands => exact absurd stands (hcannot rfl)

/-! ## What the handler is given -/

/-- What becomes of the windows that a live system closes, and what the handler is given. -/
structure Delivers (sights : List Sight) (s : System) : Prop where
  /-- Each task that is taken is the window that closed last. -/
  latest : TakesLatest sights
  /-- The tasks that were taken are windows in the order in which they closed. -/
  inOrder : (takenReports sights).Sublist (closedReports sights)
  /-- The totals of the closed windows rise, so no window is there twice. -/
  rising : (closedReports sights).Pairwise fun r r' => r.total < r'.total
  /-- Each closed window has one fate. -/
  fated : (fates sights).map Prod.fst = closedReports sights
  /-- Those that were taken are the tasks. -/
  taken : having .taken (fates sights) = takenReports sights
  /-- The one that is queued is the task that waits. -/
  queued : having .queued (fates sights) = s.hub.watch.task.toList
  /-- Those that were coalesced are counted. -/
  coalesced : (having .coalesced (fates sights)).length =
    s.hub.watch.windower.tally.coalesced.toNat
  /-- Those that were cancelled are counted. -/
  cancelled : (having .cancelled (fates sights)).length =
    s.hub.watch.windower.tally.cancelled.toNat
  /-- For each task that was taken the line was read once, and it ended in one way; the last one may
  not have ended. -/
  rounds : ∃ (ends : List TaskEnd) (begun : List Sight),
    sights.filter Sight.ofTask = ends.flatMap TaskEnd.sights ++ begun ∧
      s.worker.progress.Shows begun
  /-- The events are numbered from 1 without a gap. -/
  numbered : (deliveredEvents sights).map (·.sequence.toNat) =
    List.range' 1 s.hub.watch.windower.tally.delivered.toNat
  /-- The last event has the number of all deliveries. -/
  last : ∀ event, (deliveredEvents sights).getLast? = some event →
    event.sequence = s.hub.watch.windower.tally.delivered
  /-- The totals of the events' windows rise. -/
  ascending : (deliveredEvents sights).Pairwise fun e e' => e.window.total < e'.window.total
  /-- Each reading was recorded as a delivery or as a failure, or is going to be. -/
  recorded : readings sights = s.hub.watch.windower.tally.delivered.toNat +
    s.hub.watch.windower.tally.failed.toNat + if s.worker.unrecorded.isSome then 1 else 0

/-- What is known of the stream, in terms of the system alone. -/
theorem Flow.delivers {first : Count} {s : System} (h : Flow first shown s.core) :
    Delivers shown s := by
  obtain ⟨past, hfated⟩ := h.fated
  have htaken := hfated.takenReports_sublist
  have hevents : ((deliveredEvents shown).map Event.window).Sublist (closedReports shown) :=
    ((List.sublist_append_left _ _).trans h.logged.inOrder).trans htaken
  have hascending := h.rising.rising.sublist hevents
  rw [List.pairwise_map] at hascending
  exact
    { latest := h.latest
      inOrder := htaken
      rising := h.rising.rising
      fated := hfated.map_fst
      taken := (hfated.having_eq .taken nofun).trans hfated.taken
      queued := hfated.having_queued
      coalesced := (congrArg List.length (hfated.having_eq .coalesced nofun)).trans hfated.coalesced
      cancelled := (congrArg List.length (hfated.having_eq .cancelled nofun)).trans hfated.cancelled
      rounds := h.logged.rounds
      numbered := h.logged.numbered
      last := fun _ hlast => h.logged.sequence_eq hlast
      ascending := hascending
      recorded := s.worker.isUnrecorded_progress ▸ h.logged.recorded }

/-- **The stream of events.** Whatever the parties of a started system do, at every moment: each
task that the worker has taken was the window that closed last, and the tasks are windows in the
order in which they closed, without repetition, where those that are left out wait still or were
coalesced or cancelled. For each task the line was read once, and it ended with one delivery or one
failure; only the last one may not have ended, and then it does, if the worker goes on. The events
are numbered 1, 2, 3 and so on up to the number of deliveries, and the totals of their windows rise.
The line was read once at the start, once for each delivery and each failure, and once more if what
was read is not recorded yet. -/
theorem stream_delivered {w₀ w : World} {i : Nat} {settings : Settings} {line : Line}
    {machine : Machine} {actions : List Action} {shown : List (List Sight)}
    (started : (w₀.start settings line machine).result = .ok i)
    (h : run (fun w a => w.act i a) (w₀.start settings line machine).world actions =
      .ok (shown, w)) :
    ∃ s, w.system? i = some s ∧ Delivers shown.flatten s ∧
      s.line.reads = line.reads + 1 + UInt64.ofNat (readings shown.flatten) ∧
      (s.worker.holdsTask = true → System.Comes (fun _ => some .worker) EndsTask s) := by
  obtain ⟨level, s, -, hs, hrun⟩ := World.system_of_start started h
  have hflow := flow_of_run hrun
  exact ⟨s, hs, hflow.delivers, hflow.logged.reads, (System.sound_of_run hrun).comes_ended⟩

/-- Of five windows the first is coalesced, the second delivered, and the third cannot be read for;
the fourth is held by the worker, which has read the line for it, and the fifth waits. -/
def fiveWindows : List Action :=
  [.edge 0, .advance 50000, .timer, .timer, .timer, .edge 50000, .advance 100000, .timer, .timer,
    .timer, .worker, .worker, .worker, .worker, .worker, .worker, .reply none, .worker, .worker,
    .setFailing true, .edge 100000, .advance 150000, .timer, .timer, .timer, .worker, .worker,
    .worker, .worker, .worker, .worker, .setFailing false, .edge 150000, .advance 200000, .timer,
    .timer, .timer, .worker, .worker, .worker, .edge 200000, .advance 250000, .timer, .timer]

/-- The fates of the windows of `fiveWindows`. The worker goes on to end the task that it holds. -/
theorem stream_delivered_fiveWindows :
    (({} : World).start {} {}).result = .ok 0 ∧
    ∃ shown w s, run (fun w a => w.act 0 a) (({} : World).start {} {}).world fiveWindows =
        .ok (shown, w) ∧
      w.system? 0 = some s ∧ Delivers shown.flatten s ∧
      fates shown.flatten =
        [(⟨0, 50000, 1, 1⟩, .coalesced), (⟨50000, 100000, 1, 2⟩, .taken),
          (⟨100000, 150000, 1, 3⟩, .taken), (⟨150000, 200000, 1, 4⟩, .taken),
          (⟨200000, 250000, 1, 5⟩, .queued)] ∧
      readings shown.flatten = 3 ∧ s.line.reads = 4 ∧
      System.Comes (fun _ => some .worker) EndsTask s := by
  have started : (({} : World).start {} {}).result = .ok 0 := by decide +kernel
  have hrun : (run (fun w a => w.act 0 a) (({} : World).start {} {}).world fiveWindows).map
      (fun p => (fates p.1.flatten, readings p.1.flatten,
        (p.2.system? 0).map (·.worker.holdsTask))) =
      .ok ([(⟨0, 50000, 1, 1⟩, .coalesced), (⟨50000, 100000, 1, 2⟩, .taken),
          (⟨100000, 150000, 1, 3⟩, .taken), (⟨150000, 200000, 1, 4⟩, .taken),
          (⟨200000, 250000, 1, 5⟩, .queued)], 3, some true) := by
    decide +kernel
  obtain ⟨⟨shown, w⟩, h, hw⟩ := map_eq_ok_iff.mp hrun
  obtain ⟨s, hs, hdelivers, hreads, hends⟩ := stream_delivered started h
  simp only [hs, Option.map_some, Prod.mk.injEq, Option.some.injEq] at hw
  obtain ⟨hfates, hreadings, hholds⟩ := hw
  rw [hreadings] at hreads
  exact ⟨started, shown, w, s, h, hs, hdelivers, hfates, hreadings, hreads, hends hholds⟩

end Settle.Live
