import Settle.Proofs.Live.Projection
import Settle.Proofs.Windower.Spacing

/-!
# The core of a live system

Most of what the parties of a live system do is to read the clock, to wake each other, to go to
sleep and to say something. The windows and the tasks depend on little: on the windower, the task
that waits, how far the worker is with the task it holds, and how often the line was read. This is
the *core* of a system. A step leaves the core as it is, or it is one of a few *beats*, and then it
shows one sight of it (`StepCase.moves`). So what holds of the windows and tasks of every reachable
system is proved by cases on the beats (`Sound.core_induction`).
-/

namespace Settle.Live

/-- How far the worker is with a task. -/
inductive Progress where
  /-- It holds no task. -/
  | free
  /-- It has taken the task. -/
  | taken (report : Report)
  /-- It has read the line for the task. -/
  | read (report : Report) (level : Bool)
  /-- It could not read the line for the task. -/
  | unread
deriving DecidableEq

/-- How far the worker is with its task where it stands. -/
def WorkerAt.progress : WorkerAt → Progress
  | .sampling report => .taken report
  | .stamping report level => .read report level
  | .settling report level _ => .read report level
  | .failing _ => .unread
  | _ => .free

/-- What the windows and the tasks of a live system depend on. -/
structure Core where
  /-- The windower. -/
  windower : Windower
  /-- The task that waits. -/
  task : Option Report
  /-- How far the worker is with the task it holds. -/
  progress : Progress
  /-- How often the line was read. -/
  reads : Count

/-- The core of a system. -/
def System.core (s : System) : Core :=
  { windower := s.hub.watch.windower, task := s.hub.watch.task, progress := s.worker.progress,
    reads := s.line.reads }

/-! ## Beats -/

/-- Whether a sight shows a beat. -/
def Sight.isBeat : Sight → Bool
  | .edge .. => true
  | .polled _ (.expired _) => true
  | .took .nothing => false
  | .took _ => true
  | .sampled _ => true
  | .failed => true
  | .delivered _ => true
  | .disarmed _ => true
  | _ => false

/-- The beats among sights. -/
def beats (sights : List Sight) : List Sight := sights.filter Sight.isBeat

/-- What can happen to the core. -/
inductive Beat (c : Core) : Sight → Core → Prop where
  /-- An edge. -/
  | edge {now : Instant} {armable : Bool} {answer : EdgeAnswer} {windower : Windower}
      (act : Windower.EdgeCase c.windower now armable answer windower) :
      Beat c (.edge now answer) { c with windower }
  /-- A window closes and becomes the task that waits; the one that it replaces is coalesced. -/
  | closed {now : Instant} {report : Report} {windower : Windower} {coalesced : Count}
      (act : Windower.PollCase c.windower now (.expired report) windower)
      (replaced : coalesced.toNat = windower.tally.coalesced.toNat + c.task.toList.length) :
      Beat c (.polled now (.expired report))
        { c with
          windower := { windower with tally := { windower.tally with coalesced } }
          task := some report }
  /-- The worker takes the task. -/
  | took {report : Report} (waits : c.task = some report) (free : c.progress = .free) :
      Beat c (.took (.run report)) { c with task := none, progress := .taken report }
  /-- The worker is told to stop; the task that waits is cancelled. -/
  | stopped {cancelled : Count} (torn : c.windower.activity = .disarmed) (free : c.progress = .free)
      (count : cancelled.toNat = c.windower.tally.cancelled.toNat + c.task.toList.length) :
      Beat c (.took .stop)
        { c with
          windower := { c.windower with tally := { c.windower.tally with cancelled } }
          task := none
          progress := .free }
  /-- The worker reads the line. -/
  | sampled {report : Report} {level : Bool} (holds : c.progress = .taken report) :
      Beat c (.sampled (some level)) { c with progress := .read report level, reads := c.reads + 1 }
  /-- The worker cannot read the line. -/
  | unread {report : Report} (holds : c.progress = .taken report) :
      Beat c (.sampled none) { c with progress := .unread, reads := c.reads + 1 }
  /-- The worker records the delivery. -/
  | settled {event : Event} (holds : c.progress = .read event.window event.level)
      (count : event.sequence.toNat = c.windower.tally.delivered.toNat + 1) :
      Beat c (.delivered event)
        { c with
          windower :=
            { c.windower with tally := { c.windower.tally with delivered := event.sequence } }
          progress := .free }
  /-- The worker records that the line could not be read. -/
  | failed {failed : Count} (holds : c.progress = .unread)
      (count : failed.toNat = c.windower.tally.failed.toNat + 1) :
      Beat c .failed
        { c with
          windower := { c.windower with tally := { c.windower.tally with failed } }
          progress := .free }
  /-- The watch is torn down. -/
  | torn {wasPending : Bool} :
      Beat c (.disarmed wasPending) { c with windower := c.windower.disarm.2 }

/-- The core stays, and there is no beat among the sights; or there is one, and the core goes with
it. -/
def Core.Moves (c : Core) (sights : List Sight) (d : Core) : Prop :=
  (beats sights = [] ∧ d = c) ∨ ∃ x, beats sights = [x] ∧ Beat c x d

namespace System

variable {s t : System} {a : Action} {actions : List Action} {sights : List Sight}

/-! ## Each step is one beat, or none -/

/-- Nothing that is said is a beat. -/
theorem beats_notices (notices : List Notice) : beats (notices.map .notice) = [] := by
  rw [beats, List.filter_eq_nil_iff]
  intro x hx
  obtain ⟨notice, -, rfl⟩ := List.mem_map.mp hx
  exact Bool.noConfusion

/-- An edge is a beat. -/
theorem moves_edge {now : Instant} {answer : EdgeAnswer} {hub : Hub} {stamps : List Instant}
    (done : s.hub.edge now = .ok (answer, hub)) :
    s.core.Moves [.edge now answer] (core { s with stamps, hub }) := by
  obtain ⟨watch, hwatch, rfl⟩ := Hub.edge_eq_ok done
  obtain ⟨windower, hwindower, rfl⟩ := Watch.edge_eq_ok hwatch
  exact .inr ⟨_, rfl, .edge (Windower.edge_eq_ok hwindower)⟩

/-- Only a poll that closes a window is a beat. -/
theorem TimerCase.moves (h : TimerCase s sights t) : s.core.Moves sights t.core := by
  cases h with
  | @polling now verdict watch _ done =>
    cases Watch.poll_eq_ok done with
    | quiet _ unclosed =>
      refine .inl ⟨?_, rfl⟩
      cases verdict with
      | expired report => exact absurd rfl (unclosed report)
      | _ => rfl
    | expired asked replaced => exact .inr ⟨_, rfl, .closed (Windower.poll_eq_ok asked) replaced⟩
  | _ => exact .inl ⟨rfl, rfl⟩

/-- A task that is taken is a beat, and so is the end of the worker. -/
theorem moves_taking {job : Job} {watch : Watch} (stands : s.worker = .taking)
    (done : s.hub.watch.takeJob = .ok (job, watch)) :
    s.core.Moves [.took job] (core { s.setWatch watch with worker := afterJob job }) := by
  obtain ⟨rfl, cancelled, hcount, rfl⟩ := Watch.takeJob_eq_ok done
  have hfree : s.core.progress = .free := by rw [core, stands]; rfl
  cases hdis : s.hub.watch.windower.isDisarmed with
  | true =>
    have htorn := Windower.isDisarmed_eq_true_iff.mp hdis
    rw [hdis, if_pos rfl] at hcount
    rw [Watch.jobNow_of_disarmed htorn]
    exact .inr ⟨_, rfl, .stopped htorn hfree hcount⟩
  | false =>
    -- Nothing is cancelled, so the windower stays as it is.
    rw [hdis, if_neg Bool.false_ne_true, Nat.add_zero] at hcount
    obtain rfl := UInt64.toNat_inj.mp hcount
    rw [Watch.jobNow, hdis, if_neg Bool.false_ne_true]
    cases htask : s.hub.watch.task with
    | none => exact .inl ⟨rfl, by rw [core, core, stands, htask]; rfl⟩
    | some report => exact .inr ⟨_, rfl, .took htask hfree⟩

/-- The worker's beats are the task it takes, its reading, and what it records. -/
theorem WorkerCase.moves (h : WorkerCase s sights t) : s.core.Moves sights t.core := by
  cases h with
  | waiting stands _ => exact .inl ⟨rfl, by rw [core, core, stands]; rfl⟩
  | taking stands done => exact moves_taking stands done
  | sampled stands _ => exact .inr ⟨_, rfl, .sampled (by rw [core, stands]; rfl)⟩
  | unread stands _ => exact .inr ⟨_, rfl, .unread (by rw [core, stands]; rfl)⟩
  | stamping stands => exact .inl ⟨rfl, by rw [core, core, stands]; rfl⟩
  | settling stands done =>
    obtain ⟨delivered, hnext, -, rfl, rfl⟩ := Watch.settle_eq_ok done
    exact .inr ⟨_, rfl, .settled (by rw [core, stands]; rfl) hnext⟩
  | calling stands => exact .inl ⟨rfl, by rw [core, core, stands]; rfl⟩
  | failing stands done =>
    obtain ⟨failed, hnext, rfl⟩ := Watch.unreadable_eq_ok done
    exact .inr ⟨_, rfl, .failed (by rw [core, stands]; rfl) hnext⟩
  | concluding stands =>
    refine .inl ⟨rfl, ?_⟩
    rw [core, core, stands]
    simp [setWatch, WorkerAt.progress]
  | flushing stands =>
    refine .inl ⟨rfl, ?_⟩
    rw [core, core, stands, afterFlush]
    split <;> rfl
  | telling stands => exact .inl ⟨beats_notices _, by rw [core, core, stands]; rfl⟩

/-- Of the shutdown's acts only the teardown is a beat. -/
theorem ClosingCase.moves (h : ClosingCase s sights t) : s.core.Moves sights t.core := by
  cases h with
  | disarming _ => exact .inr ⟨_, rfl, .torn⟩
  | telling _ =>
    refine .inl ⟨?_, rfl⟩
    rw [beats, List.filter_append]
    exact congrArg (· ++ []) (beats_notices _)
  | _ => exact .inl ⟨rfl, rfl⟩

/-- Whoever acts, the core goes with at most one beat. -/
theorem StepCase.moves (h : StepCase s a sights t) : s.core.Moves sights t.core := by
  cases h with
  | edge done => exact moves_edge done
  | enter _ done => exact moves_edge done
  | timer act => exact act.moves
  | worker act => exact act.moves
  | @reply event failure stands =>
    refine .inl ⟨?_, by rw [core, core, stands]; rfl⟩
    cases failure <;> rfl
  | tell _ => exact .inl ⟨beats_notices _, rfl⟩
  | closing act => exact act.moves
  | _ => exact .inl ⟨rfl, rfl⟩

/-! ## Runs -/

/-- The beats among sights are those of each part. -/
theorem beats_append (sights sights' : List Sight) :
    beats (sights ++ sights') = beats sights ++ beats sights' :=
  List.filter_append sights sights'

/-- Induction on the beats of a history. The counts of the windower bound each other all along. -/
theorem Sound.core_induction (hs : s.Sound) {P : List Sight → Core → Prop} (start : P [] s.core)
    (next : ∀ shown c x d, c.windower.Bounded → P shown c → Beat c x d → P (shown ++ [x]) d)
    {shown : List (List Sight)} (h : run System.step s actions = .ok (shown, t)) :
    P (beats shown.flatten) t.core := by
  refine run_induction (P := fun _ shown t => P (beats shown.flatten) t.core) ?_ ?_ h
  · exact start
  · intro actions shown m a sights t hrun hm hstep
    rw [List.flatten_concat, beats_append]
    rcases (step_eq_ok hstep).moves with ⟨hsights, hcore⟩ | ⟨x, hsights, hbeat⟩
    · rw [hsights, List.append_nil, hcore]
      exact hm
    · obtain ⟨k, hmirrors, hk⟩ :=
        run_invariant hs (fun _ _ _ _ hm hstep => Sound.step hm hstep) hrun
      have hbounded := hk.bounded
      rw [hmirrors.watch] at hbounded
      rw [hsights]
      exact next _ _ _ _ hbounded hm hbeat

end System

/-! ## What beats tell -/

section Told

variable {β : Type} {f : Sight → Option β} {p : Sight → Bool}

/-- What is told by beats alone can be read off the beats. -/
theorem filterMap_beats (h : ∀ x, x.isBeat = false → f x = none) (sights : List Sight) :
    (beats sights).filterMap f = sights.filterMap f := by
  rw [beats, List.filterMap_filter]
  refine List.filterMap_congr fun x _ => ?_
  cases hx : x.isBeat with
  | true => rfl
  | false => exact (h x hx).symm

/-- What tells of beats alone can be told from the beats. -/
theorem filter_beats (h : ∀ x, p x = true → x.isBeat = true) (sights : List Sight) :
    (beats sights).filter p = sights.filter p := by
  rw [beats, List.filter_filter]
  refine List.filter_congr fun x _ => ?_
  cases hx : p x with
  | true => rw [h x hx]; rfl
  | false => rfl

end Told

/-- The report of the window that a sight shows to close. -/
def Sight.closed? : Sight → Option Report
  | .polled _ verdict => verdict.report?
  | _ => none

/-- The reports of the windows that were closed. -/
def closedReports (sights : List Sight) : List Report := sights.filterMap Sight.closed?

/-- The windows closed up to a sight are those before it and the one it shows. -/
theorem closedReports_concat (sights : List Sight) (x : Sight) :
    closedReports (sights ++ [x]) = closedReports sights ++ x.closed?.toList :=
  filterMap_concat _ _ _

/-- The closed windows can be told from the beats. -/
theorem closedReports_beats (sights : List Sight) :
    closedReports (beats sights) = closedReports sights := by
  refine filterMap_beats (fun x hx => ?_) sights
  cases x with
  | polled now verdict =>
    cases verdict with
    | expired report => cases hx
    | _ => rfl
  | _ => rfl

end Settle.Live
