import Mathlib.Data.List.Count
import Mathlib.Data.List.Perm.Basic
import Settle.Proofs.Live.Owners

/-!
# Episodes of faults

An episode of a fault begins when the line gets the fault, and ends when the fault is withdrawn. The
worker and any number of callers take the unreported faults away from each other, a fault that is
withdrawn is no longer reported, and a failure may come again while its fault is there. Still each
episode is told of once: by the time an episode of one of the worker's faults ends, somebody has
taken it, since the worker takes what is unreported after each failure and before it does anything
else (`Prompt`); and nobody can take it twice, since what is taken is unreported no longer.

The timer's fault is nobody's to withdraw. It has one episode, and whoever is the first to take the
unreported faults after an edge could not be armed tells of it.

A started system can always arm its deadlines until its timer has stopped. So that edges may miss
them at any time, the timer may go offline here, and come back, whenever it likes (`Move`).

Main statement: `faults_told_once`.
-/

namespace Settle.Live

/-! ## Moves -/

/-- A step of a live system, or a change of whether its timer can be reached. -/
inductive Move where
  /-- A party takes a step. -/
  | act (a : Action)
  /-- The timer comes online. -/
  | attach
  /-- The timer goes offline, and deadlines cannot be armed. -/
  | detach
deriving DecidableEq, Repr

/-- One move of the system. -/
def System.move (s : System) : Move → Turn
  | .act a => s.step a
  | .attach => .ok ([], { s with hub := s.hub.attach })
  | .detach => .ok ([], { s with hub := s.hub.detach })

/-- What happens to one fault of a line. -/
inductive Mark where
  /-- The line gets the fault. -/
  | raised
  /-- Somebody takes it, to tell of it. -/
  | told
  /-- It is withdrawn. -/
  | cleared
deriving DecidableEq, Repr

/-- An episode from its beginning to its end. -/
def Mark.episode : List Mark := [.raised, .told, .cleared]

/-- The faults that somebody takes to tell of them. -/
def Sight.drained? : Sight → Option FaultSet
  | .drained faults => some faults
  | _ => none

/-- The fault that a sight is a case of. -/
def Sight.fault? : Sight → Option Fault
  | .edge _ answer => if answer.outcome = .degraded then some .timerUnavailable else none
  | .failed => some .levelReadFailed
  | .handled failure => failure.map fun _ => .handlerFailed
  | _ => none

/-- The faults that the worker has taken and is about to tell of. -/
def WorkerAt.taken? : WorkerAt → Option FaultSet
  | .telling faults => some faults
  | _ => none

/-- The faults that the shutdown has taken and is about to tell of. -/
def ClosingAt.taken? : ClosingAt → Option FaultSet
  | .telling _ faults => some faults
  | _ => none

/-- Nothing that is said takes a fault. -/
theorem drained?_notices (notices : List Notice) :
    (notices.map Sight.notice).filterMap Sight.drained? = [] := by
  rw [List.filterMap_map, List.filterMap_eq_nil_iff]
  exact fun _ _ => rfl

/-- Nothing that is said raises a fault. -/
theorem fault?_notices (notices : List Notice) :
    (notices.map Sight.notice).filterMap Sight.fault? = [] := by
  rw [List.filterMap_map, List.filterMap_eq_nil_iff]
  exact fun _ _ => rfl

namespace System

variable {s t u : System} {a : Action} {m : Move} {moves : List Move} {sights : List Sight}
  {shown : List (List Sight)} {f : Fault}

/-- The fault record of a system. -/
def faults (s : System) : FaultRecord := s.hub.watch.faults

/-! ## What a move does to the faults -/

/-- What a move does to the faults, what it shows of that, and where the worker stands. -/
inductive FaultCase (s : System) (sights : List Sight) (t : System) : Prop
  /-- It leaves them alone. -/
  | kept (failures : sights.filterMap Sight.fault? = [])
      (drains : sights.filterMap Sight.drained? = []) (same : t.faults = s.faults)
      (stays : s.worker = .flushing → t.worker = .flushing)
  /-- A failure is noted. The worker is about to take what is unreported if the failure is its
  own. -/
  | raised {f : Fault} (failures : sights.filterMap Sight.fault? = [f])
      (drains : sights.filterMap Sight.drained? = [])
      (active : t.faults.active = (s.faults.raise f).active)
      (unreported : t.faults.unreported = (s.faults.raise f).unreported)
      (flushes : f ≠ .timerUnavailable → t.worker = .flushing)
      (stays : s.worker = .flushing → t.worker = .flushing)
  /-- The worker withdraws one of its own faults. -/
  | cleared {f : Fault} (failures : sights.filterMap Sight.fault? = [])
      (drains : sights.filterMap Sight.drained? = []) (same : t.faults = (s.faults.clear f).2)
      (own : f ≠ .timerUnavailable) (busy : s.worker ≠ .flushing)
  /-- Somebody takes what is unreported. -/
  | drained (failures : sights.filterMap Sight.fault? = [])
      (drains : sights.filterMap Sight.drained? = [s.faults.unreported])
      (same : t.faults = s.faults.takeUnreported.2)

/-- An edge raises the timer's fault if it is degraded, and does nothing else to faults. -/
theorem faultCase_edge {now : Instant} {answer : EdgeAnswer} {hub : Hub}
    (done : s.hub.edge now = .ok (answer, hub)) (stamps : List Instant) :
    FaultCase s [.edge now answer] { s with stamps, hub } := by
  obtain ⟨watch, hwatch, rfl⟩ := Hub.edge_eq_ok done
  obtain ⟨windower, -, rfl⟩ := Watch.edge_eq_ok hwatch
  by_cases hdegraded : answer.outcome = .degraded
  · have hfault : Sight.fault? (.edge now answer) = some .timerUnavailable := if_pos hdegraded
    refine .raised (List.filterMap_cons_some hfault) rfl ?_ ?_ (fun own => absurd rfl own) id <;>
      simp [faults, hdegraded]
  · have hfault : Sight.fault? (.edge now answer) = none := if_neg hdegraded
    refine .kept (List.filterMap_cons_none hfault) rfl ?_ id
    simp [faults, hdegraded]

/-- The timer does nothing to faults. -/
theorem TimerCase.faultCase (h : TimerCase s sights t) : FaultCase s sights t := by
  cases h with
  | polling _ done => cases Watch.poll_eq_ok done <;> exact .kept rfl rfl rfl id
  | _ => exact .kept rfl rfl rfl id

/-- The worker raises, withdraws and takes faults, one thing at a time. -/
theorem WorkerCase.faultCase (h : WorkerCase s sights t) : FaultCase s sights t := by
  have hbusy {place : WorkerAt} (stands : s.worker = place) (hplace : place ≠ .flushing) :
      s.worker ≠ .flushing := stands ▸ hplace
  cases h with
  | waiting stands _ => exact .kept rfl rfl rfl fun h => absurd h (hbusy stands nofun)
  | taking stands done =>
    obtain ⟨-, cancelled, -, rfl⟩ := Watch.takeJob_eq_ok done
    exact .kept rfl rfl rfl fun h => absurd h (hbusy stands nofun)
  | sampled stands _ => exact .kept rfl rfl rfl fun h => absurd h (hbusy stands nofun)
  | unread stands _ => exact .kept rfl rfl rfl fun h => absurd h (hbusy stands nofun)
  | stamping stands => exact .kept rfl rfl rfl fun h => absurd h (hbusy stands nofun)
  | settling stands done =>
    obtain ⟨delivered, -, -, -, rfl⟩ := Watch.settle_eq_ok done
    exact .cleared rfl rfl rfl Fault.noConfusion (hbusy stands nofun)
  | calling stands => exact .kept rfl rfl rfl fun h => absurd h (hbusy stands nofun)
  | failing stands done =>
    obtain ⟨failed, -, rfl⟩ := Watch.unreadable_eq_ok done
    exact .raised rfl rfl rfl rfl (fun _ => rfl) fun _ => rfl
  | @concluding failure stands =>
    cases failure with
    | none => exact .cleared rfl rfl rfl Fault.noConfusion (hbusy stands nofun)
    | some message => exact .raised rfl rfl rfl rfl (fun _ => rfl) fun _ => rfl
  | flushing stands => exact .drained rfl rfl rfl
  | telling stands =>
    exact .kept (fault?_notices _) (drained?_notices _) rfl
      fun h => absurd h (hbusy stands nofun)

/-- The shutdown only takes the unreported faults, with its last snapshot. -/
theorem ClosingCase.faultCase (h : ClosingCase s sights t) : FaultCase s sights t := by
  cases h with
  | looking _ => exact .drained rfl rfl rfl
  | telling _ =>
    refine .kept ?_ ?_ rfl id
    · rw [List.filterMap_append, tellOf, fault?_notices]
      rfl
    · rw [List.filterMap_append, tellOf, drained?_notices]
      rfl
  | _ => exact .kept rfl rfl rfl id

/-- Every move does one of these things to faults, or nothing. -/
theorem faultCase_of_move (h : s.move m = .ok (sights, t)) : FaultCase s sights t := by
  cases m with
  | attach => cases h; exact .kept rfl rfl rfl id
  | detach => cases h; exact .kept rfl rfl rfl id
  | act a =>
    cases step_eq_ok h with
    | edge done => exact faultCase_edge done s.stamps
    | enter _ done => exact faultCase_edge done _
    | timer act => exact act.faultCase
    | worker act => exact act.faultCase
    | @reply event failure stands =>
      have hbusy : s.worker ≠ .flushing := by
        rw [stands]
        nofun
      cases failure <;> exact .kept rfl rfl rfl fun h => absurd h hbusy
    | look => exact .drained rfl rfl rfl
    | tell _ => exact .kept (fault?_notices _) (drained?_notices _) rfl id
    | closing act => exact act.faultCase
    | _ => exact .kept rfl rfl rfl id

/-! ## Nothing of the worker's stays unreported -/

/-- What is unreported is a fault that the line has, and if it is one of the worker's own, then the
worker is about to take it. -/
structure Prompt (s : System) : Prop where
  among : ∀ f, s.faults.unreported.has f = true → s.faults.active.has f = true
  flushing : ∀ f, s.faults.unreported.has f = true → f ≠ .timerUnavailable → s.worker = .flushing

/-- A new system has no fault. -/
theorem faults_start (settings : Settings) (level : Bool) (line : Line) :
    (start settings level line).faults = {} := rfl

/-- A new system has nothing unreported. -/
theorem prompt_start (settings : Settings) (level : Bool) (line : Line) :
    (start settings level line).Prompt := by
  constructor <;> intro f hf <;> simp [faults_start] at hf

/-- When the worker raises a fault of its own, it is about to take it. -/
theorem FaultCase.prompt (h : FaultCase s sights t) (hs : s.Prompt) : t.Prompt := by
  cases h with
  | kept _ _ same stays =>
    refine ⟨fun f hf => ?_, fun f hf own => ?_⟩
    · rw [same] at hf ⊢
      exact hs.among f hf
    · rw [same] at hf
      exact stays (hs.flushing f hf own)
  | @raised g _ _ active unreported flushes stays =>
    have hcases (f : Fault) (hf : t.faults.unreported.has f = true) :
        s.faults.unreported.has f = true ∨ g = f := by
      rw [unreported, FaultRecord.has_unreported_raise, Bool.or_eq_true, Bool.and_eq_true,
        decide_eq_true_eq] at hf
      exact hf.imp_right And.left
    refine ⟨fun f hf => ?_, fun f hf own => ?_⟩
    · rw [active, FaultRecord.has_active_raise, Bool.or_eq_true, decide_eq_true_eq]
      exact (hcases f hf).symm.imp_right (hs.among f)
    · rcases hcases f hf with hbefore | rfl
      · exact stays (hs.flushing f hbefore own)
      · exact flushes own
  | @cleared g _ _ same _ busy =>
    have hcases (f : Fault) (hf : t.faults.unreported.has f = true) :
        g ≠ f ∧ s.faults.unreported.has f = true := by
      simpa [same] using hf
    refine ⟨fun f hf => ?_, fun f hf own => ?_⟩
    · obtain ⟨hother, hbefore⟩ := hcases f hf
      simp [same, hother, hs.among f hbefore]
    · exact absurd (hs.flushing f (hcases f hf).2 own) busy
  | drained _ _ same =>
    have hnone (f : Fault) : t.faults.unreported.has f = false := by
      simp [same]
    constructor <;> intro f hf <;> rw [hnone f] at hf <;> cases hf

/-! ## The story of a fault -/

/-- What happens to a fault in a move from `s` to `t` that shows `sights`. -/
def marks (f : Fault) (s : System) (sights : List Sight) (t : System) : List Mark :=
  (if !s.faults.active.has f && t.faults.active.has f then [.raised] else []) ++
    List.replicate ((sights.filterMap Sight.drained?).countP (·.has f)) .told ++
    (if s.faults.active.has f && !t.faults.active.has f then [.cleared] else [])

/-- What happens to a fault from `s` on, as long as the moves are possible. -/
def story (f : Fault) (s : System) : List Move → List Mark
  | [] => []
  | m :: moves =>
    match s.move m with
    | .error _ => []
    | .ok (sights, t) => marks f s sights t ++ story f t moves

/-- The story of one more move goes on with what that move does to the fault. -/
theorem story_concat (h : run move s moves = .ok (shown, t)) (hmove : t.move m = .ok (sights, u)) :
    story f s (moves ++ [m]) = story f s moves ++ marks f t sights u := by
  induction moves generalizing s shown with
  | nil =>
    obtain ⟨-, rfl⟩ := run_nil_eq_ok_iff.mp h
    simp [story, hmove]
  | cons m' moves ih =>
    obtain ⟨sights', t', shown', hmove', hrest, -⟩ := run_cons_eq_ok_iff.mp h
    rw [List.cons_append, story, story, hmove']
    simp only
    rw [ih hrest, List.append_assoc]

/-- What has happened to a fault in its present episode, if it has one. -/
def begun (f : Fault) (r : FaultRecord) : List Mark :=
  if r.active.has f then
    if r.unreported.has f then [.raised] else [.raised, .told]
  else []

/-- An episode that has begun has raised the fault, and may have told of it. -/
theorem begun_prefix (f : Fault) (r : FaultRecord) : begun f r <+: [.raised, .told] := by
  unfold begun
  split
  · split <;> decide
  · exact List.nil_prefix

/-- A move goes on with the present episode, or ends it and begins no other. -/
theorem FaultCase.marks_eq (h : FaultCase s sights t) (hs : s.Prompt) (f : Fault) :
    ∃ n, begun f s.faults ++ marks f s sights t =
        (List.replicate n Mark.episode).flatten ++ begun f t.faults ∧
      (f = .timerUnavailable → n = 0) := by
  cases h with
  | kept _ drains same _ =>
    refine ⟨0, ?_, fun _ => rfl⟩
    simp [marks, drains, same]
  | @raised g _ drains active unreported _ _ =>
    refine ⟨0, ?_, fun _ => rfl⟩
    by_cases hg : g = f
    · subst hg
      cases hhad : s.faults.active.has g <;>
        simp [marks, begun, drains, active, unreported, hhad]
    · simp [marks, begun, drains, active, unreported, hg]
  | @cleared g _ drains same own busy =>
    by_cases hg : g = f
    · subst hg
      -- The worker withdraws nothing while a fault of its own is unreported.
      have htold : s.faults.unreported.has g = false :=
        Bool.eq_false_iff.mpr fun hdue => busy (hs.flushing g hdue own)
      cases hhad : s.faults.active.has g with
      | false =>
        refine ⟨0, ?_, fun _ => rfl⟩
        simp [marks, begun, drains, same, hhad]
      | true =>
        refine ⟨1, ?_, fun htimer => absurd htimer own⟩
        simp [marks, begun, drains, same, hhad, htold, Mark.episode]
    · refine ⟨0, ?_, fun _ => rfl⟩
      simp [marks, begun, drains, same, hg]
  | drained _ drains same =>
    refine ⟨0, ?_, fun _ => rfl⟩
    cases hdue : s.faults.unreported.has f with
    | false => simp [marks, begun, drains, same, hdue]
    | true => simp [marks, begun, drains, same, hdue, hs.among f hdue]

/-- A story that leads to a record: a number of whole episodes, of which the timer's fault has none,
and what has happened in the present one. -/
def Composed (f : Fault) (r : FaultRecord) (story : List Mark) : Prop :=
  ∃ n, story = (List.replicate n Mark.episode).flatten ++ begun f r ∧
    (f = .timerUnavailable → n = 0)

/-- What happens to a fault ends its episode, begins one, or goes on with it. -/
theorem FaultCase.composed (h : FaultCase s sights t) (hs : s.Prompt) {story : List Mark}
    (hstory : Composed f s.faults story) :
    Composed f t.faults (story ++ marks f s sights t) := by
  obtain ⟨n, rfl, hn⟩ := hstory
  obtain ⟨k, hmarks, hk⟩ := h.marks_eq hs f
  refine ⟨n + k, ?_, fun htimer => by rw [hn htimer, hk htimer]⟩
  rw [List.append_assoc, hmarks, ← List.replicate_append_replicate, List.flatten_append,
    List.append_assoc]

/-! ## Whoever takes a fault tells of it -/

/-- How often a party that has taken some faults, or none, has to tell of one. -/
def due (f : Fault) : Option FaultSet → Nat
  | none => 0
  | some faults => if faults.has f then 1 else 0

/-- Nobody who has taken nothing has anything to tell. -/
@[simp] theorem due_none (f : Fault) : due f none = 0 := rfl

/-- Who has taken faults has to tell of each of them once. -/
@[simp] theorem due_some (f : Fault) (faults : FaultSet) :
    due f (some faults) = if faults.has f then 1 else 0 := rfl

/-- How often there is still to tell of a fault: for callers, for the worker and for the
shutdown. -/
def owed (f : Fault) (s : System) : Nat :=
  s.untold.countP (·.has f) + due f s.worker.taken? + due f s.closing.taken?

/-- Each fault in a set is told of once. -/
theorem count_tellOf (s : System) (faults : FaultSet) (f : Fault) :
    (s.tellOf faults).count (.notice (.faultSet s.source f)) = if faults.has f then 1 else 0 := by
  have hinjective : Function.Injective fun g => Sight.notice (.faultSet s.source g) := by
    intro g g' hsame
    simpa using hsame
  rw [tellOf, Notice.ofFaults, List.map_map, ← FaultSet.count_toList]
  exact List.count_map_of_injective _ _ hinjective f

/-- To tell of faults takes none. -/
theorem drained?_tellOf (s : System) (faults : FaultSet) :
    (s.tellOf faults).filterMap Sight.drained? = [] :=
  drained?_notices _

/-- The worker goes on to tell of what it took, unless it took nothing. -/
theorem due_afterFlush (faults : FaultSet) (f : Fault) :
    due f (afterFlush faults).taken? = if faults.has f then 1 else 0 := by
  unfold afterFlush
  split
  · next hempty => simp [WorkerAt.taken?, FaultSet.has_of_isEmpty hempty]
  · rfl

/-- What is told of was owed, and what is taken is owed. -/
theorem StepCase.owed_eq (h : StepCase s a sights t) (f : Fault) :
    sights.count (.notice (.faultSet s.source f)) + owed f t =
      owed f s + (sights.filterMap Sight.drained?).countP (·.has f) := by
  cases h with
  | timer act => cases act <;> simp [owed, setWatch, Sight.drained?]
  | worker act =>
    cases act with
    | @taking job _ stands _ =>
      cases job <;> simp [owed, stands, WorkerAt.taken?, afterJob, setWatch, Sight.drained?]
    | flushing stands =>
      have hnone : due f s.worker.taken? = 0 := by rw [stands]; rfl
      simp +arith [owed, hnone, setWatch, Sight.drained?, due_afterFlush]
    | telling stands =>
      simp +arith [owed, stands, WorkerAt.taken?, count_tellOf, drained?_tellOf]
    | waiting stands _ | sampled stands _ | unread stands _ | stamping stands | settling stands _
    | calling stands | failing stands _ | concluding stands =>
      simp [owed, stands, WorkerAt.taken?, setWatch, Sight.drained?]
  | @reply event failure stands =>
    cases failure <;> simp [owed, stands, WorkerAt.taken?, tellOfHandling, Sight.drained?]
  | look =>
    by_cases hempty : s.hub.look.1.2.isEmpty = true
    · simp [owed, Sight.drained?, hempty, FaultSet.has_of_isEmpty hempty, List.filterMap_cons]
    · simp +arith [owed, Sight.drained?, hempty, List.filterMap_cons]
  | @tell i faults found =>
    obtain ⟨hlt, rfl⟩ := List.getElem?_eq_some_iff.mp found
    have hcount := (List.getElem_cons_eraseIdx_perm hlt).countP_eq (·.has f)
    rw [List.countP_cons] at hcount
    simp +arith [owed, count_tellOf, drained?_tellOf, ← hcount]
  | close stands => simp [owed, stands, ClosingAt.taken?]
  | closing act =>
    cases act with
    | looking stands =>
      simp [owed, stands, ClosingAt.taken?, Sight.drained?, List.filterMap_cons,
        List.countP_singleton]
    | telling stands =>
      simp +arith [owed, stands, ClosingAt.taken?, Sight.drained?, count_tellOf, drained?_tellOf,
        List.filterMap_cons]
    | disarming stands | waking stands | joinedTimer stands _ | signalling stands
    | joinedWorker stands _ | releasing stands =>
      simp [owed, stands, ClosingAt.taken?, setWatch, Sight.drained?]
  | _ => simp [owed, Sight.drained?]

/-! ## The timer's fault -/

/-- The timer's fault is there from the first edge on that could not be armed. -/
theorem FaultCase.has_timerUnavailable_iff (h : FaultCase s sights t) :
    t.faults.active.has .timerUnavailable = true ↔
      s.faults.active.has .timerUnavailable = true ∨
        .timerUnavailable ∈ sights.filterMap Sight.fault? := by
  cases h with
  | kept failures _ same _ => simp [failures, same]
  | @raised g failures _ active _ _ _ =>
    rw [active, failures, FaultRecord.has_active_raise, Bool.or_eq_true, decide_eq_true_eq,
      List.mem_singleton, eq_comm]
    exact or_comm
  | cleared failures _ same own _ =>
    rw [same, failures, FaultRecord.has_active_clear, decide_eq_true own]
    simp
  | drained failures _ same => simp [failures, same]

/-- Once somebody has taken the timer's fault, it stays taken. -/
theorem FaultCase.unreported_of_taken (h : FaultCase s sights t)
    (has : s.faults.active.has .timerUnavailable = true)
    (taken : sights.filterMap Sight.drained? ≠ [] ∨
      s.faults.unreported.has .timerUnavailable = false) :
    t.faults.unreported.has .timerUnavailable = false := by
  cases h with
  | kept _ drains same _ =>
    rw [same]
    exact taken.resolve_left (absurd drains)
  | @raised g _ drains _ unreported _ _ =>
    have hbefore := taken.resolve_left (absurd drains)
    rw [unreported, FaultRecord.has_unreported_raise, hbefore, Bool.false_or]
    by_cases hg : g = .timerUnavailable
    · rw [hg, has, Bool.not_true, Bool.and_false]
    · rw [decide_eq_false hg, Bool.false_and]
  | cleared _ drains same _ _ =>
    have hbefore := taken.resolve_left (absurd drains)
    simp [same, hbefore]
  | drained _ _ same => simp [same]

/-! ## Failures and faults -/

/-- A failure leaves its fault with the line, and nothing else brings the fault about. -/
theorem FaultCase.failures_iff (h : FaultCase s sights t) (f : Fault) :
    (f ∈ sights.filterMap Sight.fault? → t.faults.active.has f = true) ∧
      (s.faults.active.has f = false → t.faults.active.has f = true →
        f ∈ sights.filterMap Sight.fault?) := by
  cases h with
  | kept failures _ same _ => simp +contextual [failures, same]
  | @raised g failures _ active _ _ _ =>
    rw [failures, active, FaultRecord.has_active_raise, List.mem_singleton, Bool.or_eq_true,
      decide_eq_true_eq]
    refine ⟨fun hf => .inl hf.symm, fun free has => ?_⟩
    rw [free] at has
    exact (has.resolve_right Bool.false_ne_true).symm
  | cleared failures _ same _ _ => simp +contextual [failures, same]
  | drained failures _ same => simp +contextual [failures, same]

/-! ## Every run -/

section Stories

variable {settings : Settings} {level : Bool} {line : Line}

/-- In every reachable system the worker's own faults are about to be taken. -/
theorem prompt_of_run (h : run move (start settings level line) moves = .ok (shown, s)) :
    s.Prompt :=
  run_invariant (prompt_start settings level line)
    (fun _ _ _ _ hs hmove => (faultCase_of_move hmove).prompt hs) h

/-- The story of a fault is one of whole episodes and the present one. -/
theorem composed_of_run (h : run move (start settings level line) moves = .ok (shown, s))
    (f : Fault) : Composed f s.faults (story f (start settings level line) moves) := by
  refine run_induction (P := fun moves _ (s : System) =>
    Composed f s.faults (story f (start settings level line) moves)) ⟨0, ?_, fun _ => rfl⟩ ?_ h
  · simp [story, begun, faults_start]
  · intro moves shown s m sights t hrun hs hmove
    rw [story_concat hrun hmove]
    exact (faultCase_of_move hmove).composed (prompt_of_run hrun) hs

/-- The timer's fault is there once an edge has missed the timer. -/
theorem has_timerUnavailable_of_run
    (h : run move (start settings level line) moves = .ok (shown, s)) :
    s.faults.active.has .timerUnavailable = true ↔
      .timerUnavailable ∈ shown.flatten.filterMap Sight.fault? := by
  refine run_induction (P := fun _ shown s => s.faults.active.has .timerUnavailable = true ↔
    .timerUnavailable ∈ shown.flatten.filterMap Sight.fault?) ?_ ?_ h
  · simp [faults_start]
  · intro moves shown s m sights t _ hs hmove
    rw [(faultCase_of_move hmove).has_timerUnavailable_iff, hs, List.flatten_concat,
      List.filterMap_append, List.mem_append]

/-- Whoever is the first to take the unreported faults after an edge could not be armed takes the
timer's fault. -/
theorem taken_of_run (h : run move (start settings level line) moves = .ok (shown, s)) :
    ∀ before after, shown = before ++ after →
      .timerUnavailable ∈ before.flatten.filterMap Sight.fault? →
      after.flatten.filterMap Sight.drained? ≠ [] →
      s.faults.unreported.has .timerUnavailable = false := by
  refine run_induction (P := fun _ shown s => ∀ before after, shown = before ++ after →
    .timerUnavailable ∈ before.flatten.filterMap Sight.fault? →
    after.flatten.filterMap Sight.drained? ≠ [] →
    s.faults.unreported.has .timerUnavailable = false) ?_ ?_ h
  · intro before after hsplit hmissed
    obtain ⟨rfl, rfl⟩ := List.nil_eq_append_iff.mp hsplit
    cases hmissed
  · intro moves shown s m sights t hrun ih hmove before after hsplit hmissed hdrained
    obtain rfl | ⟨after, last, rfl⟩ := List.eq_nil_or_concat after
    · exact absurd rfl hdrained
    · -- The edge came before the last move, and the taking in it or before it.
      rw [List.concat_eq_append, ← List.append_assoc] at hsplit
      obtain ⟨rfl, hlast⟩ := List.append_inj' hsplit rfl
      obtain rfl := List.singleton_inj.mp hlast
      refine (faultCase_of_move hmove).unreported_of_taken ?_ ?_
      · rw [has_timerUnavailable_of_run hrun, List.flatten_append, List.filterMap_append,
          List.mem_append]
        exact .inl hmissed
      · rw [List.concat_eq_append, List.flatten_concat, List.filterMap_append, Ne,
          List.append_eq_nil_iff, not_and_or] at hdrained
        exact hdrained.symm.imp_right fun hearlier => ih before after rfl hmissed hearlier

/-- No move changes the id of the line. -/
theorem source_of_move (h : s.move m = .ok (sights, t)) : t.source = s.source := by
  cases m with
  | act a => exact source_of_step h
  | attach => cases h; rfl
  | detach => cases h; rfl

/-- What is told of in a move was owed before, and what is taken in it is owed after it. -/
theorem owed_of_move (h : s.move m = .ok (sights, t)) (f : Fault) :
    sights.count (.notice (.faultSet s.source f)) + owed f t =
      owed f s + (sights.filterMap Sight.drained?).countP (·.has f) := by
  cases m with
  | act a => exact (step_eq_ok h).owed_eq f
  | attach => cases h; simp [owed]
  | detach => cases h; simp [owed]

/-- What is taken in a move is told of in the story. -/
theorem count_marks (f : Fault) (s : System) (sights : List Sight) (t : System) :
    (marks f s sights t).count .told = (sights.filterMap Sight.drained?).countP (·.has f) := by
  unfold marks
  rw [List.count_append, List.count_append, List.count_replicate_self]
  split <;> split <;> simp

/-- A fault that was taken is told of, as often as it was taken, by the party that took it. -/
theorem logged_of_run (h : run move (start settings level line) moves = .ok (shown, s))
    (f : Fault) :
    shown.flatten.count (.notice (.faultSet settings.source f)) + owed f s =
      (story f (start settings level line) moves).count .told := by
  refine (run_induction (P := fun moves shown s => s.source = settings.source ∧
    shown.flatten.count (.notice (.faultSet settings.source f)) + owed f s =
      (story f (start settings level line) moves).count .told) ⟨rfl, rfl⟩ ?_ h).2
  rintro moves shown s m sights t hrun ⟨hsource, hs⟩ hmove
  have howed := owed_of_move hmove f
  rw [hsource] at howed
  refine ⟨(source_of_move hmove).trans hsource, ?_⟩
  rw [story_concat hrun hmove, List.count_append, count_marks, ← hs, List.flatten_concat,
    List.count_append]
  omega

/-- **Each episode of a fault is told of once.** Let the parties of a started system take their turns
in any order, with edges whose deadlines cannot be armed and with any number of callers. The story
of each of the worker's two faults is a number of whole episodes and a beginning of one: the line
gets the fault, somebody takes it once, and it is withdrawn. The fault has been taken whenever the
worker is not just about to do so, and in particular when it waits. The timer's fault is taken once
at most, and just once if anybody takes the unreported faults after an edge could not be armed. A
fault comes only with a failure, and a failure always leaves it. What was taken of a fault is told
of, or is about to be. -/
theorem faults_told_once (h : run move (start settings level line) moves = .ok (shown, s)) :
    (∀ f, f ≠ .timerUnavailable → ∃ n rest,
      story f (start settings level line) moves =
        (List.replicate n Mark.episode).flatten ++ rest ∧
      rest <+: [.raised, .told] ∧ (rest = [.raised] → s.worker = .flushing)) ∧
    story .timerUnavailable (start settings level line) moves <+: [.raised, .told] ∧
    (∀ before after, shown = before ++ after →
      .timerUnavailable ∈ before.flatten.filterMap Sight.fault? →
      after.flatten.filterMap Sight.drained? ≠ [] →
      story .timerUnavailable (start settings level line) moves = [.raised, .told]) ∧
    (∀ f m sights t, s.move m = .ok (sights, t) →
      (f ∈ sights.filterMap Sight.fault? → t.faults.active.has f = true) ∧
        (s.faults.active.has f = false → t.faults.active.has f = true →
          f ∈ sights.filterMap Sight.fault?)) ∧
    ∀ f, shown.flatten.count (.notice (.faultSet settings.source f)) + owed f s =
      (story f (start settings level line) moves).count .told := by
  have hprompt := prompt_of_run h
  have htimer : story .timerUnavailable (start settings level line) moves =
      begun .timerUnavailable s.faults := by
    obtain ⟨n, hstory, hn⟩ := composed_of_run h .timerUnavailable
    rw [hstory, hn rfl]
    rfl
  refine ⟨fun f own => ?_, htimer ▸ begun_prefix _ _, fun before after hsplit hmissed hdrained => ?_,
    fun f m sights t hmove => (faultCase_of_move hmove).failures_iff f, logged_of_run h⟩
  · obtain ⟨n, hstory, -⟩ := composed_of_run h f
    refine ⟨n, begun f s.faults, hstory, begun_prefix f s.faults, fun hraised => ?_⟩
    refine hprompt.flushing f ?_ own
    by_contra htaken
    unfold begun at hraised
    rw [if_neg htaken] at hraised
    split at hraised <;> cases hraised
  · have hactive : s.faults.active.has .timerUnavailable = true := by
      rw [has_timerUnavailable_of_run h, hsplit, List.flatten_append, List.filterMap_append,
        List.mem_append]
      exact .inl hmissed
    have htaken := taken_of_run h before after hsplit hmissed hdrained
    rw [htimer, begun, if_pos hactive, htaken]
    rfl

/-- A reading fails, and a caller takes the fault before the worker can; an edge comes while the
timer is offline; then a reading succeeds and the handler fails. -/
def mixedEpisodes : List Move :=
  [Action.edge 0, .timer, .timer, .advance 50000, .rouse, .timer, .timer, .timer, .setFailing true,
    .worker, .worker, .worker, .worker, .look, .worker, .tell 0, .timer, .timer].map .act ++
  [.detach, .act (.edge 60000), .attach, .act .look] ++
  [Action.tell 0, .edge 70000, .timer, .timer, .timer, .advance 120000, .rouse, .timer, .timer,
    .timer, .setFailing false, .worker, .worker, .worker, .worker, .worker, .worker,
    .reply (some "no"), .worker, .worker, .worker].map .act

/-- Two episodes end, one of the worker's and one of the timer's, and a third is going on. -/
theorem faults_told_once_mixedEpisodes :
    ∃ shown s, run move (start {} false {}) mixedEpisodes = .ok (shown, s) ∧
      s.worker = .waiting ∧
      (∃ n rest, story .handlerFailed (start {} false {}) mixedEpisodes =
        (List.replicate n Mark.episode).flatten ++ rest ∧ rest <+: [.raised, .told] ∧
          rest ≠ [.raised]) ∧
      story .levelReadFailed (start {} false {}) mixedEpisodes = Mark.episode ∧
      story .timerUnavailable (start {} false {}) mixedEpisodes = [.raised, .told] ∧
      shown.flatten.count (.notice (.faultSet 60 .levelReadFailed)) = 1 := by
  have hrun : (run move (start {} false {}) mixedEpisodes).map
      (fun p => (p.2.worker, (p.1.take 20).flatten.filterMap Sight.fault?,
        (p.1.drop 20).flatten.filterMap Sight.drained?, owed .levelReadFailed p.2)) =
      .ok (.waiting, [.levelReadFailed, .timerUnavailable], [⟨1⟩, ⟨4⟩], 0) := by
    decide +kernel
  have hlevel : story .levelReadFailed (start {} false {}) mixedEpisodes = Mark.episode := by
    decide +kernel
  obtain ⟨⟨shown, s⟩, h, hends⟩ := map_eq_ok_iff.mp hrun
  simp only [Prod.mk.injEq] at hends
  obtain ⟨hwaits, hfailures, hdrains, howed⟩ := hends
  obtain ⟨hepisodes, -, htimer, -, hlogged⟩ := faults_told_once h
  refine ⟨shown, s, h, hwaits, ?_, hlevel, ?_, ?_⟩
  · obtain ⟨n, rest, hstory, hbegun, hraised⟩ := hepisodes .handlerFailed Fault.noConfusion
    refine ⟨n, rest, hstory, hbegun, fun hrest => ?_⟩
    rw [hraised hrest] at hwaits
    cases hwaits
  · refine htimer (shown.take 20) (shown.drop 20) (List.take_append_drop 20 shown).symm ?_ ?_
    · rw [hfailures]
      decide
    · rw [hdrains]
      exact List.cons_ne_nil _ _
  · have hcount := hlogged .levelReadFailed
    rw [howed, hlevel] at hcount
    exact hcount

end Stories

end System

end Settle.Live
