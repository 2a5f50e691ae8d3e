import Settle.Live.System
import Settle.Proofs.Watch.Steps

/-!
# What one step does to a live system

A step of a live system is one act of one party. This file lists the acts of each party once, with
the point where the party stands, what it waits for, and the system afterwards: `TimerCase`,
`WorkerCase` and `ClosingCase`, and `StepCase` for all of them together with producers and callers.
What holds of every reachable system is proved by cases on these lists.
-/

namespace Settle

/-- Whether an edge opened a window. -/
def Outcome.opensWindow : Outcome → Bool
  | .opened _ => true
  | _ => false

/-- An edge at a hub is an edge at its watch; one that opens a window also wakes the timer. -/
theorem Hub.edge_eq_ok {h k : Hub} {now : Instant} {answer : EdgeAnswer}
    (hedge : h.edge now = .ok (answer, k)) :
    ∃ watch, h.watch.edge now h.armable = .ok (answer, watch) ∧
      k = { h with watch, token := h.token || (answer.outcome.opensWindow && h.attached) } := by
  simp only [edge, bind_eq_ok_iff, Prod.exists] at hedge
  obtain ⟨answer', watch, hwatch, hedge⟩ := hedge
  split at hedge
  · next hopened =>
    rw [pure_eq_ok_iff, Prod.mk.injEq] at hedge
    obtain ⟨rfl, rfl⟩ := hedge
    refine ⟨watch, hwatch, ?_⟩
    rw [hopened]
    rfl
  · next hother =>
    rw [pure_eq_ok_iff, Prod.mk.injEq] at hedge
    obtain ⟨rfl, rfl⟩ := hedge
    refine ⟨watch, hwatch, ?_⟩
    have hnot : answer'.outcome.opensWindow = false := by
      cases houtcome : answer'.outcome with
      | opened deadline => exact absurd houtcome (hother deadline)
      | _ => rfl
    rw [hnot, Bool.false_and, Bool.or_false]

namespace Live.System

variable {s t : System} {sights : List Sight}

/-! ## The timer -/

/-- The acts of the timer. -/
inductive TimerCase (s : System) : List Sight → System → Prop where
  /-- It reads the clock. -/
  | reading (stands : s.timer = .reading) :
      TimerCase s [] { s with timer := .polling s.clock }
  /-- It polls. -/
  | polling {now : Instant} {verdict : Verdict} {watch : Watch} (stands : s.timer = .polling now)
      (done : s.hub.watch.poll now = .ok (verdict, watch)) :
      TimerCase s [.polled now verdict] { s.setWatch watch with timer := afterPoll now verdict }
  /-- It finds a token where it sleeps until it is woken. -/
  | parking (stands : s.timer = .parking) (woken : s.hub.token = true) :
      TimerCase s [] { s with hub := { s.hub with token := false }, timer := .reading }
  /-- It finds a token where it sleeps for a while. -/
  | napping {polled : Instant} {us : Micros} (stands : s.timer = .napping polled us)
      (woken : s.hub.token = true) :
      TimerCase s [] { s with hub := { s.hub with token := false }, timer := .reading }
  /-- It signals the worker. -/
  | signalling (stands : s.timer = .signalling) :
      TimerCase s [] { s with hub := s.hub.raiseSignal, timer := .reading }
  /-- It goes offline. -/
  | leaving (stands : s.timer = .leaving) :
      TimerCase s [] { s with hub := s.hub.detach, timer := .stopped }

/-- A token is taken only if there is one, and then it is gone and the timer is up. -/
theorem takeToken_eq_ok (h : s.takeToken = .ok (sights, t)) :
    s.hub.token = true ∧ sights = [] ∧
      t = { s with hub := { s.hub with token := false }, timer := .reading } := by
  unfold takeToken at h
  split at h
  · next hwoken =>
    cases h
    exact ⟨hwoken, rfl, rfl⟩
  · cases h

/-- These are all the acts of the timer. -/
theorem timerStep_eq_ok (h : s.timerStep = .ok (sights, t)) : TimerCase s sights t := by
  unfold timerStep at h
  split at h
  · next hstands => cases h; exact .reading hstands
  · next now hstands =>
    simp only [bind_eq_ok_iff, mapError_eq_ok_iff, pure_eq_ok_iff, Prod.exists, Prod.mk.injEq] at h
    obtain ⟨verdict, watch, hdone, rfl, rfl⟩ := h
    exact .polling hstands hdone
  · next hstands =>
    obtain ⟨hwoken, rfl, rfl⟩ := takeToken_eq_ok h
    exact .parking hstands hwoken
  · next hstands =>
    obtain ⟨hwoken, rfl, rfl⟩ := takeToken_eq_ok h
    exact .napping hstands hwoken
  · next hstands => cases h; exact .signalling hstands
  · next hstands => cases h; exact .leaving hstands
  · cases h

/-- Each act of the timer is a step that it can take. -/
theorem TimerCase.step_eq (h : TimerCase s sights t) : s.step .timer = .ok (sights, t) := by
  change s.timerStep = _
  unfold timerStep
  cases h with
  | reading stands => rw [stands]
  | polling stands done =>
    rw [stands]
    exact bind_eq_ok_iff.mpr ⟨_, mapError_eq_ok_iff.mpr done, rfl⟩
  | parking stands woken | napping stands woken =>
    rw [stands]
    exact if_pos woken
  | signalling stands => rw [stands]
  | leaving stands => rw [stands]

/-- The timer moves neither the worker nor the shutdown. -/
theorem TimerCase.worker_eq (h : TimerCase s sights t) : t.worker = s.worker := by
  cases h <;> rfl

/-- The timer has no part in the shutdown. -/
theorem TimerCase.closing_eq (h : TimerCase s sights t) : t.closing = s.closing := by
  cases h <;> rfl

/-! ## The worker -/

/-- The acts of the worker, the handler's ending apart. -/
inductive WorkerCase (s : System) : List Sight → System → Prop where
  /-- It takes a signal. -/
  | waiting (stands : s.worker = .waiting) (signalled : s.hub.signal = true) :
      WorkerCase s [] { s with hub := s.hub.takeSignal.2, worker := .taking }
  /-- It asks what to do. -/
  | taking {job : Job} {watch : Watch} (stands : s.worker = .taking)
      (done : s.hub.watch.takeJob = .ok (job, watch)) :
      WorkerCase s [.took job] { s.setWatch watch with worker := afterJob job }
  /-- It reads the line. -/
  | sampled {report : Report} (stands : s.worker = .sampling report)
      (works : s.line.failing = false) :
      WorkerCase s [.sampled (some s.line.level)]
        { s with line := s.line.read.2, worker := .stamping report s.line.level }
  /-- It cannot read the line. -/
  | unread {report : Report} (stands : s.worker = .sampling report)
      (fails : s.line.failing = true) :
      WorkerCase s [.sampled none, .notice (.readFailed s.source)]
        { s with line := s.line.read.2, worker := .failing report }
  /-- It reads the clock. -/
  | stamping {report : Report} {level : Bool} (stands : s.worker = .stamping report level) :
      WorkerCase s [] { s with worker := .settling report level s.clock }
  /-- It records the delivery. -/
  | settling {report : Report} {level : Bool} {now : Instant} {event : Event} {watch : Watch}
      (stands : s.worker = .settling report level now)
      (done : s.hub.watch.settle level report now = .ok (event, watch)) :
      WorkerCase s [.delivered event] { s.setWatch watch with worker := .calling event }
  /-- It calls the handler. -/
  | calling {event : Event} (stands : s.worker = .calling event) :
      WorkerCase s [.called event] { s with worker := .handling event }
  /-- It records that the line could not be read. -/
  | failing {report : Report} {watch : Watch} (stands : s.worker = .failing report)
      (done : s.hub.watch.unreadable levelFailureMessage = .ok watch) :
      WorkerCase s [.failed] { s.setWatch watch with worker := .flushing }
  /-- It records how the handler ended. -/
  | concluding {failure : Option String} (stands : s.worker = .concluding failure) :
      WorkerCase s [.handled failure]
        { s.setWatch (s.hub.watch.handled failure) with worker := .flushing }
  /-- It takes the unreported faults. -/
  | flushing (stands : s.worker = .flushing) :
      WorkerCase s [.drained s.hub.watch.takeUnreported.1]
        { s.setWatch s.hub.watch.takeUnreported.2 with
          worker := afterFlush s.hub.watch.takeUnreported.1 }
  /-- It tells of the faults it took. -/
  | telling {faults : FaultSet} (stands : s.worker = .telling faults) :
      WorkerCase s (s.tellOf faults) { s with worker := .waiting }

/-- These are all the acts of the worker. -/
theorem workerStep_eq_ok (h : s.workerStep = .ok (sights, t)) : WorkerCase s sights t := by
  unfold workerStep at h
  split at h
  · next hstands =>
    split at h
    · next hsignalled => cases h; exact .waiting hstands hsignalled
    · cases h
  · next hstands =>
    simp only [bind_eq_ok_iff, mapError_eq_ok_iff, pure_eq_ok_iff, Prod.exists, Prod.mk.injEq] at h
    obtain ⟨job, watch, hdone, rfl, rfl⟩ := h
    exact .taking hstands hdone
  · next report hstands =>
    rw [Except.ok.injEq] at h
    cases hfails : s.line.failing with
    | false =>
      have hread : s.line.read.1 = some s.line.level := by simp [Line.read, hfails]
      rw [sample, hread] at h
      cases h
      exact .sampled hstands hfails
    | true =>
      have hread : s.line.read.1 = none := by simp [Line.read, hfails]
      rw [sample, hread] at h
      cases h
      exact .unread hstands hfails
  · next hstands => cases h; exact .stamping hstands
  · next hstands =>
    simp only [bind_eq_ok_iff, mapError_eq_ok_iff, pure_eq_ok_iff, Prod.exists, Prod.mk.injEq] at h
    obtain ⟨event, watch, hdone, rfl, rfl⟩ := h
    exact .settling hstands hdone
  · next hstands => cases h; exact .calling hstands
  · next hstands =>
    simp only [bind_eq_ok_iff, mapError_eq_ok_iff, pure_eq_ok_iff, Prod.mk.injEq] at h
    obtain ⟨watch, hdone, rfl, rfl⟩ := h
    exact .failing hstands hdone
  · cases h
  · next hstands => cases h; exact .concluding hstands
  · next hstands => cases h; exact .flushing hstands
  · next hstands => cases h; exact .telling hstands
  · cases h

/-- The worker does not move the shutdown. -/
theorem WorkerCase.closing_eq (h : WorkerCase s sights t) : t.closing = s.closing := by
  cases h <;> rfl

/-! ## The shutdown -/

/-- The acts of the shutdown. -/
inductive ClosingCase (s : System) : List Sight → System → Prop where
  /-- It disarms the watch. -/
  | disarming (stands : s.closing = .disarming) :
      ClosingCase s
        [.disarmed s.hub.watch.disarm.1, .notice (.shuttingDown s.source s.hub.watch.disarm.1)]
        { s.setWatch s.hub.watch.disarm.2 with closing := .waking }
  /-- It wakes the timer. -/
  | waking (stands : s.closing = .waking) :
      ClosingCase s [] { s with hub := s.hub.wake, closing := .joiningTimer }
  /-- It finds the timer stopped. -/
  | joinedTimer (stands : s.closing = .joiningTimer) (gone : s.timer = .stopped) :
      ClosingCase s [] { s with closing := .signalling }
  /-- It signals the worker. -/
  | signalling (stands : s.closing = .signalling) :
      ClosingCase s [] { s with hub := s.hub.raiseSignal, closing := .joiningWorker }
  /-- It finds the worker stopped. -/
  | joinedWorker (stands : s.closing = .joiningWorker) (gone : s.worker = .stopped) :
      ClosingCase s [] { s with closing := .releasing }
  /-- It gives the id back. -/
  | releasing (stands : s.closing = .releasing) :
      ClosingCase s [.released] { s with closing := .looking }
  /-- It takes a last snapshot. -/
  | looking (stands : s.closing = .looking) :
      ClosingCase s [.looked s.hub.look.1.1, .drained s.hub.look.1.2]
        { s with hub := s.hub.look.2, closing := .telling s.hub.look.1.1 s.hub.look.1.2 }
  /-- It tells what the last snapshot says. -/
  | telling {snapshot : Snapshot} {told : FaultSet} (stands : s.closing = .telling snapshot told) :
      ClosingCase s (s.tellOf told ++ [.notice (.stopped s.source snapshot.tally)])
        { s with closing := .closed }

/-- These are all the acts of the shutdown. -/
theorem closingStep_eq_ok (h : s.closingStep = .ok (sights, t)) : ClosingCase s sights t := by
  unfold closingStep at h
  split at h
  · next hstands => cases h; exact .disarming hstands
  · next hstands => cases h; exact .waking hstands
  · next hstands =>
    split at h
    · next hgone => cases h; exact .joinedTimer hstands hgone
    · cases h
  · next hstands => cases h; exact .signalling hstands
  · next hstands =>
    split at h
    · next hgone => cases h; exact .joinedWorker hstands hgone
    · cases h
  · next hstands => cases h; exact .releasing hstands
  · next hstands => cases h; exact .looking hstands
  · next hstands => cases h; exact .telling hstands
  · cases h
  · cases h

/-! ## All steps -/

/-- The steps of a system. -/
inductive StepCase (s : System) : Action → List Sight → System → Prop where
  /-- The clock goes on. -/
  | advance {now : Instant} (later : s.clock ≤ now) :
      StepCase s (.advance now) [] { s with clock := now }
  /-- The line's level is set. -/
  | setLevel (level : Bool) :
      StepCase s (.setLevel level) [] { s with line := s.line.setLevel level }
  /-- The line begins to fail, or stops failing. -/
  | setFailing (failing : Bool) :
      StepCase s (.setFailing failing) [] { s with line := s.line.setFailing failing }
  /-- The line's level is turned over. -/
  | toggle : StepCase s .toggle [] { s with line := s.line.toggle }
  /-- A producer reports an edge. -/
  | edge {now : Instant} {answer : EdgeAnswer} {hub : Hub}
      (done : s.hub.edge now = .ok (answer, hub)) :
      StepCase s (.edge now) [.edge now answer] { s with hub }
  /-- A producer reads the clock. -/
  | stamp : StepCase s .stamp [] { s with stamps := s.stamps ++ [s.clock] }
  /-- A producer that has read the clock reports its edge. -/
  | enter {i : Nat} {now : Instant} {answer : EdgeAnswer} {hub : Hub}
      (found : s.stamps[i]? = some now) (done : s.hub.edge now = .ok (answer, hub)) :
      StepCase s (.enter i) [.edge now answer] { s with stamps := s.stamps.eraseIdx i, hub }
  /-- The timer acts. -/
  | timer {sights : List Sight} {t : System} (act : TimerCase s sights t) :
      StepCase s .timer sights t
  /-- The timer wakes up without a token. -/
  | rouse (asleep : s.timer = .parking ∨ ∃ polled us, s.timer = .napping polled us) :
      StepCase s .rouse [] { s with timer := .reading }
  /-- The worker acts. -/
  | worker {sights : List Sight} {t : System} (act : WorkerCase s sights t) :
      StepCase s .worker sights t
  /-- The handler ends. -/
  | reply {event : Event} (failure : Option String) (stands : s.worker = .handling event) :
      StepCase s (.reply failure) (s.tellOfHandling event failure)
        { s with worker := .concluding failure }
  /-- A caller takes a snapshot, and with it the faults that are to be told of. -/
  | look :
      StepCase s .look [.looked s.hub.look.1.1, .drained s.hub.look.1.2]
        { s with
          hub := s.hub.look.2
          untold := if s.hub.look.1.2.isEmpty then s.untold else s.untold ++ [s.hub.look.1.2] }
  /-- A caller tells of the faults it took. -/
  | tell {i : Nat} {faults : FaultSet} (found : s.untold[i]? = some faults) :
      StepCase s (.tell i) (s.tellOf faults) { s with untold := s.untold.eraseIdx i }
  /-- Somebody asks for the shutdown first. -/
  | close (stands : s.closing = .running) : StepCase s .close [] { s with closing := .disarming }
  /-- Somebody asks for the shutdown again. -/
  | closeAgain (asked : s.closing ≠ .running) : StepCase s .close [] s
  /-- The shutdown acts. -/
  | closing {sights : List Sight} {t : System} (act : ClosingCase s sights t) :
      StepCase s .closing sights t

/-- An edge is passed on to the hub, and nobody moves. -/
theorem edge_eq_ok {now : Instant} (h : s.edge now = .ok (sights, t)) :
    ∃ answer hub, s.hub.edge now = .ok (answer, hub) ∧ sights = [.edge now answer] ∧
      t = { s with hub } := by
  simp only [edge, bind_eq_ok_iff, mapError_eq_ok_iff, pure_eq_ok_iff, Prod.exists,
    Prod.mk.injEq] at h
  obtain ⟨answer, hub, hdone, rfl, rfl⟩ := h
  exact ⟨answer, hub, hdone, rfl, rfl⟩

/-- These are all the steps of a system. -/
theorem step_eq_ok {a : Action} (h : s.step a = .ok (sights, t)) : StepCase s a sights t := by
  cases a with
  | advance now =>
    simp only [step] at h
    split at h
    · next hlater => cases h; exact .advance hlater
    · cases h
  | setLevel level => cases h; exact .setLevel level
  | setFailing failing => cases h; exact .setFailing failing
  | toggle => cases h; exact .toggle
  | edge now =>
    obtain ⟨answer, hub, hdone, rfl, rfl⟩ := edge_eq_ok h
    exact .edge hdone
  | stamp => cases h; exact .stamp
  | enter i =>
    simp only [step, enter] at h
    split at h
    · cases h
    · next now hfound =>
      obtain ⟨answer, hub, hdone, rfl, rfl⟩ := edge_eq_ok h
      exact .enter hfound hdone
  | timer => exact .timer (timerStep_eq_ok h)
  | rouse =>
    simp only [step, rouse] at h
    split at h
    · next hstands => cases h; exact .rouse (.inl hstands)
    · next hstands => cases h; exact .rouse (.inr ⟨_, _, hstands⟩)
    · cases h
  | worker => exact .worker (workerStep_eq_ok h)
  | reply failure =>
    simp only [step, reply] at h
    split at h
    · next hstands => cases h; exact .reply failure hstands
    · cases h
  | look => cases h; exact .look
  | tell i =>
    simp only [step, tell] at h
    split at h
    · cases h
    · next hfound => cases h; exact .tell hfound
  | close =>
    rw [step, Except.ok.injEq, Prod.mk.injEq] at h
    obtain ⟨rfl, rfl⟩ := h
    unfold close
    split
    · next hstands => exact .close hstands
    · next hasked => exact .closeAgain hasked
  | closing => exact .closing (closingStep_eq_ok h)

end Live.System

end Settle
