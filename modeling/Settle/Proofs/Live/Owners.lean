import Settle.Live.World
import Settle.Proofs.Live.Projection

/-!
# A live system among the owners

A system that is started claims its id in the registry, and from then on its parties act in the
world as they do alone (`system_of_run`). They change the registry only once, when the shutdown
gives the id back; the registry is then what it was before the start (`registry_of_run`).
-/

namespace Settle

/-- No operation on a watch changes the id of its line. -/
theorem Shift.StepCase.source_eq {s t : Shift} {op : Watch.Op} {answer : Watch.Answer}
    (h : StepCase s op answer t) : t.watch.source = s.watch.source := by
  cases h with
  | edge done =>
    obtain ⟨windower, -, rfl⟩ := Watch.edge_eq_ok done
    rfl
  | poll done => cases Watch.poll_eq_ok done <;> rfl
  | takeJob _ done =>
    obtain ⟨-, cancelled, -, rfl⟩ := Watch.takeJob_eq_ok done
    rfl
  | settle _ done =>
    obtain ⟨delivered, -, -, -, rfl⟩ := Watch.settle_eq_ok done
    rfl
  | unreadable _ done =>
    obtain ⟨failed, -, rfl⟩ := Watch.unreadable_eq_ok done
    rfl
  | handled failure => cases failure <;> rfl
  | disarm => rfl
  | takeUnreported => rfl
  | snapshot => rfl

/-- An id that could be claimed was free. -/
theorem Registry.isClaimed_of_claim {r r' : Registry} {id : UInt32} (h : r.claim id = .ok r') :
    r.isClaimed id = false := by
  rw [← Bool.not_eq_true, isClaimed_iff_mem]
  exact (claim_eq_ok_iff.mp h).1

/-- A tap that was acquired has its id claimed. -/
theorem Tap.claim_of_ok {r : Registry} {id : UInt32} {line : Line} {got : Tap × Bool}
    (h : (acquire r id line).result = .ok got) :
    r.claim id = .ok (acquire r id line).registry := by
  unfold acquire at h ⊢
  cases hclaim : r.claim id with
  | error e =>
    rw [hclaim] at h
    cases h
  | ok claimed =>
    simp only [hclaim] at h ⊢
    cases hread : line.read.1 with
    | none =>
      rw [hread] at h
      cases h
    | some level => rfl

/-- A tap that was acquired has the id that was asked for, and has read its line once. -/
theorem Tap.read_of_ok {r : Registry} {id : UInt32} {line : Line} {got : Tap × Bool}
    (h : (acquire r id line).result = .ok got) :
    got.1.id = id ∧ line.read.1 = some got.2 ∧ got.1.line = line.read.2 := by
  unfold acquire at h
  cases hclaim : r.claim id with
  | error e =>
    rw [hclaim] at h
    cases h
  | ok claimed =>
    simp only [hclaim] at h
    cases hread : line.read.1 with
    | none =>
      rw [hread] at h
      cases h
    | some level =>
      rw [hread] at h
      cases h
      exact ⟨rfl, rfl, rfl⟩

namespace Live

/-! ## The id of a system, and how long it is owned -/

namespace System

variable {s t : System} {a : Action} {actions : List Action} {sights : List Sight}

/-- No step changes the id of the line. -/
theorem source_of_step (h : s.step a = .ok (sights, t)) : t.source = s.source := by
  obtain ⟨k, hm⟩ := exists_mirrors s
  obtain ⟨ops, answers, k', hrun, hm'⟩ := hm.step h
  have hsource : k'.watch.source = k.watch.source :=
    run_invariant (P := fun m => m.watch.source = k.watch.source) rfl
      (fun _ _ _ _ hk hstep => (Shift.step_eq_ok hstep).source_eq.trans hk) hrun
  rw [source, source, ← hm.watch, ← hm'.watch, hsource]

/-- A system has the id of its settings. -/
theorem source_of_run {settings : Settings} {level : Bool} {line : Line}
    {shown : List (List Sight)}
    (h : run System.step (start settings level line) actions = .ok (shown, s)) :
    s.source = settings.source :=
  run_invariant (P := fun s => s.source = settings.source) rfl
    (fun _ _ _ _ hs hstep => (source_of_step hstep).trans hs) h

/-- The shutdown goes on only by being asked for and by its own acts. -/
theorem StepCase.closing_cases (h : StepCase s a sights t) :
    t.closing = s.closing ∨ (s.closing = .running ∧ t.closing = .disarming) ∨
      (a = .closing ∧ ClosingCase s sights t) := by
  cases h with
  | timer act => exact .inl act.closing_eq
  | worker act => exact .inl act.closing_eq
  | close stands => exact .inr (.inl ⟨stands, rfl⟩)
  | closing act => exact .inr (.inr ⟨rfl, act⟩)
  | _ => exact .inl rfl

/-- What was given back stays given back. -/
theorem owning_of_step (h : s.step a = .ok (sights, t)) (hgone : s.owning = false) :
    t.owning = false := by
  unfold owning at hgone ⊢
  rcases (step_eq_ok h).closing_cases with hsame | ⟨stands, -⟩ | ⟨-, act⟩
  · rw [hsame]
    exact hgone
  · rw [stands] at hgone
    cases hgone
  · cases act with
    | looking _ => rfl
    | telling _ => rfl
    | releasing _ => rfl
    | disarming stands | waking stands | joinedTimer stands _ | signalling stands
    | joinedWorker stands _ =>
      rw [stands] at hgone
      cases hgone

end System

namespace World

variable {w v : World} {i : Nat} {a : Action} {actions : List Action} {sights : List Sight}
  {shown : List (List Sight)} {s : System} {settings : Settings} {line : Line}
  {machine : Machine}

/-! ## One system in the world -/

/-- A system is found under the number that it has among the owners. -/
theorem system?_eq_some_iff : w.system? i = some s ↔ w.owners[i]? = some (.system s) := by
  unfold system?
  split
  · next s' hfound => rw [hfound, Option.some.injEq, Option.some.injEq, Owner.system.injEq]
  · next hother =>
    constructor
    · intro h
      cases h
    · intro h
      exact absurd h (hother s)

/-- A step in the world is a step of the system. -/
theorem act_eq_ok (h : w.act i a = .ok (sights, v)) :
    ∃ s t, w.system? i = some s ∧ s.step a = .ok (sights, t) ∧
      v = { w.giveBack (released? s t) with owners := w.owners.set i (.system t) } := by
  unfold act at h
  split at h
  · cases h
  · next s hfound =>
    simp only [bind_eq_ok_iff, pure_eq_ok_iff, Prod.exists, Prod.mk.injEq] at h
    obtain ⟨sights', t, hstep, rfl, rfl⟩ := h
    exact ⟨s, t, hfound, hstep, rfl⟩

/-- A step that leaves the system as it was leaves the world as it was. -/
theorem act_of_same (hfound : w.system? i = some s) (hstep : s.step a = .ok (sights, s)) :
    w.act i a = .ok (sights, w) := by
  obtain ⟨hlt, hget⟩ := List.getElem?_eq_some_iff.mp (system?_eq_some_iff.mp hfound)
  have hset : w.owners.set i (.system s) = w.owners := by
    rw [← hget, List.set_getElem_self]
  have hkept : released? s s = none := by
    rw [released?, Bool.and_not_self]
    rfl
  simp only [act, hfound]
  refine bind_eq_ok_iff.mpr ⟨_, hstep, ?_⟩
  rw [hset, hkept]
  rfl

/-- After its step the system has its number still. -/
theorem system?_set {t : System} {registry : Registry} (h : w.system? i = some s) :
    system? { registry, owners := w.owners.set i (.system t) } i = some t := by
  rw [system?_eq_some_iff] at h ⊢
  obtain ⟨hlt, -⟩ := List.getElem?_eq_some_iff.mp h
  exact List.getElem?_set_self hlt

/-- In the world the parties of a system act as they do alone. -/
theorem system_of_run (hfound : w.system? i = some s)
    (h : run (fun w a => w.act i a) w actions = .ok (shown, v)) :
    ∃ t, run System.step s actions = .ok (shown, t) ∧ v.system? i = some t := by
  refine run_induction (P := fun actions shown v =>
    ∃ t, run System.step s actions = .ok (shown, t) ∧ v.system? i = some t) ⟨s, rfl, hfound⟩ ?_ h
  rintro actions shown m a sights v' - ⟨t, hrun, ht⟩ hact
  obtain ⟨t', u, ht', hstep, rfl⟩ := act_eq_ok hact
  rw [ht, Option.some.injEq] at ht'
  subst ht'
  exact ⟨u, run_concat_eq_ok_iff.mpr ⟨_, _, _, hrun, hstep, rfl⟩, system?_set ht⟩

/-! ## A system that was started -/

/-- How a start can end: each of the things it takes is not to be had, after those before it were,
or all of them are. -/
inductive StartCase (w : World) (settings : Settings) (line : Line) (machine : Machine) :
    Founding Refusal Nat → Prop
  /-- The settings have a flaw. -/
  | flawed {flaw : Flaw} (check : settings.check = .error flaw) :
      StartCase w settings line machine { world := w, line, result := .error (.settings flaw) }
  /-- Somebody owns the id. -/
  | busy (check : settings.check = .ok ()) (owned : settings.source ∈ w.registry.ids) :
      StartCase w settings line machine
        { world := w, line, result := .error (.resource (.sourceBusy settings.source)) }
  /-- No more ids can be owned. -/
  | full (check : settings.check = .ok ()) (free : settings.source ∉ w.registry.ids)
      (full : Registry.capacity ≤ w.registry.ids.length) :
      StartCase w settings line machine
        { world := w, line, result := .error (.resource .registryFull) }
  /-- The line cannot be read. -/
  | unread (check : settings.check = .ok ()) (free : settings.source ∉ w.registry.ids)
      (room : w.registry.ids.length < Registry.capacity) (unread : line.read.1 = none) :
      StartCase w settings line machine
        { world := w, line := line.read.2, notices := [.firstReadFailed settings.source],
          result := .error (.resource .levelReadFailed) }
  /-- A task is not launched. -/
  | unlaunched {level : Bool} {name : String} {obstacle : Obstacle}
      (check : settings.check = .ok ()) (free : settings.source ∉ w.registry.ids)
      (room : w.registry.ids.length < Registry.capacity) (read : line.read.1 = some level)
      (hindered : unlaunched? settings machine = some (name, obstacle)) :
      StartCase w settings line machine
        { world := w, line := line.read.2, notices := [.notLaunched name obstacle],
          result := .error (.resource (.taskNotStarted name)) }
  /-- The system is up. -/
  | up {level : Bool} (check : settings.check = .ok ()) (free : settings.source ∉ w.registry.ids)
      (room : w.registry.ids.length < Registry.capacity) (read : line.read.1 = some level)
      (launched : unlaunched? settings machine = none) :
      StartCase w settings line machine
        { world :=
            { registry := ⟨w.registry.ids ++ [settings.source]⟩
              owners := w.owners ++ [.system (.start settings level line.read.2)] }
          line := line.read.2
          notices := [.started settings.source settings.windowMs level]
          result := .ok w.owners.length }

/-- A start ends in one of these ways. -/
theorem start_cases (w : World) (settings : Settings) (line : Line) (machine : Machine) :
    StartCase w settings line machine (w.start settings line machine) := by
  unfold start Tap.acquire
  rcases hcheck : settings.check with flaw | _
  · exact .flawed hcheck
  · by_cases howned : settings.source ∈ w.registry.ids
    · simp only [Registry.claim_eq_busy_iff.mpr howned]
      exact .busy hcheck howned
    · by_cases hroom : w.registry.ids.length < Registry.capacity
      · have hclaim := Registry.claim_eq_ok_iff.mpr ⟨howned, hroom, rfl⟩
        rcases hread : line.read.1 with _ | level
        · simp only [hclaim, Registry.release_of_claim hclaim]
          exact .unread hcheck howned hroom hread
        · simp only [hclaim]
          rcases hlaunch : unlaunched? settings machine with _ | ⟨name, obstacle⟩
          · exact .up hcheck howned hroom hread hlaunch
          · simp only [Registry.release_of_claim hclaim]
            exact .unlaunched hcheck howned hroom hread hlaunch
      · have hfull : Registry.capacity ≤ w.registry.ids.length := Nat.le_of_not_lt hroom
        simp only [Registry.claim_eq_full_iff.mpr ⟨howned, hfull⟩]
        exact .full hcheck howned hfull

/-- A start that succeeds claims the id, reads the line once, and adds the system as the last
owner. -/
theorem start_eq_ok (h : (w.start settings line machine).result = .ok i) :
    ∃ registry level, w.registry.claim settings.source = .ok registry ∧
      line.read.1 = some level ∧ i = w.owners.length ∧ (w.start settings line machine).world =
        { registry, owners := w.owners ++ [.system (.start settings level line.read.2)] } := by
  have hcases := start_cases w settings line machine
  generalize w.start settings line machine = f at h hcases ⊢
  rcases hcases with _ | _ | _ | _ | _ | @⟨level, _, hfree, hroom, hread, _⟩
  case up =>
    rw [Except.ok.injEq] at h
    exact ⟨_, level, Registry.claim_eq_ok_iff.mpr ⟨hfree, hroom, rfl⟩, hread, h.symm, rfl⟩
  all_goals cases h

/-- The owner that a start adds is a started system. -/
theorem exists_of_start (h : (w.start settings line machine).result = .ok i) :
    ∃ registry level after, w.registry.claim settings.source = .ok registry ∧
      i = w.owners.length ∧ (w.start settings line machine).world =
        { registry, owners := w.owners ++ [.system (.start settings level after)] } := by
  obtain ⟨registry, level, hclaim, -, hi, hworld⟩ := start_eq_ok h
  exact ⟨registry, level, line.read.2, hclaim, hi, hworld⟩

/-- A start that fails leaves the world as it was, also when the id was claimed and had to be given
back. -/
theorem start_of_error {e : Refusal} (h : (w.start settings line machine).result = .error e) :
    (w.start settings line machine).world = w := by
  have hcases := start_cases w settings line machine
  generalize w.start settings line machine = f at h hcases ⊢
  rcases hcases with _ | _ | _ | _ | _ | _
  case up => cases h
  all_goals rfl

/-- The system that was started runs in the world as it does alone. -/
theorem system_of_start (h : (w.start settings line machine).result = .ok i)
    (hrun : run (fun w a => w.act i a) (w.start settings line machine).world actions =
      .ok (shown, v)) :
    ∃ level s, line.read.1 = some level ∧ v.system? i = some s ∧
      run System.step (.start settings level line.read.2) actions = .ok (shown, s) := by
  obtain ⟨registry, level, -, hlevel, rfl, hworld⟩ := start_eq_ok h
  rw [hworld] at hrun
  obtain ⟨s, hsystem, hs⟩ := system_of_run
    (system?_eq_some_iff.mpr List.getElem?_concat_length) hrun
  exact ⟨level, s, hlevel, hs, hsystem⟩

/-- While the system owns its id the registry stays as it was after the start; afterwards it is as
it was before the start. -/
theorem registry_of_run {registry : Registry} {level : Bool}
    (hclaim : w.registry.claim settings.source = .ok registry)
    (hfound : v.system? i = some (.start settings level line)) (hregistry : v.registry = registry)
    {u : World} (h : run (fun w a => w.act i a) v actions = .ok (shown, u))
    (ht : u.system? i = some s) :
    u.registry = if s.owning then registry else w.registry := by
  refine run_induction (P := fun _ _ u => ∀ s, u.system? i = some s →
    u.registry = if s.owning then registry else w.registry) ?_ ?_ h s ht
  · intro s hs
    rw [hfound, Option.some.injEq] at hs
    subst hs
    exact hregistry
  · intro actions shown m a sights u hrun ih hact s hs
    obtain ⟨t, hsystem, ht⟩ := system_of_run hfound hrun
    obtain ⟨t', t'', ht', hstep, rfl⟩ := act_eq_ok hact
    rw [ht, Option.some.injEq] at ht'
    subst ht'
    rw [system?_set ht, Option.some.injEq] at hs
    subst hs
    have hbefore := ih t ht
    have hsource := System.source_of_run hsystem
    change (m.giveBack (released? t t'')).registry = _
    unfold released?
    cases howned : t.owning with
    | false =>
      rw [howned] at hbefore
      rw [System.owning_of_step hstep howned]
      exact hbefore
    | true =>
      rw [howned] at hbefore
      cases howning : t''.owning with
      | true => exact hbefore
      | false =>
        change m.registry.release t.source = w.registry
        rw [hsource, hbefore]
        exact Registry.release_of_claim hclaim

end World

end Live

end Settle
