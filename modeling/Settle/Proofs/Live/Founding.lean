import Settle.Proofs.Live.Owners

/-!
# A start that fails leaves nothing behind

To start a system takes four things that may not be had: settings without a flaw, an id that nobody
owns, a line that can be read, and a machine that starts two tasks. They are asked for in this order,
the first that is not to be had decides the answer, and what was had before it is given back. That
this leaves the very list of ids that was there before is no matter of course, since the registry
gives an id back by taking out whatever equals it: it is right because an id that could be claimed
was not in the list (`Registry.release_of_claim`).

Whether the last of the four is to be had is up to the machine alone. Stacks are looked at with the
settings, and a stack that passes is so small that its size in bytes is a word
(`Settings.exists_stackBytes_of_check`). So on a machine that starts tasks with such stacks
(`Machine.Able`) both are launched (`unlaunched?_of_check`).

Main statement: `start_settled`.
-/

namespace Settle

/-! ## Stacks in bytes -/

namespace Settings

variable {kib : UInt64} {s : Settings}

/-- Settings that pass the check have stacks whose sizes in bytes are words. -/
theorem exists_stackBytes_of_check (h : s.check = .ok ())
    (hkib : kib = s.workerStackKib ∨ kib = s.timerStackKib) :
    ∃ bytes, stackBytes? kib = some bytes ∧ bytes.toNat = kib.toNat * 1024 ∧
      bytes.toNat ≤ 8192 * 1024 := by
  have hle : kib.toNat ≤ 8192 := by
    obtain ⟨-, ⟨-, hworker⟩, -, htimer⟩ := check_eq_ok_iff.mp h
    rcases hkib with rfl | rfl
    · exact UInt64.le_iff_toNat_le.mp hworker
    · exact UInt64.le_iff_toNat_le.mp htimer
  have hword : kib.toNat * 1024 < 0x10000000000000000 := by omega
  have hbytes : stackBytes? kib = some (kib * 1024) := if_pos hword
  have hexact := stackBytes?_eq_some_iff.mp hbytes
  exact ⟨kib * 1024, hbytes, hexact, by omega⟩

end Settings

/-- A machine that can start tasks: it starts any whose stack is no larger than settings allow. -/
def Machine.Able (machine : Machine) : Prop :=
  ∀ name bytes, bytes.toNat ≤ 8192 * 1024 → machine name bytes = none

/-- A machine with 32 gibibytes for a stack can start tasks. -/
theorem Machine.able_ordinary : ordinary.Able := fun _ _ h =>
  if_pos (Nat.le_trans h (by decide))

namespace Live

/-! ## The level before the first delivery -/

namespace System

variable {s t : System} {a : Action} {actions : List Action} {sights : List Sight}
  {shown : List (List Sight)}

/-- The timer does not change the level. -/
theorem TimerCase.level_eq (h : TimerCase s sights t) : t.hub.watch.level = s.hub.watch.level := by
  rcases h with _ | ⟨-, done⟩ | _ | _ | _ | _
  case polling => rcases Watch.poll_eq_ok done <;> rfl
  all_goals rfl

/-- The worker changes the level only with a delivery. -/
theorem WorkerCase.level_eq (h : WorkerCase s sights t)
    (hnone : ∀ event, Sight.delivered event ∉ sights) : t.hub.watch.level = s.hub.watch.level := by
  cases h with
  | taking _ done =>
    obtain ⟨-, cancelled, -, rfl⟩ := Watch.takeJob_eq_ok done
    rfl
  | @settling _ _ _ event _ _ _ => exact absurd (List.mem_singleton_self _) (hnone event)
  | failing _ done =>
    obtain ⟨failed, -, rfl⟩ := Watch.unreadable_eq_ok done
    rfl
  | concluding _ => exact Watch.level_handled _ _
  | _ => rfl

/-- A step without a delivery does not change the level. -/
theorem level_of_step (h : s.step a = .ok (sights, t))
    (hnone : ∀ event, Sight.delivered event ∉ sights) : t.hub.watch.level = s.hub.watch.level := by
  have hedge {now : Instant} {answer : EdgeAnswer} {hub : Hub}
      (done : s.hub.edge now = .ok (answer, hub)) : hub.watch.level = s.hub.watch.level := by
    obtain ⟨watch, hwatch, rfl⟩ := Hub.edge_eq_ok done
    obtain ⟨windower, -, rfl⟩ := Watch.edge_eq_ok hwatch
    rfl
  cases step_eq_ok h with
  | edge done => exact hedge done
  | enter _ done => exact hedge done
  | timer act => exact act.level_eq
  | worker act => exact act.level_eq hnone
  | closing act => cases act <;> rfl
  | _ => rfl

/-- Until the first delivery a snapshot shows the level that the line was first read at. -/
theorem level_of_run (h : run System.step s actions = .ok (shown, t))
    (hnone : ∀ sights ∈ shown, ∀ event, Sight.delivered event ∉ sights) :
    t.hub.watch.level = s.hub.watch.level := by
  refine run_induction (P := fun _ shown t =>
    (∀ sights ∈ shown, ∀ event, Sight.delivered event ∉ sights) →
      t.hub.watch.level = s.hub.watch.level) (fun _ => rfl) ?_ h hnone
  intro actions shown m a sights t _ ih hstep hnone
  rw [List.forall_mem_append] at hnone
  rw [level_of_step hstep (hnone.2 sights (List.mem_singleton_self sights)), ih hnone.1]

end System

/-! ## How a start ends -/

namespace World

variable {w : World} {settings : Settings} {line : Line} {machine : Machine}

/-- On a machine that can start tasks both tasks of settings that pass the check are launched. -/
theorem unlaunched?_of_check (able : machine.Able) (h : settings.check = .ok ()) :
    unlaunched? settings machine = none := by
  refine List.findSome?_eq_none_iff.mpr fun ⟨name, kib⟩ htask => ?_
  have hkib : kib = settings.workerStackKib ∨ kib = settings.timerStackKib := by
    simp only [tasks, List.mem_cons, Prod.mk.injEq, List.not_mem_nil, or_false] at htask
    exact htask.imp And.right And.right
  obtain ⟨bytes, hbytes, -, hsmall⟩ := Settings.exists_stackBytes_of_check h hkib
  exact Option.map_eq_none_iff.mpr
    (obstacle?_eq_none_iff.mpr ⟨bytes, hbytes, able name bytes hsmall⟩)

/-- Each answer says which of the things a start takes was the first not to be had. -/
theorem StartCase.result_iff {f : Founding Refusal Nat}
    (h : StartCase w settings line machine f) :
    (∀ flaw, f.result = .error (.settings flaw) ↔ settings.check = .error flaw) ∧
      (∀ id, f.result = .error (.resource (.sourceBusy id)) ↔
        settings.check = .ok () ∧ settings.source ∈ w.registry.ids ∧ id = settings.source) ∧
      (f.result = .error (.resource .registryFull) ↔
        settings.check = .ok () ∧ settings.source ∉ w.registry.ids ∧
          Registry.capacity ≤ w.registry.ids.length) ∧
      (f.result = .error (.resource .levelReadFailed) ↔
        settings.check = .ok () ∧ settings.source ∉ w.registry.ids ∧
          w.registry.ids.length < Registry.capacity ∧ line.read.1 = none) ∧
      (∀ name, f.result = .error (.resource (.taskNotStarted name)) ↔
        settings.check = .ok () ∧ settings.source ∉ w.registry.ids ∧
          w.registry.ids.length < Registry.capacity ∧ line.read.1 ≠ none ∧
          ∃ obstacle, unlaunched? settings machine = some (name, obstacle)) ∧
      ∀ i, f.result = .ok i ↔
        settings.check = .ok () ∧ settings.source ∉ w.registry.ids ∧
          w.registry.ids.length < Registry.capacity ∧ line.read.1 ≠ none ∧
          unlaunched? settings machine = none ∧ i = w.owners.length := by
  rcases h with hcheck | ⟨hcheck, howned⟩ | ⟨hcheck, hfree, hfull⟩ |
    ⟨hcheck, hfree, hroom, hread⟩ | ⟨hcheck, hfree, hroom, hread, hhindered⟩ |
    ⟨hcheck, hfree, hroom, hread, hlaunched⟩
  · simp [hcheck]
  · simp [hcheck, howned, eq_comm]
  · simp [hcheck, hfree, hfull, hfull.not_gt]
  · simp [hcheck, hfree, hroom, hread]
  · simp [hcheck, hfree, hroom, hread, hhindered]
  · simp [hcheck, hfree, hroom, hread, hlaunched, eq_comm]

/-- The line is read once the id is claimed, and not before. -/
theorem StartCase.line_eq {f : Founding Refusal Nat} (h : StartCase w settings line machine f) :
    f.line = if settings.check = .ok () ∧ settings.source ∉ w.registry.ids ∧
      w.registry.ids.length < Registry.capacity then line.read.2 else line := by
  rcases h with hcheck | ⟨hcheck, howned⟩ | ⟨hcheck, hfree, hfull⟩ |
    ⟨hcheck, hfree, hroom, _⟩ | ⟨hcheck, hfree, hroom, _, _⟩ | ⟨hcheck, hfree, hroom, _, _⟩
  · simp [hcheck]
  · simp [howned]
  · simp [hfull.not_gt]
  · simp [hcheck, hfree, hroom]
  · simp [hcheck, hfree, hroom]
  · simp [hcheck, hfree, hroom]

/-- **A start that fails leaves nothing behind.** Settings with a flaw are refused for it, whatever
the registry and the line are like. With other settings, an id that is owned is refused as owned,
and a free one by a full registry for want of room; in neither case is the line read. Else the line
is read once; if that fails, so does the start, and if not, the system is up. On a machine that can
start tasks neither task fails to be launched, since the sizes of their stacks in bytes are words.
Whenever the start fails, the world is as it was before, with the same ids in the same order. When it
succeeds, the id stands last in the registry, and the level that was read is what snapshots show
until the first delivery. On any other machine a start fails as well when the machine does not start
one of the tasks, and then too leaves the world as it was. -/
theorem start_settled (w : World) (settings : Settings) (line : Line) {machine : Machine}
    (able : machine.Able) :
    let f := w.start settings line machine
    let flawless := settings.check = .ok ()
    let free := settings.source ∉ w.registry.ids
    let room := w.registry.ids.length < Registry.capacity
    ((∀ flaw, f.result = .error (.settings flaw) ↔ settings.check = .error flaw) ∧
      (∀ id, f.result = .error (.resource (.sourceBusy id)) ↔
        flawless ∧ settings.source ∈ w.registry.ids ∧ id = settings.source) ∧
      (f.result = .error (.resource .registryFull) ↔
        flawless ∧ free ∧ Registry.capacity ≤ w.registry.ids.length) ∧
      (f.result = .error (.resource .levelReadFailed) ↔
        flawless ∧ free ∧ room ∧ line.read.1 = none) ∧
      (∀ name, f.result ≠ .error (.resource (.taskNotStarted name))) ∧
      ∀ i, f.result = .ok i ↔
        flawless ∧ free ∧ room ∧ line.read.1 ≠ none ∧ i = w.owners.length) ∧
    (f.line = if flawless ∧ free ∧ room then line.read.2 else line) ∧
    (∀ refusal, f.result = .error refusal → f.world = w) ∧
    (∀ i, f.result = .ok i → f.world.registry.ids = w.registry.ids ++ [settings.source] ∧
      ∀ actions shown v, run (fun w a => w.act i a) f.world actions = .ok (shown, v) →
        (∀ sights ∈ shown, ∀ event, Sight.delivered event ∉ sights) →
        ∃ s, v.system? i = some s ∧ line.read.1 = some s.hub.watch.snapshot.level) ∧
    (flawless → ∀ kib, kib = settings.workerStackKib ∨ kib = settings.timerStackKib →
      ∃ bytes, stackBytes? kib = some bytes ∧ bytes.toNat = kib.toNat * 1024) ∧
    ∀ other : Machine, let g := w.start settings line other
      (∀ name, g.result = .error (.resource (.taskNotStarted name)) ↔
        flawless ∧ free ∧ room ∧ line.read.1 ≠ none ∧
          ∃ obstacle, unlaunched? settings other = some (name, obstacle)) ∧
      (∀ refusal, g.result = .error refusal → g.world = w) := by
  have hcases := start_cases w settings line machine
  obtain ⟨hflawed, hbusy, hfull, hunread, hhindered, hup⟩ := hcases.result_iff
  refine ⟨⟨hflawed, hbusy, hfull, hunread, fun name hname => ?_, fun i => ?_⟩, hcases.line_eq,
    fun _ => start_of_error, fun i hi => ⟨?_, ?_⟩, fun hcheck kib hkib => ?_, fun other =>
    ⟨(start_cases w settings line other).result_iff.2.2.2.2.1, fun _ => start_of_error⟩⟩
  · obtain ⟨hcheck, -, -, -, obstacle, hfound⟩ := (hhindered name).mp hname
    rw [unlaunched?_of_check able hcheck] at hfound
    cases hfound
  · rw [hup i]
    constructor
    · rintro ⟨hcheck, hfree, hroom, hread, -, hi⟩
      exact ⟨hcheck, hfree, hroom, hread, hi⟩
    · rintro ⟨hcheck, hfree, hroom, hread, hi⟩
      exact ⟨hcheck, hfree, hroom, hread, unlaunched?_of_check able hcheck, hi⟩
  · obtain ⟨registry, level, hclaim, -, -, hworld⟩ := start_eq_ok hi
    obtain ⟨-, -, rfl⟩ := Registry.claim_eq_ok_iff.mp hclaim
    exact congrArg (fun w : World => w.registry.ids) hworld
  · intro actions shown v hrun hnone
    obtain ⟨level, s, hlevel, hsystem, hs⟩ := system_of_start hi hrun
    refine ⟨s, hsystem, hlevel.trans (congrArg some ?_)⟩
    exact (System.level_of_run hs hnone).symm
  · obtain ⟨bytes, hbytes, hexact, -⟩ := Settings.exists_stackBytes_of_check hcheck hkib
    exact ⟨bytes, hbytes, hexact⟩

/-- Two ids are owned. -/
def twoOwners : World := { registry := ⟨[9, 60]⟩, owners := [.claim 9, .claim 60] }

/-- A machine that starts every task but the timer's. -/
def timeless : Machine := fun name _ => if name = timerTask then some "no threads" else none

/-- An owned id, a broken line, a line that works, and a machine that lets the second task down. -/
theorem start_settled_twoOwners :
    Machine.ordinary.Able ∧
    let broken := twoOwners.start { source := 7 } { failing := true }
    let up := twoOwners.start { source := 7 } { level := true }
    let halfUp := twoOwners.start { source := 7 } { level := true } timeless
    (twoOwners.start {} {}).result = .error (.resource (.sourceBusy 60)) ∧
      broken.result = .error (.resource .levelReadFailed) ∧ broken.world = twoOwners ∧
      broken.line.reads = 1 ∧ up.result = .ok 2 ∧ up.world.registry.ids = [9, 60, 7] ∧
      (∃ shown v s, run (fun w a => w.act 2 a) up.world [.timer, .edge 0, .look] =
          .ok (shown, v) ∧
        v.system? 2 = some s ∧ s.hub.watch.snapshot.level = true) ∧
      halfUp.result = .error (.resource (.taskNotStarted "edge-timer")) ∧
      halfUp.world = twoOwners := by
  have able := Machine.able_ordinary
  refine ⟨able, ?_⟩
  intro broken up halfUp
  obtain ⟨⟨-, hbusy, -⟩, -⟩ := start_settled twoOwners {} {} able
  obtain ⟨⟨-, -, -, hunread, -⟩, hline, hworld, -⟩ :=
    start_settled twoOwners { source := 7 } { failing := true } able
  obtain ⟨⟨-, -, -, -, -, hup⟩, -, -, hafter, -, hother⟩ :=
    start_settled twoOwners { source := 7 } { level := true } able
  have hbroken : broken.result = .error (.resource .levelReadFailed) := hunread.mpr (by decide)
  have hrunning : up.result = .ok 2 := (hup 2).mpr (by decide)
  obtain ⟨hids, hlevel⟩ := hafter 2 hrunning
  have hrun : run (fun w a => w.act 2 a) up.world [.timer, .edge 0, .look] = .ok (_, _) := rfl
  obtain ⟨s, hsystem, hread⟩ := hlevel _ _ _ hrun (by simp)
  obtain ⟨hhindered, hback⟩ := hother timeless
  have hhalf : halfUp.result = .error (.resource (.taskNotStarted "edge-timer")) :=
    (hhindered "edge-timer").mpr
      ⟨by decide, by decide, by decide, by decide, .refused "no threads", by decide +kernel⟩
  refine ⟨(hbusy 60).mpr (by decide), hbroken, hworld _ hbroken, ?_, hrunning, hids,
    ⟨_, _, s, hrun, hsystem, ?_⟩, hhalf, hback _ hhalf⟩
  · exact (congrArg Line.reads hline).trans (by decide)
  · exact (Option.some.inj hread).symm

end World

end Live

end Settle
