import Mathlib.Data.List.Nodup
import Settle.Proofs.Live.Owners

/-!
# Exclusive ownership

Ids are given out by claims, by taps and by live systems, and they come back in three ways: somebody
lets go of a claim or of a tap, and the shutdown of a system gives its id back. The registry does
not know who owns an id. A release takes out of it whatever equals the released id, and that is
right only because no two owners have the same id. So exclusiveness is not only what the registry
is for, it is also what its own correctness rests on, and the two are proved together: the registry
lists the ids of the owners, in the order in which they came up, and lists none of them twice
(`Exact`).

All that can be done to a world amounts to one of three changes (`Change`), whichever kind of owner
it is done to.

Main statement: `registry_exact`.
-/

namespace Settle.Live

/-! ## One entry of a list -/

/-- Replacing an entry by one that counts the same changes nothing that is counted. -/
theorem filterMap_set_of_same {α β : Type} {f : α → Option β} {xs : List α} {i : Nat} {x y : α}
    (hfound : xs[i]? = some x) (hsame : f y = f x) : (xs.set i y).filterMap f = xs.filterMap f := by
  obtain ⟨hlt, hget⟩ := List.getElem?_eq_some_iff.mp hfound
  have hsplit : xs = xs.take i ++ x :: xs.drop (i + 1) := by
    rw [← hget, List.getElem_cons_drop, List.take_append_drop]
  rw [List.set_eq_take_append_cons_drop, if_pos hlt]
  conv => rhs; rw [hsplit]
  rw [List.filterMap_append, List.filterMap_append, List.filterMap_cons, List.filterMap_cons, hsame]

/-- Replacing an entry by one that does not count takes out what was counted for it, and this alone
if nothing is counted twice. -/
theorem filterMap_set_of_none {α β : Type} [BEq β] [LawfulBEq β] {f : α → Option β} {xs : List α}
    {i : Nat} {x y : α} {b : β} (hfound : xs[i]? = some x) (hcounted : f x = some b)
    (hnone : f y = none) (hnodup : (xs.filterMap f).Nodup) :
    (xs.set i y).filterMap f = (xs.filterMap f).filter (· != b) := by
  obtain ⟨hlt, hget⟩ := List.getElem?_eq_some_iff.mp hfound
  have hsplit : xs.filterMap f =
      (xs.take i).filterMap f ++ b :: (xs.drop (i + 1)).filterMap f := by
    rw [← List.filterMap_cons_some hcounted, ← List.filterMap_append, ← hget,
      List.getElem_cons_drop, List.take_append_drop]
  rw [List.set_eq_take_append_cons_drop, if_pos hlt, List.filterMap_append,
    List.filterMap_cons_none hnone, hsplit]
  rw [hsplit, List.nodup_middle, List.nodup_cons, List.mem_append, not_or] at hnodup
  obtain ⟨⟨hbefore, hafter⟩, -⟩ := hnodup
  rw [List.filter_append, List.filter_cons_of_neg (by simp), filter_bne_of_not_mem hbefore,
    filter_bne_of_not_mem hafter]

namespace World

variable {w v : World} {i : Nat} {id : UInt32} {line : Line} {settings : Settings}
  {machine : Machine}

/-! ## What can be done to a world -/

/-- What can be done to a world. -/
inductive Op where
  /-- Claim an id. -/
  | claim (id : UInt32)
  /-- Acquire a tap on a line, which may fail to be read. -/
  | acquire (id : UInt32) (line : Line)
  /-- Start a live system on a line, on a machine that may refuse to start its tasks. -/
  | start (settings : Settings) (line : Line) (machine : Machine)
  /-- Let go of a claim or a tap. -/
  | letGo (i : Nat)
  /-- Change the line of a tap. -/
  | setTapLine (i : Nat) (line : Line)
  /-- Let a party of a live system take a step, those of its shutdown among them. -/
  | act (i : Nat) (a : Action)

/-- The world afterwards. What is refused, or is not possible, leaves it as it was. -/
def next (w : World) : Op → World
  | .claim id =>
    match w.claim id with
    | .error _ => w
    | .ok (_, v) => v
  | .acquire id line => (w.acquire id line).world
  | .start settings line machine => (w.start settings line machine).world
  | .letGo i => w.letGo i
  | .setTapLine i line => w.setTapLine i line
  | .act i a =>
    match w.act i a with
    | .error _ => w
    | .ok (_, v) => v

/-- The ids of the owners, in the order in which the owners came up. -/
def owned (w : World) : List UInt32 := w.owners.filterMap Owner.owned?

/-- The id of the owner with a number. -/
def ownedBy? (w : World) (i : Nat) : Option UInt32 := w.owners[i]?.bind Owner.owned?

/-- An id is owned when some owner has it. -/
theorem mem_owned_iff : id ∈ w.owned ↔ ∃ i, w.ownedBy? i = some id := by
  rw [owned, List.mem_filterMap]
  constructor
  · rintro ⟨owner, hmem, howns⟩
    obtain ⟨i, hfound⟩ := List.mem_iff_getElem?.mp hmem
    exact ⟨i, Option.bind_eq_some_iff.mpr ⟨owner, hfound, howns⟩⟩
  · rintro ⟨i, hi⟩
    obtain ⟨owner, hfound, howns⟩ := Option.bind_eq_some_iff.mp hi
    exact ⟨owner, List.mem_iff_getElem?.mpr ⟨i, hfound⟩, howns⟩

/-! ## Three kinds of change -/

/-- What becomes of the registry and of the owners. -/
inductive Change (w : World) : World → Prop
  /-- Nothing. -/
  | none : Change w w
  /-- An owner comes up, and the id that it has is claimed. -/
  | added {id : UInt32} {registry : Registry} {owner : Owner}
      (claimed : w.registry.claim id = .ok registry) (owns : owner.owned? = some id) :
      Change w { registry, owners := w.owners ++ [owner] }
  /-- An owner changes but has what it had. -/
  | kept {i : Nat} {before after : Owner} (found : w.owners[i]? = some before)
      (keeps : after.owned? = before.owned?) :
      Change w { w with owners := w.owners.set i after }
  /-- An owner lets go of its id, which is given back. -/
  | released {i : Nat} {id : UInt32} {before after : Owner} (found : w.owners[i]? = some before)
      (owned : before.owned? = some id) (gone : after.owned? = .none) :
      Change w { registry := w.registry.release id, owners := w.owners.set i after }

/-- A claim that succeeds adds an owner with the id. -/
theorem claim_eq_ok (h : w.claim id = .ok (i, v)) :
    ∃ registry, w.registry.claim id = .ok registry ∧ i = w.owners.length ∧
      v = { registry, owners := w.owners ++ [.claim id] } := by
  obtain ⟨registry, hclaim, hadd⟩ := bind_eq_ok_iff.mp h
  cases hadd
  exact ⟨registry, hclaim, rfl, rfl⟩

/-- A claim fails when the registry refuses it. -/
theorem claim_eq_error_iff {e : Shortage} :
    w.claim id = .error e ↔ w.registry.claim id = .error e := by
  refine bind_eq_error_iff.trans (or_iff_left ?_)
  rintro ⟨registry, -, hadd⟩
  cases hadd

/-- An acquisition adds a tap, or leaves the world as it was. -/
theorem change_acquire (w : World) (id : UInt32) (line : Line) :
    Change w (w.acquire id line).world := by
  unfold acquire
  cases hresult : (Tap.acquire w.registry id line).result with
  | error e =>
    simp only [hresult, Tap.registry_of_error hresult]
    exact .none
  | ok got =>
    simp only [hresult]
    exact .added (Tap.claim_of_ok hresult) (congrArg some (Tap.read_of_ok hresult).1)

/-- A start adds a system that owns its id, or leaves the world as it was, whatever the machine
starts. -/
theorem change_start (w : World) (settings : Settings) (line : Line) (machine : Machine) :
    Change w (w.start settings line machine).world := by
  cases hresult : (w.start settings line machine).result with
  | ok i =>
    obtain ⟨registry, level, after, hclaim, -, hworld⟩ := exists_of_start hresult
    rw [hworld]
    exact .added hclaim rfl
  | error e =>
    rw [start_of_error hresult]
    exact .none

/-- Letting go gives an id back, or does nothing. -/
theorem change_letGo (w : World) (i : Nat) : Change w (w.letGo i) := by
  unfold letGo
  split
  · next id hfound => exact .released hfound rfl rfl
  · next tap hfound => exact .released hfound rfl rfl
  · exact .none

/-- A tap with another line has the id that it had. -/
theorem change_setTapLine (w : World) (i : Nat) (line : Line) :
    Change w (w.setTapLine i line) := by
  unfold setTapLine tap?
  split
  · next t htap =>
    split at htap
    · next t' hfound =>
      cases htap
      exact .kept hfound rfl
    · cases htap
  · exact .none

/-- A system keeps its id, or gives it back. -/
theorem change_act {a : Action} {sights : List Sight} (h : w.act i a = .ok (sights, v)) :
    Change w v := by
  obtain ⟨s, t, hsystem, hstep, rfl⟩ := act_eq_ok h
  have hfound := system?_eq_some_iff.mp hsystem
  have hsource := System.source_of_step hstep
  unfold released?
  cases hbefore : s.owning with
  | false =>
    have hafter := System.owning_of_step hstep hbefore
    exact .kept hfound (by simp [Owner.owned?, hbefore, hafter])
  | true =>
    cases hafter : t.owning with
    | true => exact .kept hfound (by simp [Owner.owned?, hbefore, hafter, hsource])
    | false =>
      exact .released hfound (by simp [Owner.owned?, hbefore]) (by simp [Owner.owned?, hafter])

/-- Whatever is done to a world is one of the three kinds of change, or none. -/
theorem change_next (w : World) (op : Op) : Change w (w.next op) := by
  cases op with
  | claim id =>
    simp only [next]
    split
    · exact .none
    · next hclaim =>
      obtain ⟨registry, hregistry, -, rfl⟩ := claim_eq_ok hclaim
      exact .added hregistry rfl
  | acquire id line => exact change_acquire w id line
  | start settings line machine => exact change_start w settings line machine
  | letGo i => exact change_letGo w i
  | setTapLine i line => exact change_setTapLine w i line
  | act i a =>
    simp only [next]
    split
    · exact .none
    · next hact => exact change_act hact

/-! ## The registry is exact -/

/-- The registry lists the ids of the owners, none of them twice, and has room for them. -/
structure Exact (w : World) : Prop where
  listed : w.registry.ids = w.owned
  nodup : w.owned.Nodup
  room : w.owned.length ≤ Registry.capacity

/-- The registry of an empty world lists nothing. -/
theorem exact_empty : ({} : World).Exact := ⟨rfl, List.nodup_nil, Nat.zero_le _⟩

/-- Whatever becomes of a world, its registry goes on listing the ids of its owners. -/
theorem Exact.change (hw : w.Exact) (h : Change w v) : v.Exact := by
  cases h with
  | none => exact hw
  | @added id registry owner claimed owns =>
    obtain ⟨hfree, hroom, rfl⟩ := Registry.claim_eq_ok_iff.mp claimed
    have howned : owned ⟨⟨w.registry.ids ++ [id]⟩, w.owners ++ [owner]⟩ = w.owned ++ [id] := by
      rw [owned, filterMap_concat, owns]
      rfl
    rw [hw.listed] at hfree hroom
    refine ⟨howned ▸ congrArg (· ++ [id]) hw.listed, ?_, ?_⟩
    · rw [howned, List.nodup_append]
      refine ⟨hw.nodup, List.nodup_singleton id, ?_⟩
      rintro other hother _ hid rfl
      exact hfree (List.mem_singleton.mp hid ▸ hother)
    · rw [howned, List.length_append, List.length_singleton]
      exact hroom
  | @kept i before after found keeps =>
    have howned : owned { w with owners := w.owners.set i after } = w.owned :=
      filterMap_set_of_same found keeps
    exact ⟨howned ▸ hw.listed, howned ▸ hw.nodup, howned ▸ hw.room⟩
  | @released i id before after found owns gone =>
    -- The release goes by the id alone; that it hits one owner only is `hw.nodup`.
    have howned : owned ⟨w.registry.release id, w.owners.set i after⟩ = w.owned.filter (· != id) :=
      filterMap_set_of_none found owns gone hw.nodup
    refine ⟨?_, howned ▸ hw.nodup.filter _, howned ▸ (List.length_filter_le _ _).trans hw.room⟩
    rw [howned, ← hw.listed]
    rfl

/-- However a world has come about, its registry lists the ids of its owners. -/
theorem exact_foldl (ops : List Op) : (ops.foldl next {}).Exact :=
  List.foldlRecOn ops next exact_empty fun w hw op _ => hw.change (change_next w op)

/-! ## Giving back -/

/-- An owner that loses its id has given it back, and every other owner has what it had. -/
theorem Change.ownedBy?_of_lost (h : Change w v) (had : w.ownedBy? i = some id)
    (lost : v.ownedBy? i ≠ some id) :
    v.registry = w.registry.release id ∧ ∀ j, j ≠ i → v.ownedBy? j = w.ownedBy? j := by
  obtain ⟨owner, hfound, howns⟩ := Option.bind_eq_some_iff.mp had
  obtain ⟨hlt, -⟩ := List.getElem?_eq_some_iff.mp hfound
  cases h with
  | none => exact absurd had lost
  | added claimed owns =>
    refine absurd ?_ lost
    rw [ownedBy?, List.getElem?_append_left hlt]
    exact had
  | @kept k before after found keeps =>
    refine absurd ?_ lost
    by_cases hk : k = i
    · subst hk
      rw [ownedBy?, List.getElem?_set_self hlt, Option.bind_some, keeps, ← had, ownedBy?, found,
        Option.bind_some]
    · rw [ownedBy?, List.getElem?_set_ne hk]
      exact had
  | @released k id' before after found owns gone =>
    by_cases hk : k = i
    · subst hk
      rw [hfound, Option.some.injEq] at found
      subst found
      rw [howns, Option.some.injEq] at owns
      subst owns
      refine ⟨rfl, fun j hj => ?_⟩
      rw [ownedBy?, ownedBy?, List.getElem?_set_ne hj.symm]
    · refine absurd ?_ lost
      rw [ownedBy?, List.getElem?_set_ne hk]
      exact had

/-- A system owns its id at least until its shutdown is asked for, and at most until its shutdown is
done. -/
theorem ownedBy?_of_system {s : System} (h : w.system? i = some s) :
    (s.closing = .running → w.ownedBy? i = some s.source) ∧
      (s.closing = .closed → w.ownedBy? i = none) := by
  have hfound := system?_eq_some_iff.mp h
  constructor
  · intro running
    simp [ownedBy?, hfound, Owner.owned?, System.owning, running]
  · intro closed
    simp [ownedBy?, hfound, Owner.owned?, System.owning, closed]

/-- Who lets go of a claim or of a tap owns nothing any more. -/
theorem ownedBy?_letGo (h : w.system? i = none) : (w.letGo i).ownedBy? i = none := by
  unfold letGo
  split
  · next id hfound =>
    obtain ⟨hlt, -⟩ := List.getElem?_eq_some_iff.mp hfound
    rw [ownedBy?, List.getElem?_set_self hlt]
    rfl
  · next tap hfound =>
    obtain ⟨hlt, -⟩ := List.getElem?_eq_some_iff.mp hfound
    rw [ownedBy?, List.getElem?_set_self hlt]
    rfl
  · next hclaim htap =>
    rw [ownedBy?, Option.bind_eq_none_iff]
    intro owner hfound
    cases owner with
    | claim id => exact absurd hfound (hclaim id)
    | tap tap => exact absurd hfound (htap tap)
    | system s =>
      rw [system?_eq_some_iff.mpr hfound] at h
      cases h
    | gone => rfl

/-! ## Every history -/

/-- After any history of claims, acquisitions, starts, steps of systems and their shutdowns, and
releases, the registry lists just the ids that have an owner, each of them once and at most 32 of
them. So an id is claimed just when it has an owner. A claim is refused as busy just when the id
has an owner, also by a full registry; it is refused for want of room just when the id has none and
32 ids are owned; otherwise it succeeds. A system owns its id until its shutdown gives it back,
a claim or a tap until it is let go of; and an owner that lets go of its id takes this id out of the
registry and no other. -/
theorem registry_exact (ops : List Op) :
    let w := ops.foldl next {}
    (w.registry.ids = w.owned ∧ w.owned.Nodup ∧ w.owned.length ≤ 32) ∧
      (∀ id, w.registry.isClaimed id = true ↔ ∃ i, w.ownedBy? i = some id) ∧
      (∀ i s, w.system? i = some s → (s.closing = .running → w.ownedBy? i = some s.source) ∧
        (s.closing = .closed → w.ownedBy? i = none)) ∧
      (∀ i, w.system? i = none → (w.letGo i).ownedBy? i = none) ∧
      (∀ id, (w.claim id = .error (.sourceBusy id) ↔ id ∈ w.owned) ∧
        (w.claim id = .error .registryFull ↔ id ∉ w.owned ∧ w.owned.length = 32) ∧
        ((∃ i v, w.claim id = .ok (i, v) ∧ v.ownedBy? i = some id) ↔
          id ∉ w.owned ∧ w.owned.length < 32)) ∧
      (∀ op i id, w.ownedBy? i = some id → (w.next op).ownedBy? i ≠ some id →
        (w.next op).registry = w.registry.release id ∧
          (∀ other, other ∈ (w.next op).owned ↔ other ∈ w.owned ∧ other ≠ id) ∧
          ∀ j, j ≠ i → (w.next op).ownedBy? j = w.ownedBy? j) := by
  intro w
  have hw : w.Exact := exact_foldl ops
  refine ⟨⟨hw.listed, hw.nodup, hw.room⟩, fun id => ?_, fun i s => ownedBy?_of_system,
    fun i => ownedBy?_letGo, fun id => ⟨?_, ?_, ?_⟩, fun op i id had lost => ?_⟩
  · rw [Registry.isClaimed_iff_mem, hw.listed, mem_owned_iff]
  · rw [claim_eq_error_iff, Registry.claim_eq_busy_iff, hw.listed]
  · rw [claim_eq_error_iff, Registry.claim_eq_full_iff, hw.listed]
    exact and_congr_right fun _ => ⟨fun hfull => le_antisymm hw.room hfull, fun h => h.ge⟩
  · constructor
    · rintro ⟨i, v, hclaim, -⟩
      obtain ⟨registry, hregistry, -⟩ := claim_eq_ok hclaim
      obtain ⟨hfree, hroom, -⟩ := Registry.claim_eq_ok_iff.mp hregistry
      rw [hw.listed] at hfree hroom
      exact ⟨hfree, hroom⟩
    · rintro ⟨hfree, hroom⟩
      rw [← hw.listed] at hfree hroom
      have hregistry := Registry.claim_eq_ok_iff.mpr ⟨hfree, hroom, rfl⟩
      refine ⟨w.owners.length, _, bind_eq_ok_iff.mpr ⟨_, hregistry, rfl⟩, ?_⟩
      rw [ownedBy?, List.getElem?_concat_length]
      rfl
  · have hchange := change_next w op
    obtain ⟨hregistry, hothers⟩ := hchange.ownedBy?_of_lost had lost
    refine ⟨hregistry, fun other => ?_, hothers⟩
    rw [← (hw.change hchange).listed, ← hw.listed, hregistry, ← Registry.isClaimed_iff_mem,
      Registry.isClaimed_release, ← Registry.isClaimed_iff_mem]
    simp

/-- A claim is refused, a tap and a system come up beside the claim and a second tap and a system
whose machine starts no tasks do not, the claim is let go of, and the shutdown of the system is about
to give its id back. -/
def mixedOwners : List Op :=
  [.claim 7, .claim 7, .acquire 9 {}, .acquire 8 { failing := true },
    .start { source := 5 } {} fun _ _ => some "no tasks", .start {} {} .ordinary, .letGo 0] ++
    [Action.close, .closing, .closing, .timer, .timer, .timer, .closing, .closing, .worker, .worker,
      .closing].map (.act 2)

/-- The system gives back its own id, and the first id can be claimed again. -/
theorem registry_exact_mixedOwners :
    let w := mixedOwners.foldl next {}
    w.ownedBy? 2 = some 60 ∧ (w.next (.act 2 .closing)).ownedBy? 2 ≠ some 60 ∧
      w.registry.ids = [9, 60] ∧ w.claim 60 = .error (.sourceBusy 60) ∧
      (w.next (.act 2 .closing)).registry = w.registry.release 60 ∧
      ∃ i v, w.claim 7 = .ok (i, v) ∧ v.ownedBy? i = some 7 := by
  have hhad : (mixedOwners.foldl next {}).ownedBy? 2 = some 60 := by decide +kernel
  have hlost : ((mixedOwners.foldl next {}).next (.act 2 .closing)).ownedBy? 2 ≠ some 60 := by
    decide +kernel
  have howned : (mixedOwners.foldl next {}).owned = [9, 60] := by decide +kernel
  obtain ⟨⟨hlisted, -, -⟩, -, -, -, hclaims, hreleases⟩ := registry_exact mixedOwners
  refine ⟨hhad, hlost, hlisted.trans howned, (hclaims 60).1.mpr ?_,
    (hreleases _ 2 60 hhad hlost).1, (hclaims 7).2.2.mpr ?_⟩ <;> rw [howned] <;> decide

/-- A full registry refuses an owned id as owned, and only a free one for want of room. -/
example : let w := ((List.range 32).map fun n => Op.claim n.toUInt32).foldl next {}
    w.claim 5 = .error (.sourceBusy 5) ∧ w.claim 32 = .error .registryFull := by
  decide +kernel

end World

end Settle.Live
