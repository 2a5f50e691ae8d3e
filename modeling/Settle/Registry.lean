import Settle.Refusal

/-!
# The registry of owned ids

Each monitored line has an id, and at any time at most one owner has that id. The registry lists the
ids that are owned, in the order in which they were claimed, and has room for 32.

Main statements: `claim_eq_ok_iff`, `claim_eq_busy_iff` and `claim_eq_full_iff` say when a claim
succeeds and why it fails; `isClaimed_release` says which ids are owned after a release.
-/

namespace Settle

/-- Taking an entry out of a list that does not have it changes nothing. -/
theorem filter_bne_of_not_mem {α : Type} [BEq α] [LawfulBEq α] {x : α} {xs : List α}
    (h : x ∉ xs) : xs.filter (· != x) = xs := by
  rw [List.filter_eq_self]
  intro y hy
  rw [bne_iff_ne]
  rintro rfl
  exact h hy

/-- The ids that are owned. -/
structure Registry where
  /-- The ids, oldest claim first. -/
  ids : List UInt32 := []
deriving DecidableEq, Repr

namespace Registry

/-- How many ids can be owned at once. -/
def capacity : Nat := 32

/-- Whether an id is owned. -/
def isClaimed (r : Registry) (id : UInt32) : Bool := r.ids.contains id

/-- Claims an id. That the id is owned is found out before the registry's being full. -/
def claim (r : Registry) (id : UInt32) : Except Shortage Registry :=
  if r.isClaimed id then .error (.sourceBusy id)
  else if r.ids.length < capacity then .ok ⟨r.ids ++ [id]⟩
  else .error .registryFull

/-- Gives an id back. -/
def release (r : Registry) (id : UInt32) : Registry := ⟨r.ids.filter (· != id)⟩

/-- An id is claimed when it is in the list of ids. -/
theorem isClaimed_iff_mem {r : Registry} {id : UInt32} : r.isClaimed id = true ↔ id ∈ r.ids := by
  simp [isClaimed]

/-- A released id is free, and every other id stays as it was. -/
theorem isClaimed_release (r : Registry) (id other : UInt32) :
    (r.release id).isClaimed other = (r.isClaimed other && other != id) := by
  rw [Bool.eq_iff_iff]
  simp [isClaimed, release]

/-! ## When a claim succeeds -/

/-- A claim succeeds when the id is free and there is room; the id then stands last. -/
theorem claim_eq_ok_iff {r r' : Registry} {id : UInt32} :
    r.claim id = .ok r' ↔ id ∉ r.ids ∧ r.ids.length < capacity ∧ r' = ⟨r.ids ++ [id]⟩ := by
  simp only [claim, isClaimed_iff_mem]
  split
  · next howned => simp [howned]
  · next hfree =>
    split
    · next hroom => simp [hfree, hroom, eq_comm]
    · next hfull => simp [hfull]

/-- An id that is owned is refused as owned, even by a full registry. -/
theorem claim_eq_busy_iff {r : Registry} {id : UInt32} :
    r.claim id = .error (.sourceBusy id) ↔ id ∈ r.ids := by
  simp only [claim, isClaimed_iff_mem]
  split
  · next howned => simp [howned]
  · next hfree => split <;> simp [hfree]

/-- A claim fails for want of room when the id is free and all places are taken. -/
theorem claim_eq_full_iff {r : Registry} {id : UInt32} :
    r.claim id = .error .registryFull ↔ id ∉ r.ids ∧ capacity ≤ r.ids.length := by
  simp only [claim, isClaimed_iff_mem]
  split
  · next howned => simp [howned]
  · next hfree =>
    split
    · next hroom => simp [hfree, hroom]
    · next hfull => simpa [hfree] using hfull

/-- Giving back an id that was just claimed leaves the registry as it was. -/
theorem release_of_claim {r r' : Registry} {id : UInt32} (h : r.claim id = .ok r') :
    r'.release id = r := by
  obtain ⟨hfree, -, rfl⟩ := claim_eq_ok_iff.mp h
  simp [release, filter_bne_of_not_mem hfree]

end Registry

end Settle
