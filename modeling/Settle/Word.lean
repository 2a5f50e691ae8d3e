/-!
# Words: instants, counts and the arithmetic on them

Everything this library counts or times is a 64-bit word. Two kinds of arithmetic are used on
words and kept apart here. *Checked* arithmetic (`Word.plus`, `Word.minus`) gives a word only when
the exact sum or difference is one, and halts otherwise; it is used for counts, where a wrong
number must never be shown. *Saturating* arithmetic (`Word.later`, `Word.since`) stops at the ends
of the range; it is used for instants, where a deadline past the end of time is the end of time.

Main statements, each in natural numbers: `plus_eq_ok_iff`, `minus_eq_ok_iff`, `toNat_later`,
`toNat_since`.
-/

namespace Settle

/-- A moment on a clock, in microseconds since the clock started. -/
abbrev Instant := UInt64

/-- A length of time in microseconds. -/
abbrev Micros := UInt64

/-- How often something happened. -/
abbrev Count := UInt64

/-- The causes for which a computation stops without a result. -/
inductive Halt where
  /-- A sum does not fit a word. -/
  | sumTooLarge
  /-- A difference would be negative. -/
  | differenceNegative
  /-- More events were delivered than edges were counted. -/
  | deliveredTooMany
deriving DecidableEq, Repr

/-- The text shown for a halt. -/
def Halt.message : Halt → String
  | .sumTooLarge => "attempt to add with overflow"
  | .differenceNegative => "attempt to subtract with overflow"
  | .deliveredTooMany =>
    "assertion failed: self.counters.processed_count <= self.counters.raw_edge_count"

namespace Word

/-! ## Checked arithmetic -/

/-- The sum, if it is a word, that is, below `2 ^ 64`. -/
def plus (a b : UInt64) : Except Halt UInt64 :=
  if a.toNat + b.toNat < 0x10000000000000000 then .ok (a + b) else .error .sumTooLarge

/-- The difference, if it is a word. -/
def minus (a b : UInt64) : Except Halt UInt64 :=
  if b ≤ a then .ok (a - b) else .error .differenceNegative

/-- A checked sum is the exact sum. -/
theorem plus_eq_ok_iff (a b c : UInt64) :
    plus a b = .ok c ↔ c.toNat = a.toNat + b.toNat := by
  have hc := c.toNat_lt
  unfold plus
  split
  · next h =>
    rw [Except.ok.injEq, ← UInt64.toNat_inj, UInt64.toNat_add, Nat.mod_eq_of_lt h]
    exact eq_comm
  · next h =>
    constructor
    · intro e; cases e
    · intro e; omega

/-- A checked sum fails exactly when the exact sum is too large for a word. -/
theorem plus_eq_error_iff (a b : UInt64) (h : Halt) :
    plus a b = .error h ↔ h = .sumTooLarge ∧ 0x10000000000000000 ≤ a.toNat + b.toNat := by
  unfold plus
  split
  · next hlt => constructor
                · intro e; cases e
                · rintro ⟨-, hge⟩; omega
  · next hge => simp only [Except.error.injEq]
                constructor
                · intro e; exact ⟨e.symm, by omega⟩
                · intro e; exact e.1.symm

/-- A checked difference is the exact difference. -/
theorem minus_eq_ok_iff (a b c : UInt64) :
    minus a b = .ok c ↔ c.toNat + b.toNat = a.toNat := by
  unfold minus
  split
  · next h =>
    have hle := UInt64.le_iff_toNat_le.mp h
    rw [Except.ok.injEq, ← UInt64.toNat_inj, UInt64.toNat_sub_of_le a b h]
    omega
  · next h =>
    have hlt : ¬ b.toNat ≤ a.toNat := fun hle => h (UInt64.le_iff_toNat_le.mpr hle)
    constructor
    · intro e; cases e
    · intro e; omega

/-! ## Saturating arithmetic -/

/-- The last instant there is. -/
def last : Instant := 0xffffffffffffffff

/-- The instant `span` after `start`, or the last instant if there is none. -/
def later (start span : UInt64) : UInt64 :=
  if start.toNat + span.toNat < 0x10000000000000000 then start + span else last

/-- The time from `earlier` to `now`, and zero if `now` does not lie after it. -/
def since (now earlier : UInt64) : UInt64 :=
  if earlier ≤ now then now - earlier else 0

/-- A saturating sum is the smaller of the exact sum and the last instant. -/
theorem toNat_later (start span : UInt64) :
    (later start span).toNat = min (start.toNat + span.toNat) 0xffffffffffffffff := by
  unfold later
  split
  · next h => rw [UInt64.toNat_add, Nat.mod_eq_of_lt h]; omega
  · next h =>
    have : last.toNat = 0xffffffffffffffff := by decide
    omega

/-- A saturating sum is exact when there is room for it. -/
theorem toNat_later_of_lt {start span : UInt64} (h : start.toNat + span.toNat < UInt64.size) :
    (later start span).toNat = start.toNat + span.toNat := by
  have hsize : UInt64.size = 0x10000000000000000 := rfl
  rw [toNat_later]
  omega

/-- A saturating difference is the difference of natural numbers. -/
theorem toNat_since (now earlier : UInt64) :
    (since now earlier).toNat = now.toNat - earlier.toNat := by
  unfold since
  split
  · next h => exact UInt64.toNat_sub_of_le now earlier h
  · next h =>
    have hlt : ¬ earlier.toNat ≤ now.toNat := fun hle => h (UInt64.le_iff_toNat_le.mpr hle)
    have : (0 : UInt64).toNat = 0 := rfl
    omega

/-- Nothing saturates into the past. -/
theorem le_later (start span : UInt64) : start ≤ later start span := by
  rw [UInt64.le_iff_toNat_le, toNat_later]
  have := start.toNat_lt
  omega

end Word

end Settle
