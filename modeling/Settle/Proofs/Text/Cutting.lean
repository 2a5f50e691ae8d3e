import Settle.Fault.Record

/-!
# Where a message is cut

A message that is too long for its place is cut where a character ends. The search for that place
goes back byte by byte from the last one that fits, and this file says that it is neither in vain nor
long. It ends with the longest beginning of the text that fits (`exists_backFrom`), because the empty
beginning fits if no other does. And it gives up at most three bytes, because the character that does
not fit any more has at most four (`le_bytes_add_three`).

What is stored of a message is said without the search by `Beginning`.

Main statements: `beginning_clip`, and `lastError_longest` with the search.
-/

namespace Settle

namespace Text

variable {cs p q : List Char} {n : Nat}

/-- Beginnings of one text are known by their sizes. -/
theorem prefix_of_bytes_le (hp : p <+: cs) (hq : q <+: cs) (h : bytes q ≤ bytes p) : q <+: p := by
  rcases List.prefix_or_prefix_of_prefix hq hp with hqp | ⟨more, rfl⟩
  · exact hqp
  · -- A beginning that is no shorter and takes no more bytes goes on with nothing.
    rw [bytes_append] at h
    cases more with
    | nil => exact (List.append_nil p).symm ▸ List.prefix_refl p
    | cons c more =>
      have := c.utf8Size_pos
      rw [bytes_cons] at h
      omega

/-- The search back from a byte finds the longest beginning that ends there or before. -/
theorem exists_backFrom (cs : List Char) (n : Nat) :
    ∃ p, backFrom cs n = some p ∧ p <+: cs ∧ bytes p ≤ n ∧
      ∀ q, q <+: cs → bytes q ≤ n → q <+: p := by
  induction n with
  | zero =>
    refine ⟨[], by cases cs <;> rfl, List.nil_prefix, Nat.le_refl 0, fun q hq hfits => ?_⟩
    exact prefix_of_bytes_le List.nil_prefix hq hfits
  | succ n ih =>
    rw [backFrom]
    cases hfirst : first? (n + 1) cs with
    | some p =>
      obtain ⟨hp, hbytes⟩ := first?_eq_some_iff.mp hfirst
      refine ⟨p, rfl, hp, Nat.le_of_eq hbytes, fun q hq hfits => ?_⟩
      exact prefix_of_bytes_le hp hq (hbytes ▸ hfits)
    | none =>
      -- No character ends at this byte, so what fits here fits one byte earlier.
      obtain ⟨p, hback, hp, hbytes, hlongest⟩ := ih
      refine ⟨p, hback, hp, Nat.le_succ_of_le hbytes, fun q hq hfits => ?_⟩
      have hne : bytes q ≠ n + 1 := fun heq => by
        rw [first?_eq_some_iff.mpr ⟨hq, heq⟩] at hfirst
        exact nomatch hfirst
      exact hlongest q hq (by omega)

/-- A character of three bytes does not fit after 62 of one byte. -/
example : backFrom (List.replicate 62 'a' ++ ['€', 'b']) 64 = some (List.replicate 62 'a') := by
  decide

/-- The longest beginning that fits leaves less room than a character takes at most. -/
theorem le_bytes_add_three (hn : n ≤ bytes cs) (hp : p <+: cs)
    (hlongest : ∀ q, q <+: cs → bytes q ≤ n → q <+: p) : n ≤ bytes p + 3 := by
  obtain ⟨rest, rfl⟩ := hp
  rw [bytes_append] at hn
  cases rest with
  | nil =>
    rw [bytes_nil] at hn
    omega
  | cons c rest =>
    -- With one character more it does not fit.
    have hmore : ¬ bytes (p ++ [c]) ≤ n := fun hfits => by
      have hle := (hlongest _ (List.append_cons p c rest ▸ List.prefix_append _ _) hfits).length_le
      rw [List.length_append, List.length_singleton] at hle
      omega
    rw [bytes_append, bytes_cons, bytes_nil] at hmore
    have := c.utf8Size_le_four
    omega

/-- The size of a text is that of its characters. -/
theorem utf8ByteSize_eq_bytes (s : String) : s.utf8ByteSize = bytes s.toList := by
  rw [← utf8ByteSize_ofList, String.ofList_toList]

/-- The beginning that the search finds is pushed into an empty text without a loss. -/
theorem exists_clip (message : String) :
    ∃ kept stored, backFrom message.toList (min message.utf8ByteSize capacity) = some kept ∧
      Short.empty.push? (String.ofList kept) = some stored ∧ Short.clip message = stored ∧
      stored.text = String.ofList kept ∧ kept <+: message.toList ∧
      ∀ q, q <+: message.toList → bytes q ≤ min message.utf8ByteSize capacity → q <+: kept := by
  obtain ⟨kept, hback, hprefix, hbytes, hlongest⟩ :=
    exists_backFrom message.toList (min message.utf8ByteSize capacity)
  have hfits : ("" ++ String.ofList kept).utf8ByteSize ≤ capacity := by
    rw [String.empty_append, utf8ByteSize_ofList]
    exact Nat.le_trans hbytes (Nat.min_le_right _ _)
  have hpush : Short.empty.push? (String.ofList kept) = some ⟨"" ++ String.ofList kept, hfits⟩ :=
    dif_pos hfits
  refine ⟨kept, _, hback, hpush, ?_, String.empty_append, hprefix, hlongest⟩
  rw [utf8ByteSize_eq_bytes] at hback
  rw [Short.clip, Short.clip?, hback, Option.bind_eq_bind, Option.bind_some, hpush, Option.getD_some]

/-- What is stored of a message: its longest beginning that takes at most 64 bytes. -/
structure Beginning (message stored : String) : Prop where
  /-- The message begins with it. -/
  begins : stored.toList <+: message.toList
  /-- It takes at most 64 bytes. -/
  fits : stored.utf8ByteSize ≤ 64
  /-- No longer beginning of the message takes as few. -/
  longest : ∀ q, q <+: message.toList → (String.ofList q).utf8ByteSize ≤ 64 → q <+: stored.toList
  /-- It is all of a message that takes as few. -/
  whole : message.utf8ByteSize ≤ 64 → stored = message
  /-- Of any other message it has at least 61 bytes. -/
  late : 64 < message.utf8ByteSize → 61 ≤ stored.utf8ByteSize

/-- What is clipped from a message is its longest beginning that fits. -/
theorem beginning_clip (message : String) : Beginning message (Short.clip message).text := by
  obtain ⟨kept, stored, -, -, rfl, htext, hprefix, hlongest⟩ := exists_clip message
  have hcapacity : capacity = 64 := rfl
  have hlist : (Short.clip message).text.toList = kept := by
    rw [htext, String.toList_ofList]
  have hsize : (Short.clip message).text.utf8ByteSize = bytes kept := by
    rw [htext, utf8ByteSize_ofList]
  -- No beginning of the message is larger than the message, so its size is no bound of its own.
  have hall : ∀ q, q <+: message.toList → bytes q ≤ message.utf8ByteSize := by
    rintro q ⟨rest, hrest⟩
    rw [utf8ByteSize_eq_bytes, ← hrest, bytes_append]
    exact Nat.le_add_right _ _
  refine ⟨hlist.symm ▸ hprefix, (Short.clip message).fits, ?_, ?_, ?_⟩
  · intro q hq hfits
    rw [utf8ByteSize_ofList] at hfits
    rw [hlist]
    exact hlongest q hq (Nat.le_min.mpr ⟨hall q hq, hfits⟩)
  · intro hfits
    have hwhole := hlongest message.toList (List.prefix_refl _)
      (utf8ByteSize_eq_bytes message ▸ Nat.le_min.mpr ⟨Nat.le_refl _, hfits⟩)
    rw [htext, hprefix.eq_of_length_le hwhole.length_le, String.ofList_toList]
  · intro hlong
    have hbytes := le_bytes_add_three
      (utf8ByteSize_eq_bytes message ▸ Nat.min_le_left _ _) hprefix hlongest
    omega

end Text

/-- **Messages are cut as late as can be, and never within a character.** Whatever the message of a
failure is, the search for the place of the cut finds one, and what lies before it is stored without
a loss. It is the longest beginning of the message that takes at most 64 bytes: all of the message if
that fits, and at least 61 bytes of it otherwise. -/
theorem FaultRecord.lastError_longest (r : FaultRecord) (f : Fault) (message : String) :
    ∃ kept stored,
      Text.backFrom message.toList (min message.utf8ByteSize 64) = some kept ∧
      Text.Short.empty.push? (String.ofList kept) = some stored ∧
      (r.fail f message).lastError = stored ∧ stored.text = String.ofList kept ∧
      kept <+: message.toList ∧ stored.text.utf8ByteSize ≤ 64 ∧
      (∀ q, q <+: message.toList → (String.ofList q).utf8ByteSize ≤ 64 → q <+: kept) ∧
      (message.utf8ByteSize ≤ 64 → stored.text = message) ∧
      (64 < message.utf8ByteSize → 61 ≤ stored.text.utf8ByteSize) := by
  obtain ⟨kept, stored, hback, hpush, rfl, htext, hprefix, -⟩ := Text.exists_clip message
  obtain ⟨-, hfits, hlongest, hwhole, hlate⟩ := Text.beginning_clip message
  have hkept : (Text.Short.clip message).text.toList = kept := by
    rw [htext, String.toList_ofList]
  rw [hkept] at hlongest
  exact ⟨kept, _, hback, hpush, lastError_fail .., htext, hprefix, hfits, hlongest, hwhole, hlate⟩

end Settle
