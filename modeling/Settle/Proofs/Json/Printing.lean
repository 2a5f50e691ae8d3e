import Mathlib.Tactic.IntervalCases
import Settle.Json.Document
import Settle.Proofs.Json.Grammar

/-!
# Printed documents are JSON

Both printed forms of a document are values as the grammar has them (`value_compact`,
`value_indented`), and those of an object are the texts of an object with the same members in the
same order (`objectText_compact`, `objectText_indented`). So whatever is known about the reading of
JSON texts is known about printed documents.

A document is a tree whose objects hold lists of documents, so each form is dealt with by induction
on documents and lists of members together. The comma that `compactMembers` and `indentedMembers`
put before a member belongs to the grammar of the members around it, which is why the statements
about members are about the first of several, with nothing before it.
-/

namespace Settle.Json

/-! ## Texts -/

/-- A value below sixteen is written as the digit that has it. -/
theorem hexDigit_digitChar {n : Nat} (h : n < 16) : HexDigit (Nat.digitChar n) n := by
  interval_cases n <;> decide

/-- A character as it is written between quotes is a spelling of it. -/
theorem Spells.escape_append {cs w : List Char} (c : Char) (h : Spells cs w) :
    Spells (c :: cs) (escape c ++ w) := by
  unfold escape
  split_ifs with hquote hslash hb ht hn hf hr hcontrol
  iterate 7
    · subst c
      exact .short (by decide) h
  · have hhex := HexFour.digits (hexDigit_digitChar (n := 0) (by omega))
      (hexDigit_digitChar (n := 0) (by omega)) (hexDigit_digitChar (n := c.toNat / 16) (by omega))
      (hexDigit_digitChar (n := c.toNat % 16) (by omega))
    have hvalue : ((0 * 16 + 0) * 16 + c.toNat / 16) * 16 + c.toNat % 16 = c.toNat := by omega
    rw [hvalue] at hhex
    exact .unit hhex h
  · exact .plain ⟨by omega, hquote, hslash⟩ h

/-- A text as it is written between quotes is a spelling of it. -/
theorem spells_flatMap_escape (cs : List Char) : Spells cs (cs.flatMap escape) := by
  induction cs with
  | nil => exact .nil
  | cons c cs ih =>
    rw [List.flatMap_cons]
    exact ih.escape_append c

/-! ## Numbers -/

/-- Only zero is written with a zero in front. -/
theorem head_toDigits {n : Nat} (h : 0 < n) : (Nat.toDigits 10 n).head? ≠ some '0' := by
  induction n using Nat.strongRecOn with
  | ind n ih =>
    by_cases hn : n < 10
    · rw [Nat.toDigits_of_lt_base hn]
      simpa using Nat.ne_of_gt h
    · rw [Nat.toDigits_of_base_le (by omega) (by omega)]
      have hhead := ih (n / 10) (by omega) (by omega)
      rcases hds : Nat.toDigits 10 (n / 10) with _ | ⟨d, ds⟩
      · exact absurd hds Nat.toDigits_ne_nil
      · simpa [hds] using hhead

/-- A natural number is written as one. -/
theorem whole_toDigits (n : Nat) : Whole (Nat.toDigits 10 n) := by
  rcases Nat.eq_zero_or_pos n with rfl | hn
  · left
    exact Nat.toDigits_zero 10
  · right
    exact ⟨⟨Nat.toDigits_ne_nil, fun c hc => Nat.isDigit_of_mem_toDigits (by omega) (by omega) hc⟩,
      head_toDigits hn⟩

/-! ## Documents -/

/-- The text of members that are read is a text of members. -/
theorem MembersText.grammar {ms : List Member} {t : List Char} (h : MembersText ms t) :
    Grammar .members t := by
  induction h with
  | last hm =>
    rcases hm with ⟨ha, hw, hb, hc, hv, hd⟩
    exact .lastMember ha hw.body hb hc hv hd
  | cons hm _ ih =>
    rcases hm with ⟨ha, hw, hb, hc, hv, hd⟩
    simpa using Grammar.member ha hw.body hb hc hv hd ih

namespace Document

/-- A truth value is printed as a value. -/
theorem value_boolText (b : Bool) : Value (boolText b) := by
  rcases b
  · exact .word (w := "false") (by decide)
  · exact .word (w := "true") (by decide)

/-- A comma before the first member is only put in front. -/
theorem compactMembers_comma {ms : List (String × Document)} (h : ms ≠ []) :
    compactMembers [','] ms = ',' :: compactMembers [] ms := by
  rcases ms with _ | ⟨⟨key, value⟩, rest⟩
  · exact absurd rfl h
  · simp [compactMembers]

/-- A comma before the first member is only put in front, in the indented form too. -/
theorem indentedMembers_comma (depth : Nat) {ms : List (String × Document)} (h : ms ≠ []) :
    indentedMembers depth [','] ms = ',' :: indentedMembers depth [] ms := by
  rcases ms with _ | ⟨⟨key, value⟩, rest⟩
  · exact absurd rfl h
  · simp [indentedMembers]

/-- A line break and what begins the next line are blanks. -/
theorem blanks_newline (depth : Nat) : Blanks (newline depth) := by
  intro c hc
  rcases List.mem_cons.mp hc with rfl | hc
  · simp
  · simp [List.eq_of_mem_replicate hc]

/-- The text of a member with its key as it is written. -/
theorem memberText_quoted (key : String) {v a c d : List Char} (ha : Blanks a) (hc : Blanks c)
    (hv : Value v) (hd : Blanks d) :
    MemberText ⟨key.toList, v⟩ (a ++ (quoted key.toList ++ ':' :: (c ++ (v ++ d)))) :=
  .mk ha (spells_flatMap_escape key.toList) .nil hc hv hd

mutual

/-- The compact form of a document is a value. -/
theorem value_compact : (d : Document) → Value d.compact
  | .null => .word (w := "null") (by decide)
  | .bool b => value_boolText b
  | .number n => .number (whole_toDigits n).number
  | .text s => .text (spells_flatMap_escape s.toList).body
  | .object [] => .emptyObject .nil
  | .object (m :: ms) => .object (membersText_compact (m :: ms) (by simp)).grammar

/-- The compact form of members is the text of these members. -/
theorem membersText_compact : (ms : List (String × Document)) → ms ≠ [] →
    MembersText (ms.map fun m => ⟨m.1.toList, m.2.compact⟩) (compactMembers [] ms)
  | [(key, value)], _ => by
    have hm := memberText_quoted key .nil .nil (value_compact value) .nil
    simpa [compactMembers] using MembersText.last hm
  | (key, value) :: m :: ms, _ => by
    have hm := memberText_quoted key .nil .nil (value_compact value) .nil
    have hms := membersText_compact (m :: ms) (by simp)
    rw [compactMembers, compactMembers_comma (by simp)]
    simpa using hms.cons hm

end

mutual

/-- The indented form of a document is a value, however deep it stands. -/
theorem value_indented : (depth : Nat) → (d : Document) → Value (d.indented depth)
  | _, .null => .word (w := "null") (by decide)
  | _, .bool b => value_boolText b
  | _, .number n => .number (whole_toDigits n).number
  | _, .text s => .text (spells_flatMap_escape s.toList).body
  | _, .object [] => .emptyObject .nil
  | depth, .object (m :: ms) =>
    .object (membersText_indented (depth + 1) (m :: ms) (by simp) (blanks_newline depth)).grammar

/-- The indented form of members is the text of these members, and it may end with blanks. -/
theorem membersText_indented : (depth : Nat) → (ms : List (String × Document)) → ms ≠ [] →
    {b : List Char} → Blanks b →
      MembersText (ms.map fun m => ⟨m.1.toList, m.2.indented depth⟩)
        (indentedMembers depth [] ms ++ b)
  | depth, [(key, value)], _, b, hb => by
    have hm := memberText_quoted key (blanks_newline depth) (c := [' ']) (by decide)
      (value_indented depth value) hb
    simpa [indentedMembers] using MembersText.last hm
  | depth, (key, value) :: m :: ms, _, b, hb => by
    have hm := memberText_quoted key (blanks_newline depth) (c := [' ']) (by decide)
      (value_indented depth value) .nil
    have hms := membersText_indented depth (m :: ms) (by simp) hb
    rw [indentedMembers, indentedMembers_comma depth (by simp)]
    simpa using hms.cons hm

end

/-- The compact form of an object is the text of an object with the same members. -/
theorem objectText_compact (ms : List (String × Document)) :
    ObjectText (ms.map fun m => ⟨m.1.toList, m.2.compact⟩) (object ms).compact := by
  rcases ms with _ | ⟨m, ms⟩
  · exact .empty .nil .nil .nil
  · exact .members .nil (membersText_compact (m :: ms) (by simp)) .nil

/-- The indented form of an object is the text of an object with the same members. -/
theorem objectText_indented (depth : Nat) (ms : List (String × Document)) :
    ObjectText (ms.map fun m => ⟨m.1.toList, m.2.indented (depth + 1)⟩)
      ((object ms).indented depth) := by
  rcases ms with _ | ⟨m, ms⟩
  · exact .empty .nil .nil .nil
  · exact .members .nil
      (membersText_indented (depth + 1) (m :: ms) (by simp) (blanks_newline depth)) .nil

end Document

end Settle.Json
