import Mathlib.Data.List.Nodup
import Settle.Proofs.Json.Skipping
import Settle.Settings.Form

/-!
# Settings from an object

What reading settings makes of the text of any JSON object. Its members may come in any order, its
keys may be spelled in any way, and members with other keys may have any values.

First the tokens: the members of the object come down to entries, or to nothing if a field's value
is not a plain natural number (`read?_of_object`). Then the entries: put into settings one after the
other, each field has the value that was given for it and every other field its default
(`get_foldl_set`), because no field is given twice.

Main statement: `ofText_object`.
-/

namespace Settle.Settings

open Settle.Json (Token Blanks Lexes Skips Whole Value Member MemberText MembersText ObjectText)

/-! ## From text to entries -/

namespace Field

/-- The field with a key is the one that has this key. -/
theorem ofKey?_eq_some_iff {key : List Char} {f : Field} :
    ofKey? key = some f ↔ key = f.key.toList := by
  constructor
  · intro h
    have hkey := List.find?_some h
    exact (beq_iff_eq.mp hkey).symm
  · rintro rfl
    rcases f <;> decide

/-- The key of a field finds the field. -/
theorem ofKey?_key (f : Field) : ofKey? f.key.toList = some f := ofKey?_eq_some_iff.mpr rfl

end Field

/-- The entry that a member makes: none if the key is not that of a field. There is no answer if
the value of a field is not a plain natural number. -/
def entryOf (m : Member) : Option (Option (Field × Nat)) :=
  match Field.ofKey? m.key with
  | none => some none
  | some f => if Whole m.value then some (some (f, Nat.ofDigitChars 10 m.value 0)) else none

/-- The entries that the members make. -/
def entriesOf : List Member → Option Entries
  | [] => some []
  | m :: ms => do
    let e ← entryOf m
    let es ← entriesOf ms
    return e.toList ++ es

/-- A member is read as the entry it makes, and nothing after it is read. -/
theorem readMember_of_skips {m : Member} {pieces : List Json.Piece} {vs : List Token}
    (hkey : Json.decodeText pieces = some m.key) (hv : Value m.value) (hl : Lexes m.value vs)
    (hs : Skips .value vs) (rest : List Token) :
    readMember (.text pieces :: .colon :: (vs ++ rest)) = (entryOf m).map (·, rest) := by
  simp only [readMember, entryOf, hkey, Option.bind_eq_bind, Option.bind_some]
  rcases Field.ofKey? m.key with _ | f
  · simp [hs.skipValue]
  · by_cases hw : Whole m.value
    · rw [hl.unique hw.lexes]
      simp [hw]
    · -- The reader looks at the first token alone, so what follows it need not be known.
      rcases vs with _ | ⟨t, vs⟩
      · cases hs.skipValue []
      · rcases t
        case natural n => exact absurd (hv.whole_of_natural hl rfl) hw
        all_goals simp [hw]

/-- A member is cut into tokens that are read as the entry it makes. -/
theorem exists_lexes_member {m : Member} {t : List Char} (h : MemberText m t) :
    ∃ ts, ts ≠ [] ∧ Lexes t ts ∧ ∀ rest, readMember (ts ++ rest) = (entryOf m).map (·, rest) := by
  rcases h with ⟨ha, hw, hb, hc, hv, hd⟩
  obtain ⟨pieces, hkey, hps⟩ := hw.lexes
  obtain ⟨vs, hl, hs⟩ := hv.skips
  refine ⟨.text pieces :: .colon :: vs, by simp, ?_, readMember_of_skips hkey hv hl hs⟩
  exact ha.lexes_append (hps.append_punctuation hb (by decide)
    (hc.lexes_append (hl.append_blanks hd)))

section
variable {ts rest : List Token} {e : Option (Field × Nat)}

/-- The last member is followed by the end of the object. -/
theorem readMembers_of_last (h : readMember ts = some (e, [.closeObject])) :
    readMembers ts = some e.toList := by
  rw [readMembers]
  split <;> simp_all

/-- Any other member is followed by a comma and the rest of the members. -/
theorem readMembers_of_comma (h : readMember ts = some (e, .comma :: rest)) :
    readMembers ts = (readMembers rest).map (e.toList ++ ·) := by
  rw [readMembers]
  split <;> simp_all

/-- After a member that cannot be read there is no answer. -/
theorem readMembers_of_none (h : readMember ts = none) : readMembers ts = none := by
  rw [readMembers]
  split <;> simp_all

end

/-- Members are read as the entries they make, up to the end of the object. -/
theorem exists_lexes_members {ms : List Member} {t : List Char} (h : MembersText ms t) :
    ∃ ts, ts ≠ [] ∧ Lexes t ts ∧ readMembers (ts ++ [.closeObject]) = entriesOf ms := by
  induction h with
  | @last m t hm =>
    obtain ⟨ts, hne, hl, hread⟩ := exists_lexes_member hm
    refine ⟨ts, hne, hl, ?_⟩
    have hread := hread [.closeObject]
    rcases he : entryOf m with _ | e
    · rw [he] at hread
      simp [readMembers_of_none hread, entriesOf, he]
    · rw [he] at hread
      simp [readMembers_of_last hread, entriesOf, he]
  | @cons m ms t _ hm _ ih =>
    obtain ⟨ts, -, hl, hread⟩ := exists_lexes_member hm
    obtain ⟨us, -, hl', ih⟩ := ih
    refine ⟨ts ++ .comma :: us, by simp, hl.append_punctuation .nil (by decide) hl', ?_⟩
    have hread := hread (.comma :: (us ++ [.closeObject]))
    rw [List.append_assoc, List.cons_append]
    rcases he : entryOf m with _ | e
    · rw [he] at hread
      simp [readMembers_of_none hread, entriesOf, he]
    · rw [he] at hread
      rw [readMembers_of_comma hread, ih]
      rcases hes : entriesOf ms with _ | es <;> simp [entriesOf, he, hes]

/-- A brace begins an object. -/
theorem readEntries_openObject {ts : List Token} (h : ts ≠ []) :
    readEntries (.openObject :: (ts ++ [.closeObject])) = readMembers (ts ++ [.closeObject]) := by
  rw [readEntries]
  intro he
  exact h (by simpa using he)

/-- The tokens of an object are read as the entries its members make. -/
theorem exists_tokens_object {ms : List Member} {cs : List Char} (h : ObjectText ms cs) :
    ∃ ts, Json.tokens cs = some ts ∧ readEntries ts = entriesOf ms := by
  have hopen : ('{', Token.openObject) ∈ Json.punctuation := by decide
  have hclose : ('}', Token.closeObject) ∈ Json.punctuation := by decide
  rcases h with ⟨ha, hb, hc⟩ | ⟨ha, hms, hc⟩
  · have hl := ha.lexes_append (.punctuation_cons hopen
      (hb.lexes.append_punctuation .nil hclose hc.lexes))
    exact ⟨[.openObject, .closeObject], by simpa using hl [] .nil, rfl⟩
  · obtain ⟨ts, hne, hl, hread⟩ := exists_lexes_members hms
    have hl := ha.lexes_append (.punctuation_cons hopen
      (hl.append_punctuation .nil hclose hc.lexes))
    refine ⟨.openObject :: (ts ++ [.closeObject]), by simpa using hl [] .nil, ?_⟩
    rw [readEntries_openObject hne, hread]

/-- The settings an object gives are those its entries give. -/
theorem read?_of_object {ms : List Member} {text : String} (h : ObjectText ms text.toList) :
    read? text = (entriesOf ms).bind ofEntries? := by
  obtain ⟨ts, htokens, hentries⟩ := exists_tokens_object h
  simp [read?, htokens, hentries]

/-! ## From entries to settings -/

/-- The values that entries give for a field. -/
def valuesOf (f : Field) (es : Entries) : List Nat :=
  (es.filter fun e => e.1 = f).map Prod.snd

/-- An entry adds its value to those of its own field. -/
@[simp] theorem valuesOf_cons (f : Field) (e : Field × Nat) (es : Entries) :
    valuesOf f (e :: es) = if e.1 = f then e.2 :: valuesOf f es else valuesOf f es := by
  by_cases h : e.1 = f <;> simp [valuesOf, h]

/-- No field is given twice exactly if every field is given at most once. -/
theorem nodup_iff_valuesOf {es : Entries} :
    (es.map Prod.fst).Nodup ↔ ∀ f, (valuesOf f es).length ≤ 1 := by
  rw [List.nodup_iff_count_le_one]
  refine forall_congr' fun f => ?_
  rw [List.count_eq_countP, List.countP_map, List.countP_eq_length_filter, valuesOf,
    List.length_map]
  rfl

/-- All entries are in range if the values of each field are. -/
theorem forall_bound_iff_valuesOf {es : Entries} :
    (∀ e ∈ es, e.2 < e.1.bound) ↔ ∀ f, ∀ n ∈ valuesOf f es, n < f.bound := by
  simp only [valuesOf, List.mem_map, List.mem_filter, decide_eq_true_eq]
  constructor
  · rintro h f n ⟨e, ⟨he, rfl⟩, rfl⟩
    exact h e he
  · exact fun h e he => h e.1 e.2 ⟨e, ⟨he, rfl⟩, rfl⟩

/-- After the entries were put in, a field has the value given for it, or the one it had. -/
theorem get_foldl_set {es : Entries} (hnodup : (es.map Prod.fst).Nodup)
    (hbound : ∀ e ∈ es, e.2 < e.1.bound) (s : Settings) (f : Field) :
    (es.foldl (fun s e => s.set e.1 e.2) s).get f = (valuesOf f es).head?.getD (s.get f) := by
  induction es generalizing s with
  | nil => rfl
  | cons e es ih =>
    rw [List.map_cons, List.nodup_cons] at hnodup
    obtain ⟨hnotMem, hnodup⟩ := hnodup
    have hset := get_set (s := s) (hbound e (by simp))
    rw [List.foldl_cons, ih hnodup fun e' he' => hbound e' (by simp [he']), hset, valuesOf_cons]
    by_cases hf : f = e.1
    · -- The field just set is not given again, so nothing overwrites it.
      subst hf
      have hnone : valuesOf e.1 es = [] := by
        simp only [valuesOf, List.map_eq_nil_iff, List.filter_eq_nil_iff, decide_eq_true_eq]
        exact fun e' he' heq => hnotMem (heq ▸ List.mem_map_of_mem he')
      simp [hnone]
    · simp [hf, Ne.symm hf]

/-- What entries come to: settings that have the given values, and the default values where no value
is given, unless a field is given twice or a value is too large. -/
theorem ofEntries?_cases (es : Entries) :
    ((∀ f, (valuesOf f es).length ≤ 1 ∧ ∀ n ∈ valuesOf f es, n < f.bound) ∧
      ∃ s, ofEntries? es = some s ∧
        ∀ f, s.get f = (valuesOf f es).head?.getD (({} : Settings).get f)) ∨
    (¬ (∀ f, (valuesOf f es).length ≤ 1 ∧ ∀ n ∈ valuesOf f es, n < f.bound) ∧
      ofEntries? es = none) := by
  rw [ofEntries?, forall_and, ← nodup_iff_valuesOf, ← forall_bound_iff_valuesOf]
  split_ifs with h
  · exact .inl ⟨h, _, rfl, get_foldl_set h.1 h.2 {}⟩
  · exact .inr ⟨h, rfl⟩

/-! ## Objects whose fields have plain natural numbers -/

/-- The values that the members of an object give for a field. -/
def given (f : Field) (ms : List Member) : List Nat :=
  (ms.filter fun m => m.key = f.key.toList).map fun m => Nat.ofDigitChars 10 m.value 0

/-- If all fields have plain natural numbers, their entries are the values given. -/
theorem exists_entries {ms : List Member}
    (h : ∀ m ∈ ms, ∀ f : Field, m.key = f.key.toList → Whole m.value) :
    ∃ es, entriesOf ms = some es ∧ ∀ f, valuesOf f es = given f ms := by
  induction ms with
  | nil => exact ⟨[], rfl, fun f => rfl⟩
  | cons m ms ih =>
    obtain ⟨es, hes, hvalues⟩ := ih fun m' hm' => h m' (by simp [hm'])
    rcases hkey : Field.ofKey? m.key with _ | g
    · refine ⟨es, by simp [entriesOf, entryOf, hkey, hes], fun f => ?_⟩
      have hne : m.key ≠ f.key.toList := by
        intro heq
        simp [heq, Field.ofKey?_key] at hkey
      simpa [given, hne] using hvalues f
    · have hg := Field.ofKey?_eq_some_iff.mp hkey
      have hw := h m (by simp) g hg
      refine ⟨(g, Nat.ofDigitChars 10 m.value 0) :: es, by simp [entriesOf, entryOf, hkey, hes, hw],
        fun f => ?_⟩
      have hiff : m.key = f.key.toList ↔ g = f := by
        rw [← Field.ofKey?_eq_some_iff, hkey, Option.some_inj]
      by_cases hf : g = f <;> simpa [given, hiff, hf] using hvalues f

/-- Settings that can be read are the result if they are free of flaws. -/
theorem ofText_of_read? {text : String} {s : Settings} (h : read? text = some s) :
    ofText text = s.check.map fun _ => s := by
  rw [ofText, h]
  change (s.check >>= fun _ => pure s) = _
  rcases s.check <;> rfl

/-- A text that cannot be read is malformed. -/
theorem ofText_of_read?_none {text : String} (h : read? text = none) :
    ofText text = .error .malformed := by
  rw [ofText, h]

/-- **Settings from an object.** Take any object in which the values of all fields are plain natural
numbers. Unless a field is given twice or a value is out of its field's range, the result is the
default settings with the given values in place of the defaults, if they are free of flaws, and
their first flaw otherwise. If a field is given twice or a value is out of range, the text is
malformed. -/
theorem ofText_object {ms : List Member} {text : String} (h : ObjectText ms text.toList)
    (hwhole : ∀ m ∈ ms, ∀ f : Field, m.key = f.key.toList → Whole m.value) :
    ((∀ f, (given f ms).length ≤ 1) → (∀ f, ∀ n ∈ given f ms, n < f.bound) →
      ∃ s : Settings, (∀ f, s.get f = (given f ms).head?.getD (({} : Settings).get f)) ∧
        ofText text = s.check.map fun _ => s) ∧
    ((∃ f, 2 ≤ (given f ms).length) ∨ (∃ f, ∃ n ∈ given f ms, f.bound ≤ n) →
      ofText text = .error .malformed) := by
  obtain ⟨es, hes, hvalues⟩ := exists_entries hwhole
  have hread : read? text = ofEntries? es := by rw [read?_of_object h, hes, Option.bind_some]
  have hcases := ofEntries?_cases es
  simp only [hvalues, ← hread] at hcases
  rcases hcases with ⟨hfits, s, hs, hget⟩ | ⟨hfits, hnone⟩
  · refine ⟨fun _ _ => ⟨s, hget, ofText_of_read? hs⟩, ?_⟩
    rintro (⟨f, htwice⟩ | ⟨f, n, hn, hlarge⟩)
    · exact absurd htwice (Nat.not_le.mpr (Nat.lt_succ_of_le (hfits f).1))
    · exact absurd hlarge (Nat.not_le.mpr ((hfits f).2 n hn))
  · exact ⟨fun honce hsmall => absurd (fun f => ⟨honce f, hsmall f⟩) hfits,
      fun _ => ofText_of_read?_none hnone⟩

/-- A JSON object with blanks, with escapes in its keys and with a member that is passed over. -/
def mixedObject : String :=
  " \x7b\"window_ms\" : 25,\"no\\u0074e\":[-0.5e+1, \"\\ud800\"],\"s\\u006Furce_id\":7 \x7d"

/-- The members of `mixedObject`. -/
def mixedMembers : List Member :=
  [⟨"window_ms".toList, "25".toList⟩, ⟨"note".toList, "[-0.5e+1, \"\\ud800\"]".toList⟩,
    ⟨"source_id".toList, "7".toList⟩]

/-- The text `mixedObject` is an object with the members `mixedMembers`. -/
theorem mixedObject_text : ObjectText mixedMembers mixedObject.toList := by
  have hblank : Blanks [' '] := by decide
  have hwindow : MemberText ⟨"window_ms".toList, "25".toList⟩ "\"window_ms\" : 25".toList :=
    .mk .nil (.of_all_plain (by decide)) hblank hblank (.number (Whole.number (by decide))) .nil
  have hnumber : Json.Number "-0.5e+1".toList :=
    @Json.Number.parts ['-'] ['0'] ['.', '5'] ['e', '+', '1'] (by decide) (by decide)
      (.digits (by decide))
      (@Json.Exponent.digits 'e' ['+'] ['1'] (by decide) (by decide) (by decide))
  have hhalf : Json.HexFour "d800".toList (((13 * 16 + 8) * 16 + 0) * 16 + 0) :=
    .digits (by decide) (by decide) (by decide) (by decide)
  have harray : Value "[-0.5e+1, \"\\ud800\"]".toList :=
    .array (.element .nil (.number hnumber) .nil
      (.lastElement hblank (.text (.unit hhalf .nil)) .nil))
  have ht : Json.HexFour ['0', '0', '7', '4'] 't'.toNat :=
    @Json.HexFour.digits _ _ _ _ 0 0 7 4 (by decide) (by decide) (by decide) (by decide)
  have hte : Json.Spells ['t', 'e'] ['\\', 'u', '0', '0', '7', '4', 'e'] :=
    @Json.Spells.unit 't' _ ['e'] ['e'] ht (.of_all_plain (by decide))
  have hnote : MemberText ⟨"note".toList, "[-0.5e+1, \"\\ud800\"]".toList⟩
      "\"no\\u0074e\":[-0.5e+1, \"\\ud800\"]".toList :=
    @MemberText.mk ⟨_, _⟩ [] _ [] [] [] .nil (.plain (by decide) (.plain (by decide) hte)) .nil .nil
      harray .nil
  have ho : Json.HexFour ['0', '0', '6', 'F'] 'o'.toNat :=
    @Json.HexFour.digits _ _ _ _ 0 0 6 15 (by decide) (by decide) (by decide) (by decide)
  have hsource : MemberText ⟨"source_id".toList, "7".toList⟩ "\"s\\u006Furce_id\":7 ".toList :=
    @MemberText.mk ⟨_, _⟩ [] _ [] [] [' '] .nil
      (.plain (by decide) (@Json.Spells.unit 'o' _ "urce_id".toList _ ho (.of_all_plain (by decide))))
      .nil .nil (.number (Whole.number (by decide))) hblank
  exact .members hblank (.cons hwindow (.cons hnote (.last hsource))) .nil

/-- The settings of `mixedObject` are the defaults with the two values it gives. -/
theorem ofText_object_mixedObject :
    ObjectText mixedMembers mixedObject.toList ∧
      (∀ m ∈ mixedMembers, ∀ f : Field, m.key = f.key.toList → Whole m.value) ∧
      ofText mixedObject = .ok { source := 7, windowMs := 25 } := by
  have hwhole : ∀ m ∈ mixedMembers, ∀ f : Field, m.key = f.key.toList → Whole m.value := by
    intro m hm f
    revert m
    rcases f <;> decide
  obtain ⟨hok, -⟩ := ofText_object mixedObject_text hwhole
  have honce : ∀ f, (given f mixedMembers).length ≤ 1 := by rintro (_ | _ | _ | _) <;> decide
  have hsmall : ∀ f, ∀ n ∈ given f mixedMembers, n < f.bound := by
    rintro (_ | _ | _ | _) <;> decide
  obtain ⟨s, hget, hs⟩ := hok honce hsmall
  have hvalue : s = { source := 7, windowMs := 25 } := by
    refine ext_get fun f => ?_
    rw [hget]
    rcases f <;> decide
  rw [hvalue] at hs
  exact ⟨mixedObject_text, hwhole, hs⟩

end Settle.Settings
