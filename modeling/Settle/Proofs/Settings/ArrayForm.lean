import Settle.Proofs.Json.Printing
import Settle.Proofs.Settings.ObjectForm

/-!
# Settings from an array

Settings may be read from an array of values instead of an object. The two forms are read by two
readers, which come down to the same entries: the elements of the array are the values of the
fields, in the fields' order, and an array that stops early gives no values for the rest.

Nothing is asked of the elements but that they are JSON values. If one of them is not a plain
natural number, no entries are read from the array, and none are read from the object either in
which it stands under the key of its field (`exists_tokens_array`, `entriesOf_fieldMembers`).

Main statement: `ofText_array`.
-/

namespace Settle.Settings

open Settle.Json (Token Blanks Lexes Whole Value Member ElementsText ArrayText MembersText
  ObjectText)

/-! ## The elements of an array -/

/-- The number that a value is, if it is a plain natural number. -/
def numberOf (v : List Char) : Option Nat :=
  if Whole v then some (Nat.ofDigitChars 10 v 0) else none

/-- Elements that are all plain natural numbers are these numbers. -/
theorem numbers_eq {vs : List (List Char)} {ns : List Nat} (h : vs.mapM numberOf = some ns) :
    ns = vs.map fun v => Nat.ofDigitChars 10 v 0 := by
  induction vs generalizing ns with
  | nil =>
    cases h
    rfl
  | cons v vs ih =>
    simp only [List.mapM_cons, Option.bind_eq_bind, Option.bind_eq_some_iff] at h
    obtain ⟨n, hn, ns', hns, h⟩ := h
    cases h
    rw [numberOf, Option.ite_none_right_eq_some, Option.some.injEq] at hn
    rw [List.map_cons, ← ih hns, hn.2]

/-- Elements that do not begin with a number are not read. -/
theorem readElements_of_head? {ts : List Token} (h : ∀ n, ts.head? ≠ some (.natural n)) :
    readElements ts = none := by
  unfold readElements
  split
  · exact absurd rfl (h _)
  · exact absurd rfl (h _)
  · rfl

/-- A value is cut into one token that carries the number that it is, or into tokens at which the
reading of elements ends without a result. -/
theorem exists_lexes_element {v : List Char} (h : Value v) :
    (∃ n, numberOf v = some n ∧ Lexes v [.natural n]) ∨
      numberOf v = none ∧ ∃ ts, Lexes v ts ∧ ∀ rest, readElements (ts ++ rest) = none := by
  by_cases hw : Whole v
  · exact .inl ⟨_, if_pos hw, hw.lexes⟩
  · obtain ⟨ts, hl, hs⟩ := h.skips
    refine .inr ⟨if_neg hw, ts, hl, fun rest => readElements_of_head? fun n hn => ?_⟩
    rcases ts with _ | ⟨t, ts⟩
    · cases hs.skipValue []
    · exact hw (h.whole_of_natural hl hn)

/-- Elements are read as the numbers that they are, up to the end of the array. -/
theorem exists_lexes_elements {vs : List (List Char)} {t : List Char} (h : ElementsText vs t) :
    ∃ ts, ts ≠ [] ∧ Lexes t ts ∧ readElements (ts ++ [.closeArray]) = vs.mapM numberOf := by
  have hcomma : (',', Token.comma) ∈ Json.punctuation := by decide
  have nonempty {ts : List Token} (hread : ∀ rest, readElements (ts ++ rest) = none) : ts ≠ [] := by
    rintro rfl
    cases hread [.natural 0, .closeArray]
  induction h with
  | last ha hv hb =>
    rcases exists_lexes_element hv with ⟨n, hn, hl⟩ | ⟨hn, ts, hl, hread⟩
    · exact ⟨_, by simp, ha.lexes_append (hl.append_blanks hb), by simp [hn, readElements]⟩
    · exact ⟨ts, nonempty hread, ha.lexes_append (hl.append_blanks hb), by simp [hn, hread]⟩
  | cons ha hv hb _ ih =>
    obtain ⟨us, -, hl', ih⟩ := ih
    rcases exists_lexes_element hv with ⟨n, hn, hl⟩ | ⟨hn, ts, hl, hread⟩
    · refine ⟨_, by simp, ha.lexes_append (hl.append_punctuation hb hcomma hl'), ?_⟩
      simp [hn, readElements, ih, Option.map_eq_bind]
    · refine ⟨_, by simp, ha.lexes_append (hl.append_punctuation hb hcomma hl'), ?_⟩
      simp [hn, hread]

/-- The tokens of an array are read as the entries that its elements make, if all of them are plain
natural numbers. -/
theorem exists_tokens_array {vs : List (List Char)} {cs : List Char} (h : ArrayText vs cs) :
    ∃ ts, Json.tokens cs = some ts ∧
      readEntries ts = (vs.mapM numberOf).bind entriesOfElements := by
  have hopen : ('[', Token.openArray) ∈ Json.punctuation := by decide
  have hclose : (']', Token.closeArray) ∈ Json.punctuation := by decide
  rcases h with ⟨ha, hb, hc⟩ | ⟨ha, hvs, hc⟩
  · have hl := ha.lexes_append (.punctuation_cons hopen
      (hb.lexes.append_punctuation .nil hclose hc.lexes))
    exact ⟨[.openArray, .closeArray], by simpa using hl [] .nil, rfl⟩
  · obtain ⟨ts, hne, hl, hread⟩ := exists_lexes_elements hvs
    have hl := ha.lexes_append (.punctuation_cons hopen
      (hl.append_punctuation .nil hclose hc.lexes))
    refine ⟨.openArray :: (ts ++ [.closeArray]), by simpa using hl [] .nil, ?_⟩
    rw [← hread, readEntries]
    · rfl
    · intro he
      exact hne (by simpa using he)

/-! ## The object with the same values -/

/-- The members of the object that gives the values to the fields, in the fields' order. -/
def fieldMembers (vs : List (List Char)) : List Member :=
  (Field.all.zip vs).map fun p => ⟨p.1.key.toList, p.2⟩

/-- A member with the key of a field makes an entry if its value is a plain natural number. -/
theorem entryOf_field (f : Field) (v : List Char) :
    entryOf ⟨f.key.toList, v⟩ = (numberOf v).map fun n => some (f, n) := by
  rw [entryOf, numberOf, Field.ofKey?_key]
  split_ifs <;> rfl

/-- The object gives every field the number that its value is, if all of them are plain natural
numbers. -/
theorem entriesOf_fieldMembers {vs : List (List Char)} {fs : List Field}
    (h : vs.length ≤ fs.length) :
    entriesOf ((fs.zip vs).map fun p => ⟨p.1.key.toList, p.2⟩) =
      (vs.mapM numberOf).map fs.zip := by
  induction fs generalizing vs with
  | nil =>
    obtain rfl := List.eq_nil_of_length_eq_zero (Nat.le_zero.mp h)
    rfl
  | cons f fs ih =>
    cases vs with
    | nil => rfl
    | cons v vs =>
      rw [List.zip_cons_cons, List.map_cons, entriesOf, entryOf_field,
        ih (Nat.le_of_succ_le_succ h), List.mapM_cons]
      rcases numberOf v with _ | n
      · rfl
      · rcases vs.mapM numberOf with _ | ns <;> rfl

/-- Members with JSON values can be written down. -/
theorem exists_membersText {ms : List Member} (hne : ms ≠ []) (h : ∀ m ∈ ms, Value m.value) :
    ∃ t, MembersText ms t := by
  induction ms with
  | nil => exact absurd rfl hne
  | cons m ms ih =>
    rw [List.forall_mem_cons] at h
    have hm : Json.MemberText m _ :=
      .mk .nil (Json.spells_flatMap_escape m.key) .nil .nil h.1 .nil
    rcases ms with _ | ⟨m', ms⟩
    · exact ⟨_, .last hm⟩
    · obtain ⟨t, ht⟩ := ih (by simp) h.2
      exact ⟨_, .cons hm ht⟩

/-- Members with any keys and any values are those of some object. -/
theorem exists_objectText {ms : List Member} (h : ∀ m ∈ ms, Value m.value) :
    ∃ object : String, ObjectText ms object.toList := by
  rcases ms with _ | ⟨m, ms⟩
  · exact ⟨"\x7b\x7d", .empty .nil .nil .nil⟩
  · obtain ⟨t, ht⟩ := exists_membersText (by simp) h
    have hobject : ObjectText (m :: ms) ('{' :: (t ++ ['}'])) := .members .nil ht .nil
    exact ⟨String.ofList _, by rwa [String.toList_ofList]⟩

/-- The elements of an array are JSON values. -/
theorem value_of_mem_elements {vs : List (List Char)} {t : List Char} (h : ElementsText vs t) :
    ∀ v ∈ vs, Value v := by
  induction h with
  | last _ hv _ => simpa using hv
  | cons _ hv _ _ ih => exact List.forall_mem_cons.mpr ⟨hv, ih⟩

/-- The elements of an array can be given to the fields by an object. -/
theorem value_of_mem_fieldMembers {vs : List (List Char)} {t : List Char} (h : ArrayText vs t) :
    ∀ m ∈ fieldMembers vs, Value m.value := by
  intro m hm
  obtain ⟨⟨f, v⟩, hp, rfl⟩ := List.mem_map.mp hm
  have hv := (List.of_mem_zip hp).2
  rcases h with _ | ⟨-, hvs, -⟩
  · cases hv
  · exact value_of_mem_elements hvs v hv

/-! ## Settings from an array -/

/-- An array is read as the numbers that its elements are, field by field. -/
theorem read?_of_array {vs : List (List Char)} {text : String} (h : ArrayText vs text.toList) :
    read? text = ((vs.mapM numberOf).bind entriesOfElements).bind ofEntries? := by
  obtain ⟨ts, htokens, hentries⟩ := exists_tokens_array h
  simp [read?, htokens, hentries]

/-- An array with no more elements than there are fields is read as the object with the same
values. -/
theorem read?_array_eq_object {vs : List (List Char)} {array object : String}
    (harray : ArrayText vs array.toList) (few : vs.length ≤ Field.all.length)
    (hobject : ObjectText (fieldMembers vs) object.toList) : read? array = read? object := by
  rw [read?_of_array harray, read?_of_object hobject, fieldMembers, entriesOf_fieldMembers few]
  cases hns : vs.mapM numberOf with
  | none => rfl
  | some ns =>
    have hlength : ns.length ≤ Field.all.length := by rwa [numbers_eq hns, List.length_map]
    rw [Option.bind_some, Option.map_some, Option.bind_some, entriesOfElements, if_pos hlength,
      Option.bind_some]

/-- An array with more elements than there are fields is not read. -/
theorem read?_long_array {vs : List (List Char)} {array : String}
    (harray : ArrayText vs array.toList) (many : Field.all.length < vs.length) :
    read? array = none := by
  rw [read?_of_array harray]
  cases hns : vs.mapM numberOf with
  | none => rfl
  | some ns =>
    have hlength : Field.all.length < ns.length := by rwa [numbers_eq hns, List.length_map]
    rw [Option.bind_some, entriesOfElements, if_neg (Nat.not_le.mpr hlength), Option.bind_none]

/-- The value of a field is the one that stands at its place. -/
theorem head?_valuesOf_zip (f : Field) (ns : List Nat) :
    (valuesOf f (Field.all.zip ns)).head? = ns[Field.all.idxOf f]? := by
  rcases f <;> rcases ns with _ | ⟨a, _ | ⟨b, _ | ⟨c, _ | ⟨d, ns⟩⟩⟩⟩ <;> rfl

/-- The settings that an array gives have the values of its elements, and default values where the
array ends before a field's place. -/
theorem get_of_read?_array {vs : List (List Char)} {array : String} {s : Settings}
    (harray : ArrayText vs array.toList) (hs : read? array = some s) (f : Field) :
    s.get f = (vs[Field.all.idxOf f]?.map fun v => Nat.ofDigitChars 10 v 0).getD
      (({} : Settings).get f) := by
  rw [read?_of_array harray, Option.bind_eq_some_iff] at hs
  obtain ⟨es, hes, hs⟩ := hs
  obtain ⟨ns, hns, hes⟩ := Option.bind_eq_some_iff.mp hes
  rw [entriesOfElements, Option.ite_none_right_eq_some, Option.some.injEq] at hes
  obtain ⟨-, rfl⟩ := hes
  rcases ofEntries?_cases (Field.all.zip ns) with ⟨-, t, ht, hget⟩ | ⟨-, hnone⟩
  · obtain rfl : s = t := Option.some.inj (hs.symm.trans ht)
    rw [hget, head?_valuesOf_zip, numbers_eq hns, List.getElem?_map]
  · rw [hnone] at hs
    cases hs

/-- **Settings from an array.** Take any array of JSON values. If it has no more elements than there
are fields, the result is the one that every object has which gives these values to the fields in
their order, and there is such an object; what is read from them are the values of the elements,
with the default values of the remaining fields. If it has more elements, the text is malformed. -/
theorem ofText_array {vs : List (List Char)} {array : String}
    (harray : ArrayText vs array.toList) :
    (vs.length ≤ 4 →
      (∃ object : String, ObjectText (fieldMembers vs) object.toList) ∧
      (∀ object : String, ObjectText (fieldMembers vs) object.toList →
        ofText array = ofText object) ∧
      ∀ s, read? array = some s → ∀ f,
        s.get f = (vs[Field.all.idxOf f]?.map fun v => Nat.ofDigitChars 10 v 0).getD
          (({} : Settings).get f)) ∧
    (4 < vs.length → ofText array = .error .malformed) := by
  refine ⟨fun few => ⟨exists_objectText (value_of_mem_fieldMembers harray), ?_, ?_⟩, ?_⟩
  · intro object hobject
    rw [ofText, ofText, read?_array_eq_object harray few hobject]
  · exact fun s hs f => get_of_read?_array harray hs f
  · exact fun many => ofText_of_read?_none (read?_long_array harray many)

/-- An array that ends before the stacks. -/
def shortArray : String := "[7 , 25]"

/-- The object that gives the same values. -/
def shortObject : String := "\x7b\"source_id\":7, \"window_ms\" : 25\x7d"

/-- An array with an element too many. -/
def longArray : String := "[7,25,64,16,[null]]"

/-- The short array gives the id and the window and leaves the stacks as they are by default. -/
theorem ofText_array_shortAndLong :
    ArrayText ["7".toList, "25".toList] shortArray.toList ∧
      ObjectText (fieldMembers ["7".toList, "25".toList]) shortObject.toList ∧
      ofText shortArray = ofText shortObject ∧
      ofText shortArray = .ok { source := 7, windowMs := 25 } ∧
      ArrayText ["7".toList, "25".toList, "64".toList, "16".toList, "[null]".toList]
        longArray.toList ∧
      ofText longArray = .error .malformed := by
  have number {v : List Char} (h : Whole v) : Value v := .number h.number
  have hblank : Blanks [' '] := by decide
  have hshort : ArrayText ["7".toList, "25".toList] shortArray.toList :=
    .elements .nil (.cons .nil (number (by decide)) hblank
      (.last hblank (number (by decide)) .nil)) .nil
  have hsource : Json.MemberText ⟨"source_id".toList, "7".toList⟩ "\"source_id\":7".toList :=
    .mk .nil (.of_all_plain (by decide)) .nil .nil (number (by decide)) .nil
  have hwindow : Json.MemberText ⟨"window_ms".toList, "25".toList⟩
      " \"window_ms\" : 25".toList :=
    .mk hblank (.of_all_plain (by decide)) hblank hblank (number (by decide)) .nil
  have hobject : ObjectText (fieldMembers ["7".toList, "25".toList]) shortObject.toList :=
    .members .nil (.cons hsource (.last hwindow)) .nil
  have hnull : Value "[null]".toList :=
    .array (.lastElement .nil (.word (w := "null") (by decide)) .nil)
  have hlong : ArrayText ["7".toList, "25".toList, "64".toList, "16".toList, "[null]".toList]
      longArray.toList :=
    .elements .nil (.cons .nil (number (by decide)) .nil (.cons .nil (number (by decide)) .nil
      (.cons .nil (number (by decide)) .nil (.cons .nil (number (by decide)) .nil
        (.last .nil hnull .nil))))) .nil
  obtain ⟨hsame, -⟩ := ofText_array hshort
  obtain ⟨-, hmalformed⟩ := ofText_array hlong
  have hvalue : ofText shortArray = .ok { source := 7, windowMs := 25 } := by decide +kernel
  exact ⟨hshort, hobject, (hsame (by decide)).2.1 _ hobject, hvalue, hlong,
    hmalformed (by decide)⟩

end Settle.Settings
