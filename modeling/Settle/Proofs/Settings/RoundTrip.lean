import Settle.Proofs.Json.Printing
import Settle.Proofs.Run
import Settle.Proofs.Settings.ObjectForm

/-!
# Printed settings are read back

Settings that were printed, in either form, are read back as they were. The printed text is that of
an object which gives every field once (`read?_printed`), with a value that is in the field's range
because it was the field's value. Whether the settings are free of flaws has no part in that:
settings with flaws are read back too, and only then found to have them.

Main statement: `ofText_document`.
-/

namespace Settle.Settings

open Settle.Json (Member ObjectText)

/-- Members that give fields the values they have are read as these values. -/
theorem entriesOf_fields (s : Settings) (fs : List Field) :
    entriesOf (fs.map fun f => ⟨f.key.toList, Nat.toDigits 10 (s.get f)⟩)
      = some (fs.map fun f => (f, s.get f)) := by
  induction fs with
  | nil => rfl
  | cons f fs ih =>
    simp [entriesOf, entryOf, Field.ofKey?_key, Json.whole_toDigits, Nat.ofDigitChars_toDigits, ih]

/-- Among the values of all fields each field has one. -/
theorem valuesOf_fields (s : Settings) (f : Field) :
    valuesOf f (Field.all.map fun f => (f, s.get f)) = [s.get f] := by
  rcases f <;> rfl

/-- The values of all fields make up the settings they come from. -/
theorem ofEntries?_fields (s : Settings) :
    ofEntries? (Field.all.map fun f => (f, s.get f)) = some s := by
  have hcases := ofEntries?_cases (Field.all.map fun f => (f, s.get f))
  simp only [valuesOf_fields] at hcases
  rcases hcases with ⟨-, t, ht, hget⟩ | ⟨hfits, -⟩
  · rw [ht, ext_get hget]
  · exact absurd (fun f => ⟨by simp, by simpa using s.get_lt_bound f⟩) hfits

/-- The text of an object that gives every field the value it has is read as the settings. -/
theorem read?_printed {s : Settings} {text : String}
    (h : ObjectText (Field.all.map fun f => ⟨f.key.toList, Nat.toDigits 10 (s.get f)⟩)
      text.toList) : read? text = some s := by
  rw [read?_of_object h, entriesOf_fields, Option.bind_some, ofEntries?_fields]

/-- The compact text of settings is read as these settings. -/
theorem read?_compactText (s : Settings) : read? s.document.compactText = some s := by
  have h := Json.Document.objectText_compact (Field.all.map fun f => (f.key, .number (s.get f)))
  rw [List.map_map] at h
  exact read?_printed (by rwa [Json.Document.toList_compactText])

/-- So is the indented one. -/
theorem read?_prettyText (s : Settings) : read? s.document.prettyText = some s := by
  have h := Json.Document.objectText_indented 0
    (Field.all.map fun f => (f.key, .number (s.get f)))
  rw [List.map_map] at h
  exact read?_printed (by rwa [Json.Document.toList_prettyText])

/-- A stack may be too small or too large, but it is not malformed. -/
theorem checkStack_ne_malformed (kib : UInt64) : checkStack kib ≠ .error .malformed := by
  unfold checkStack
  split_ifs <;> simp

/-- Settings are not malformed: that flaw is one of texts. -/
theorem check_ne_malformed (s : Settings) : s.check ≠ .error .malformed := by
  unfold check
  split_ifs
  · simp
  · simp
  · intro h
    rcases bind_eq_error_iff.mp h with hworker | ⟨_, -, htimer⟩
    · exact checkStack_ne_malformed _ hworker
    · exact checkStack_ne_malformed _ htimer

/-- A text that can be read is not malformed. -/
theorem ofText_ne_malformed {text : String} {s : Settings} (h : read? text = some s) :
    ofText text ≠ .error .malformed := by
  rw [ofText_of_read? h]
  have hcheck := s.check_ne_malformed
  rcases hs : s.check with flaw | _
  · rw [hs] at hcheck
    simpa [Except.map] using hcheck
  · simp [Except.map]

/-- **Printed settings are read back.** From either printed form of any settings the result is these
settings if they are free of flaws, and their first flaw otherwise; neither form is malformed. -/
theorem ofText_document (s : Settings) :
    ofText s.document.compactText = (s.check.map fun _ => s) ∧
      ofText s.document.prettyText = (s.check.map fun _ => s) ∧
      ofText s.document.compactText ≠ .error .malformed ∧
      ofText s.document.prettyText ≠ .error .malformed :=
  ⟨ofText_of_read? s.read?_compactText, ofText_of_read? s.read?_prettyText,
    ofText_ne_malformed s.read?_compactText, ofText_ne_malformed s.read?_prettyText⟩

end Settle.Settings
