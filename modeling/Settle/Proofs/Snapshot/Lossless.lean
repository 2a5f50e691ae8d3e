import Settle.Proofs.Json.Lossless
import Settle.Snapshot

/-!
# Printed snapshots lose nothing

A snapshot is printed as an object whose members are its fields. Each kind of field has a printed
form from which the field can be had back: a word is its number, an absent word is no number, a
phase is named, and a message is a text. The form of a snapshot has all its fields, so it determines
the snapshot (`document_injective`), and so do the texts it is printed as.

Main statement: `printing_lossless`.
-/

namespace Settle

open Json (Document withoutBlanks)

/-- A word, or none, is known from its printed form. -/
theorem numberOrNull_toNat_inj {t t' : Option UInt64} :
    Document.numberOrNull (t.map UInt64.toNat) = .numberOrNull (t'.map UInt64.toNat) ↔ t = t' := by
  cases t <;> cases t' <;> simp [Document.numberOrNull, UInt64.toNat_inj]

/-- The name of a phase tells which it is, and the other members give its instants. -/
theorem Phase.document_inj {p p' : Phase} : p.document = p'.document ↔ p = p' := by
  cases p <;> cases p' <;> simp [document, UInt64.toNat_inj]

/-- Every count is a member of its own. -/
theorem Tally.document_inj {t t' : Tally} : t.document = t'.document ↔ t = t' := by
  cases t
  cases t'
  simp [document, numberOrNull_toNat_inj, UInt64.toNat_inj]

/-- A set of faults is known from the number that it is printed as. -/
theorem FaultSet.bits_toNat_inj {a b : FaultSet} : a.bits.toNat = b.bits.toNat ↔ a = b := by
  cases a
  cases b
  simp [UInt8.toNat_inj]

/-- A short text is known from its characters. -/
theorem Text.Short.text_inj {a b : Text.Short} : a.text = b.text ↔ a = b := by
  cases a
  cases b
  simp

namespace Snapshot

/-- The form of a snapshot has all its fields. -/
theorem document_injective : Function.Injective document := by
  intro s s' h
  cases s
  cases s'
  simpa [document, numberOrNull_toNat_inj, Phase.document_inj, Tally.document_inj,
    FaultSet.bits_toNat_inj, Text.Short.text_inj, UInt64.toNat_inj, UInt32.toNat_inj] using h

/-- **Printing loses nothing.** Snapshots with the same compact text are the same, and so are those
with the same indented text; and the indented text without the blanks that stand outside quotes is
the compact text. -/
theorem printing_lossless :
    Function.Injective (fun s : Snapshot => s.document.compactText) ∧
    Function.Injective (fun s : Snapshot => s.document.prettyText) ∧
    ∀ s : Snapshot,
      withoutBlanks false s.document.prettyText.toList = s.document.compactText.toList :=
  ⟨Document.compactText_injective.comp document_injective,
    Document.prettyText_injective.comp document_injective,
    fun s => s.document.withoutBlanks_prettyText⟩

end Snapshot

end Settle
