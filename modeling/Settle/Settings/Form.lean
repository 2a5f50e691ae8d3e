import Settle.Json.Skip
import Settle.Settings

/-!
# Reading settings

Settings are read from a JSON object, whose members may come in any order and of which those with
other keys are passed over, or from an array of the values in the fields' order, which may stop
early. Either form comes down to a list of entries, and the entries are put into default settings.
A field may be given once, and its value must be written with digits only and be in its range.
-/

namespace Settle.Settings

open Settle.Json (Token)

/-- Fields with the values given for them. -/
abbrev Entries := List (Field × Nat)

/-! ## The object form -/

/-- Reads one member of an object: the entry it makes, if its key is that of a field. -/
def readMember : List Token → Option (Option (Field × Nat) × List Token)
  | .text pieces :: .colon :: ts => do
    let key ← Json.decodeText pieces
    match Field.ofKey? key with
    | some f =>
      match ts with
      | .natural n :: ts => return (some (f, n), ts)
      | _ => none
    | none => do
      let ts ← Json.skipValue ts
      return (none, ts)
  | _ => none

/-- Reading a member takes at least one token. -/
theorem length_readMember {ts rest : List Token} {e : Option (Field × Nat)}
    (h : readMember ts = some (e, rest)) : rest.length < ts.length := by
  unfold readMember at h
  split at h
  · next pieces ts =>
    simp only [Option.bind_eq_bind, Option.bind_eq_some_iff] at h
    obtain ⟨key, -, h⟩ := h
    split at h
    · split at h
      · cases h; simp only [List.length_cons]; omega
      · cases h
    · simp only [Option.bind_eq_some_iff] at h
      obtain ⟨rest', hs, h⟩ := h
      cases h
      have := Json.length_skipValue hs
      simp only [List.length_cons]
      omega
  · cases h

/-- Reads the members of an object up to the end of the object, which ends the tokens. -/
def readMembers (ts : List Token) : Option Entries :=
  match h : readMember ts with
  | some (e, .comma :: rest) =>
    have : rest.length < ts.length := by
      have := length_readMember h
      simp only [List.length_cons] at this
      omega
    (readMembers rest).map (e.toList ++ ·)
  | some (e, [.closeObject]) => some e.toList
  | _ => none
termination_by ts.length

/-! ## The array form -/

/-- Reads the elements of an array up to the end of the array, which ends the tokens. -/
def readElements : List Token → Option (List Nat)
  | [.natural n, .closeArray] => some [n]
  | .natural n :: .comma :: ts => (readElements ts).map (n :: ·)
  | _ => none

/-- The entries that an array's elements make, if there are no more of them than fields. -/
def entriesOfElements (ns : List Nat) : Option Entries :=
  if ns.length ≤ Field.all.length then some (Field.all.zip ns) else none

/-! ## Both forms -/

/-- Reads the entries from the tokens of an object or of an array. -/
def readEntries : List Token → Option Entries
  | [.openObject, .closeObject] => some []
  | .openObject :: ts => readMembers ts
  | [.openArray, .closeArray] => some []
  | .openArray :: ts => readElements ts >>= entriesOfElements
  | _ => none

/-- Default settings with the entries put into them, if no field is given twice and every value is
in its field's range. -/
def ofEntries? (es : Entries) : Option Settings :=
  if (es.map Prod.fst).Nodup ∧ ∀ e ∈ es, e.2 < e.1.bound then
    some (es.foldl (fun s e => s.set e.1 e.2) {})
  else none

/-- The settings that a text gives, whether or not they are free of flaws. -/
def read? (text : String) : Option Settings := do
  let ts ← Json.tokens text.toList
  let es ← readEntries ts
  ofEntries? es

/-- The settings that a text gives, if they are free of flaws. -/
def ofText (text : String) : Except Flaw Settings :=
  match read? text with
  | none => .error .malformed
  | some s => do
    s.check
    return s

end Settle.Settings
