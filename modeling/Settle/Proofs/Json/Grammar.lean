import Settle.Json.Token

/-!
# The grammar of JSON

JSON as its grammar describes it, independently of how it is read: which characters may stand
between tokens (`Blanks`), how a text may be spelled between quotes (`Spells`), what a number looks
like (`Number`), and what a value of any depth is (`Value`).

What stands between quotes is described twice. `StringBody` is the bare syntax, which is all that
is asked of a text that is passed over: four hexadecimal digits may name any 16-bit unit, half a
character included. `Spells` also says which text is meant, and there the halves of a character
must stand together.

The text of an object that is read, and not passed over, is described by `ObjectText`, along with
its members: for each of them the key that is meant and the text of the value, in the order in which
they stand. Likewise `ArrayText` describes an array along with the texts of its elements.
-/

namespace Settle.Json

/-! ## Between tokens -/

/-- Blanks only. -/
def Blanks (cs : List Char) : Prop := ∀ c ∈ cs, c ∈ [' ', '\t', '\n', '\r']

/-- Blanks are tested character by character. -/
instance (cs : List Char) : Decidable (Blanks cs) := List.decidableBAll _ cs

/-- No characters are blanks. -/
theorem Blanks.nil : Blanks [] := by simp [Blanks]

/-! ## Between quotes -/

/-- A hexadecimal digit, in either case, with its value. -/
def HexDigit (c : Char) (n : Nat) : Prop :=
  "0123456789abcdef".toList[n]? = some c ∨ "0123456789ABCDEF".toList[n]? = some c

/-- A hexadecimal digit is tested by where it lies. -/
instance (c : Char) (n : Nat) : Decidable (HexDigit c n) :=
  inferInstanceAs (Decidable (_ ∨ _))

/-- Four hexadecimal digits with their value. -/
inductive HexFour : List Char → Nat → Prop where
  /-- The digit of most weight comes first. -/
  | digits {a b c d : Char} {w x y z : Nat} :
    HexDigit a w → HexDigit b x → HexDigit c y → HexDigit d z →
      HexFour [a, b, c, d] (((w * 16 + x) * 16 + y) * 16 + z)

/-- The letters that may stand after a backslash, with the characters they stand for. -/
def shortEscapes : List (Char × Char) :=
  [('"', '"'), ('\\', '\\'), ('/', '/'), ('b', '\x08'), ('f', '\x0c'), ('n', '\n'), ('r', '\r'),
    ('t', '\t')]

/-- A character that may stand for itself between quotes. -/
def Plain (c : Char) : Prop := 0x20 ≤ c.toNat ∧ c ≠ '"' ∧ c ≠ '\\'

/-- A plain character is tested by what it is not. -/
instance (c : Char) : Decidable (Plain c) := inferInstanceAs (Decidable (_ ∧ _ ∧ _))

/-- What may stand between quotes, whatever it means. -/
inductive StringBody : List Char → Prop where
  /-- Nothing. -/
  | nil : StringBody []
  /-- A character that stands for itself. -/
  | plain {c : Char} {w : List Char} : Plain c → StringBody w → StringBody (c :: w)
  /-- A backslash and a letter. -/
  | short {e c : Char} {w : List Char} :
    (e, c) ∈ shortEscapes → StringBody w → StringBody ('\\' :: e :: w)
  /-- A 16-bit unit. -/
  | unit {hex w : List Char} {n : Nat} :
    HexFour hex n → StringBody w → StringBody ('\\' :: 'u' :: (hex ++ w))

/-- `Spells cs w` says that `w` between quotes means the text `cs`. -/
inductive Spells : List Char → List Char → Prop where
  /-- The empty text. -/
  | nil : Spells [] []
  /-- A character that stands for itself. -/
  | plain {c : Char} {cs w : List Char} : Plain c → Spells cs w → Spells (c :: cs) (c :: w)
  /-- A character that a letter stands for. -/
  | short {e c : Char} {cs w : List Char} :
    (e, c) ∈ shortEscapes → Spells cs w → Spells (c :: cs) ('\\' :: e :: w)
  /-- A character that is one unit. -/
  | unit {c : Char} {hex cs w : List Char} :
    HexFour hex c.toNat → Spells cs w → Spells (c :: cs) ('\\' :: 'u' :: (hex ++ w))
  /-- A character beyond the reach of one unit, written as its two halves. -/
  | pair {c : Char} {hex hex' cs w : List Char} {high low : Nat} :
    HexFour hex (0xd800 + high) → HexFour hex' (0xdc00 + low) → high < 0x400 → low < 0x400 →
      c.toNat = 0x10000 + high * 0x400 + low → Spells cs w →
        Spells (c :: cs) ('\\' :: 'u' :: (hex ++ '\\' :: 'u' :: (hex' ++ w)))

/-- Plain characters spell themselves. -/
theorem Spells.of_all_plain {cs : List Char} (h : (cs.all fun c => decide (Plain c)) = true) :
    Spells cs cs := by
  induction cs with
  | nil => exact .nil
  | cons c cs ih =>
    rw [List.all_cons, Bool.and_eq_true, decide_eq_true_eq] at h
    exact .plain h.1 (ih h.2)

/-- A spelling is what may stand between quotes. -/
theorem Spells.body {cs w : List Char} (h : Spells cs w) : StringBody w := by
  induction h with
  | nil => exact .nil
  | plain hc _ ih => exact .plain hc ih
  | short he _ ih => exact .short he ih
  | unit hn _ ih => exact .unit hn ih
  | pair hh hl _ _ _ _ ih => exact .unit hh (.unit hl ih)

/-- What stands between quotes, with the quotes. -/
def inQuotes (w : List Char) : List Char := '"' :: (w ++ ['"'])

/-! ## Numbers -/

/-- One digit or more. -/
def Digits (cs : List Char) : Prop := cs ≠ [] ∧ ∀ c ∈ cs, c.isDigit = true

/-- Digits are tested character by character. -/
instance (cs : List Char) : Decidable (Digits cs) :=
  haveI : Decidable (∀ c ∈ cs, c.isDigit = true) := List.decidableBAll _ cs
  inferInstanceAs (Decidable (_ ∧ _))

/-- A plain natural number: a zero alone, or digits of which the first is not a zero. -/
def Whole (cs : List Char) : Prop := cs = ['0'] ∨ Digits cs ∧ cs.head? ≠ some '0'

/-- A whole number is tested by its first digit and the rest. -/
instance (cs : List Char) : Decidable (Whole cs) := inferInstanceAs (Decidable (_ ∨ _ ∧ _))

/-- A fraction, or none. -/
inductive Fraction : List Char → Prop where
  /-- No fraction. -/
  | none : Fraction []
  /-- A point and digits. -/
  | digits {ds : List Char} : Digits ds → Fraction ('.' :: ds)

/-- An exponent, or none. -/
inductive Exponent : List Char → Prop where
  /-- No exponent. -/
  | none : Exponent []
  /-- A letter, a sign if there is one, and digits. -/
  | digits {e : Char} {sign ds : List Char} :
    e ∈ ['e', 'E'] → sign ∈ [[], ['+'], ['-']] → Digits ds → Exponent (e :: (sign ++ ds))

/-- A number of any kind. -/
inductive Number : List Char → Prop where
  /-- A sign if there is one, a whole part, a fraction and an exponent. -/
  | parts {sign w f e : List Char} :
    sign ∈ [[], ['-']] → Whole w → Fraction f → Exponent e → Number (sign ++ (w ++ (f ++ e)))

/-- A plain natural number is a number. -/
theorem Whole.number {w : List Char} (h : Whole w) : Number w := by
  simpa using @Number.parts [] w [] [] (by simp) h .none .none

/-! ## Values -/

/-- The parts of the grammar that refer to each other. -/
inductive Part where
  /-- A value. -/
  | value
  /-- The elements of an array that is not empty. -/
  | elements
  /-- The members of an object that is not empty. -/
  | members
deriving DecidableEq, Repr

/-- The texts of a part of the grammar. Values have no blanks around them; elements and members
bring along the blanks next to them. -/
inductive Grammar : Part → List Char → Prop where
  /-- One of the three words. -/
  | word {w : String} : w ∈ ["null", "true", "false"] → Grammar .value w.toList
  /-- A number. -/
  | number {cs : List Char} : Number cs → Grammar .value cs
  /-- A text. -/
  | text {w : List Char} : StringBody w → Grammar .value (inQuotes w)
  /-- An array with no elements. -/
  | emptyArray {a : List Char} : Blanks a → Grammar .value ('[' :: (a ++ [']']))
  /-- An array with elements. -/
  | array {es : List Char} : Grammar .elements es → Grammar .value ('[' :: (es ++ [']']))
  /-- An object with no members. -/
  | emptyObject {a : List Char} : Blanks a → Grammar .value ('{' :: (a ++ ['}']))
  /-- An object with members. -/
  | object {ms : List Char} : Grammar .members ms → Grammar .value ('{' :: (ms ++ ['}']))
  /-- The last element. -/
  | lastElement {a v b : List Char} :
    Blanks a → Grammar .value v → Blanks b → Grammar .elements (a ++ (v ++ b))
  /-- An element before others. -/
  | element {a v b es : List Char} :
    Blanks a → Grammar .value v → Blanks b → Grammar .elements es →
      Grammar .elements (a ++ (v ++ (b ++ ',' :: es)))
  /-- The last member. -/
  | lastMember {a w b c v d : List Char} :
    Blanks a → StringBody w → Blanks b → Blanks c → Grammar .value v → Blanks d →
      Grammar .members (a ++ (inQuotes w ++ (b ++ ':' :: (c ++ (v ++ d)))))
  /-- A member before others. -/
  | member {a w b c v d ms : List Char} :
    Blanks a → StringBody w → Blanks b → Blanks c → Grammar .value v → Blanks d →
      Grammar .members ms →
        Grammar .members (a ++ (inQuotes w ++ (b ++ ':' :: (c ++ (v ++ (d ++ ',' :: ms))))))

/-- A value of any kind and depth. -/
abbrev Value (cs : List Char) : Prop := Grammar .value cs

/-! ## Objects that are read -/

/-- A member of an object: the key that is meant, and the text of the value. -/
structure Member where
  /-- The key. -/
  key : List Char
  /-- The text of the value. -/
  value : List Char
deriving DecidableEq, Repr

/-- The text of a member, with the blanks next to it. -/
inductive MemberText : Member → List Char → Prop where
  /-- The key in any spelling, and the value. -/
  | mk {m : Member} {a w b c d : List Char} :
    Blanks a → Spells m.key w → Blanks b → Blanks c → Value m.value → Blanks d →
      MemberText m (a ++ (inQuotes w ++ (b ++ ':' :: (c ++ (m.value ++ d)))))

/-- The text of one member or more, with commas between them. -/
inductive MembersText : List Member → List Char → Prop where
  /-- The last member. -/
  | last {m : Member} {t : List Char} : MemberText m t → MembersText [m] t
  /-- A member before others. -/
  | cons {m : Member} {ms : List Member} {t ts : List Char} :
    MemberText m t → MembersText ms ts → MembersText (m :: ms) (t ++ ',' :: ts)

/-- The text of an object with the given members, with the blanks around it. -/
inductive ObjectText : List Member → List Char → Prop where
  /-- An object with no members. -/
  | empty {a b c : List Char} :
    Blanks a → Blanks b → Blanks c → ObjectText [] (a ++ '{' :: (b ++ '}' :: c))
  /-- An object with members. -/
  | members {ms : List Member} {a t c : List Char} :
    Blanks a → MembersText ms t → Blanks c → ObjectText ms (a ++ '{' :: (t ++ '}' :: c))

/-! ## Arrays that are read -/

/-- The text of one element or more, with commas between them and blanks around each. -/
inductive ElementsText : List (List Char) → List Char → Prop where
  /-- The last element. -/
  | last {v a b : List Char} :
    Blanks a → Value v → Blanks b → ElementsText [v] (a ++ (v ++ b))
  /-- An element before others. -/
  | cons {v a b ts : List Char} {vs : List (List Char)} :
    Blanks a → Value v → Blanks b → ElementsText vs ts →
      ElementsText (v :: vs) (a ++ (v ++ (b ++ ',' :: ts)))

/-- The text of an array with the given elements, with the blanks around it. -/
inductive ArrayText : List (List Char) → List Char → Prop where
  /-- An array with no elements. -/
  | empty {a b c : List Char} :
    Blanks a → Blanks b → Blanks c → ArrayText [] (a ++ '[' :: (b ++ ']' :: c))
  /-- An array with elements. -/
  | elements {vs : List (List Char)} {a t c : List Char} :
    Blanks a → ElementsText vs t → Blanks c → ArrayText vs (a ++ '[' :: (t ++ ']' :: c))

end Settle.Json
