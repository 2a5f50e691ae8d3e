/-!
# Texts of bounded size

A stored message takes at most 64 bytes of UTF-8. A longer one is cut, and the cut never falls
inside a character: from the last byte that fits, one goes back to the nearest place where a
character ends.

Main statement: `first?_eq_some_iff` says which beginnings of a text take exactly so many bytes.
-/

namespace Settle.Text

/-- The size of a text in UTF-8, in bytes. -/
def bytes : List Char → Nat
  | [] => 0
  | c :: cs => c.utf8Size + bytes cs

/-- The beginning of a text that takes exactly the given number of bytes, if a character ends
there. -/
def first? : Nat → List Char → Option (List Char)
  | 0, _ => some []
  | _ + 1, [] => none
  | n + 1, c :: cs =>
    if c.utf8Size ≤ n + 1 then (first? (n + 1 - c.utf8Size) cs).map (c :: ·) else none

/-- The beginning of a text that ends at the given byte, or at the nearest byte before it at which
a character ends; none if the search runs out of bytes. -/
def backFrom (cs : List Char) : Nat → Option (List Char)
  | 0 => first? 0 cs
  | n + 1 =>
    match first? (n + 1) cs with
    | some p => some p
    | none => backFrom cs n

/-- The empty text takes no bytes. -/
@[simp] theorem bytes_nil : bytes [] = 0 := rfl

/-- A text takes the bytes of its first character and those of the rest. -/
@[simp] theorem bytes_cons (c : Char) (cs : List Char) :
    bytes (c :: cs) = c.utf8Size + bytes cs := rfl

/-- Two texts one after the other take the bytes of both. -/
@[simp] theorem bytes_append (cs ds : List Char) : bytes (cs ++ ds) = bytes cs + bytes ds := by
  induction cs with
  | nil => simp
  | cons c cs ih => simp [ih, Nat.add_assoc]

/-- The bytes of a list of characters are the bytes of the text it makes up. -/
theorem utf8ByteSize_ofList (cs : List Char) : (String.ofList cs).utf8ByteSize = bytes cs := by
  induction cs with
  | nil => rfl
  | cons c cs ih =>
    rw [String.ofList_cons, String.utf8ByteSize_append, String.utf8ByteSize_singleton, ih,
      bytes_cons]

/-- A beginning of exactly `n` bytes is found if there is one. -/
theorem first?_eq_some_iff {n : Nat} {cs p : List Char} :
    first? n cs = some p ↔ p <+: cs ∧ bytes p = n := by
  induction cs generalizing n p with
  | nil =>
    cases n with
    | zero =>
      simp only [first?, Option.some.injEq, List.prefix_nil]
      constructor
      · rintro rfl; simp
      · rintro ⟨rfl, -⟩; rfl
    | succ n =>
      simp only [first?, List.prefix_nil, reduceCtorEq, false_iff, not_and]
      rintro rfl
      simp
  | cons c cs ih =>
    cases n with
    | zero =>
      simp only [first?, Option.some.injEq]
      constructor
      · rintro rfl; simp
      · rintro ⟨-, h⟩
        cases p with
        | nil => rfl
        | cons d p =>
          have := d.utf8Size_pos
          simp only [bytes_cons] at h
          omega
    | succ n =>
      cases p with
      | nil =>
        simp only [first?, bytes_nil]
        split <;> simp
      | cons d p =>
        simp only [first?, List.cons_prefix_cons, bytes_cons]
        split
        · next hle =>
          simp only [Option.map_eq_some_iff, ih, List.cons.injEq]
          constructor
          · rintro ⟨q, ⟨hq, hb⟩, rfl, rfl⟩
            exact ⟨⟨rfl, hq⟩, by omega⟩
          · rintro ⟨⟨rfl, hq⟩, hb⟩
            exact ⟨p, ⟨hq, by omega⟩, rfl, rfl⟩
        · next hgt =>
          simp only [reduceCtorEq, false_iff, not_and]
          rintro ⟨rfl, -⟩
          omega

/-! ## Short texts -/

/-- The most bytes a stored message takes. -/
def capacity : Nat := 64

/-- A text of at most 64 bytes. -/
structure Short where
  /-- The text. -/
  text : String
  /-- It fits. -/
  fits : text.utf8ByteSize ≤ capacity
deriving DecidableEq

namespace Short

/-- The empty text. -/
def empty : Short := ⟨"", by decide⟩

/-- Adds a piece at the end, if the whole still fits. -/
def push? (s : Short) (piece : String) : Option Short :=
  if h : (s.text ++ piece).utf8ByteSize ≤ capacity then some ⟨s.text ++ piece, h⟩ else none

/-- The beginning of a message that is stored: the message is searched back from its last byte
that can fit, and what lies before the place found is pushed into an empty text. -/
def clip? (message : String) : Option Short := do
  let cs := message.toList
  let kept ← backFrom cs (min (bytes cs) capacity)
  empty.push? (String.ofList kept)

/-- What is stored of a message. -/
def clip (message : String) : Short := (clip? message).getD empty

end Short

end Settle.Text
