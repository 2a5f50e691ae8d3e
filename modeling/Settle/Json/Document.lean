import Settle.Json.Quoted

/-!
# JSON documents and their two printed forms

A document is what this library prints: nulls, booleans, natural numbers, texts and objects, whose
members keep the order they are given in. It has two printed forms. The compact form has no blank
outside texts. The indented form puts each member on a line of its own, two columns further in than
the object it belongs to.
-/

namespace Settle.Json

/-- A document to be printed. -/
inductive Document where
  /-- The absent value. -/
  | null
  /-- A truth value. -/
  | bool (b : Bool)
  /-- A natural number. -/
  | number (n : Nat)
  /-- A text. -/
  | text (s : String)
  /-- An object, with its members in order. -/
  | object (members : List (String × Document))

namespace Document

/-- A number that may be absent. -/
def numberOrNull : Option Nat → Document
  | none => .null
  | some n => .number n

/-- How a truth value is printed. -/
def boolText (b : Bool) : List Char := if b then "true".toList else "false".toList

mutual

/-- The compact form. -/
def compact : Document → List Char
  | .null => "null".toList
  | .bool b => boolText b
  | .number n => Nat.toDigits 10 n
  | .text s => quoted s.toList
  | .object members => '{' :: (compactMembers [] members ++ ['}'])

/-- The compact form of an object's members, with `lead` before the first of them and a comma
before each of the others. -/
def compactMembers (lead : List Char) : List (String × Document) → List Char
  | [] => []
  | (key, value) :: rest =>
    lead ++ quoted key.toList ++ ':' :: (compact value ++ compactMembers [','] rest)

end

/-- A line break, and the blanks that begin a line `depth` objects deep. -/
def newline (depth : Nat) : List Char := '\n' :: List.replicate (2 * depth) ' '

mutual

/-- The indented form of a document that stands `depth` objects deep. -/
def indented (depth : Nat) : Document → List Char
  | .null => "null".toList
  | .bool b => boolText b
  | .number n => Nat.toDigits 10 n
  | .text s => quoted s.toList
  | .object [] => ['{', '}']
  | .object members =>
    '{' :: (indentedMembers (depth + 1) [] members ++ newline depth ++ ['}'])

/-- The indented form of an object's members, each on a line of its own, with `lead` at the end of
the line before the first of them and a comma before each of the others. -/
def indentedMembers (depth : Nat) (lead : List Char) : List (String × Document) → List Char
  | [] => []
  | (key, value) :: rest =>
    lead ++ newline depth ++ quoted key.toList ++
      ':' :: ' ' :: (indented depth value ++ indentedMembers depth [','] rest)

end

/-- The compact form as a text. -/
def compactText (d : Document) : String := String.ofList d.compact

/-- The indented form as a text. -/
def prettyText (d : Document) : String := String.ofList (d.indented 0)

/-- The characters of the compact text. -/
@[simp] theorem toList_compactText (d : Document) : d.compactText.toList = d.compact :=
  String.toList_ofList

/-- The characters of the indented text. -/
@[simp] theorem toList_prettyText (d : Document) : d.prettyText.toList = d.indented 0 :=
  String.toList_ofList

end Document

end Settle.Json
