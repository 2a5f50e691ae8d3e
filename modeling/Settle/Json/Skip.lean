import Settle.Json.Token

/-!
# Passing over a value

Reading some members of an object means passing over the values of the others. A value may nest to
any depth, so the brackets that are still open are kept on a stack (`Place.stack`) and the tokens
are taken one at a time.

Main statement: `length_skipValue` says that passing over a value takes at least one token.
-/

namespace Settle.Json

/-- A bracket that is still open. -/
inductive Bracket where
  /-- The bracket of an array. -/
  | array
  /-- The brace of an object. -/
  | object
deriving DecidableEq, Repr

/-- What may come next. -/
inductive Expect where
  /-- A value. -/
  | value
  /-- A value, or the end of an array that is still empty. -/
  | valueOrClose
  /-- A key. -/
  | key
  /-- A key, or the end of an object that is still empty. -/
  | keyOrClose
  /-- The colon after a key. -/
  | colon
  /-- What follows a value: a comma or the end of what it stands in. -/
  | after
deriving DecidableEq, Repr

/-- A place within a value: the open brackets, innermost first, and what may come next. -/
structure Place where
  /-- The open brackets. -/
  stack : List Bracket
  /-- What may come next. -/
  expect : Expect
deriving DecidableEq, Repr

namespace Place

/-- The place after the token with which a value begins. -/
def enter (stack : List Bracket) : Token → Option Place
  | .openArray => some ⟨.array :: stack, .valueOrClose⟩
  | .openObject => some ⟨.object :: stack, .keyOrClose⟩
  | .word => some ⟨stack, .after⟩
  | .natural _ => some ⟨stack, .after⟩
  | .number => some ⟨stack, .after⟩
  | .text _ => some ⟨stack, .after⟩
  | _ => none

/-- The place after the token that follows a value. -/
def leave : List Bracket → Token → Option Place
  | .array :: stack, .comma => some ⟨.array :: stack, .value⟩
  | .array :: stack, .closeArray => some ⟨stack, .after⟩
  | .object :: stack, .comma => some ⟨.object :: stack, .key⟩
  | .object :: stack, .closeObject => some ⟨stack, .after⟩
  | _, _ => none

/-- The place after one more token. -/
def step (p : Place) (t : Token) : Option Place :=
  match p.expect with
  | .value => enter p.stack t
  | .valueOrClose =>
    match t with
    | .closeArray => leave p.stack t
    | _ => enter p.stack t
  | .key =>
    match t with
    | .text _ => some ⟨p.stack, .colon⟩
    | _ => none
  | .keyOrClose =>
    match t with
    | .closeObject => leave p.stack t
    | .text _ => some ⟨p.stack, .colon⟩
    | _ => none
  | .colon =>
    match t with
    | .colon => some ⟨p.stack, .value⟩
    | _ => none
  | .after => leave p.stack t

/-- Whether the value is complete. -/
def isComplete (p : Place) : Bool := p.stack.isEmpty && p.expect = .after

end Place

/-- Passes over the rest of a value, from a place within it. -/
def skipFrom (p : Place) : List Token → Option (List Token)
  | [] => if p.isComplete then some [] else none
  | t :: ts =>
    if p.isComplete then some (t :: ts)
    else
      match p.step t with
      | none => none
      | some q => skipFrom q ts

/-- Passes over one value. -/
def skipValue (ts : List Token) : Option (List Token) := skipFrom ⟨[], .value⟩ ts

/-- Skipping a value leaves no more tokens than there were. -/
theorem length_skipFrom {p : Place} {ts rest : List Token} (h : skipFrom p ts = some rest) :
    rest.length ≤ ts.length := by
  induction ts generalizing p with
  | nil =>
    unfold skipFrom at h
    split at h <;> cases h
    exact Nat.le_refl _
  | cons t ts ih =>
    unfold skipFrom at h
    split at h
    · cases h; exact Nat.le_refl _
    · split at h
      · cases h
      · have := ih h
        simp only [List.length_cons]
        omega

/-- Passing over a value takes at least one token. -/
theorem length_skipValue {ts rest : List Token} (h : skipValue ts = some rest) :
    rest.length < ts.length := by
  cases ts with
  | nil => cases h
  | cons t ts =>
    simp only [skipValue, skipFrom, Place.isComplete, List.isEmpty_nil, Bool.true_and,
      decide_eq_true_eq, reduceCtorEq, if_false] at h
    split at h
    · cases h
    · have := length_skipFrom h
      simp only [List.length_cons]
      omega

end Settle.Json
