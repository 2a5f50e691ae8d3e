/-!
# JSON tokens

The first stage of reading JSON: the blanks between tokens are dropped, and what remains is cut
into punctuation, texts, numbers and the three words `null`, `true` and `false`. A text keeps what
its escapes say piece by piece, because an escape may name half of a character: whether the pieces
make up a text at all is asked only where the text is used (`decodeText`).

Main statement: `length_next` says that every token takes at least one character, which is why
cutting a text into tokens ends.
-/

namespace Settle.Json

/-- What stands for a character, or for half of one, between quotes. -/
inductive Piece where
  /-- A character. -/
  | char (c : Char)
  /-- A 16-bit unit, written in hexadecimal. -/
  | unit (n : Nat)
deriving DecidableEq, Repr

/-- A token. -/
inductive Token where
  /-- An opening square bracket. -/
  | openArray
  /-- A closing square bracket. -/
  | closeArray
  /-- An opening brace. -/
  | openObject
  /-- A closing brace. -/
  | closeObject
  /-- A comma. -/
  | comma
  /-- A colon. -/
  | colon
  /-- One of the words `null`, `true` and `false`. -/
  | word
  /-- A number written with digits only. -/
  | natural (n : Nat)
  /-- A number with a sign, a fraction or an exponent. -/
  | number
  /-- A quoted text. -/
  | text (pieces : List Piece)
deriving DecidableEq, Repr

/-! ## Texts -/

/-- The value of a hexadecimal digit in either case. -/
def hexValue? (c : Char) : Option Nat :=
  if '0' ≤ c ∧ c ≤ '9' then some (c.toNat - 48)
  else if 'a' ≤ c ∧ c ≤ 'f' then some (c.toNat - 87)
  else if 'A' ≤ c ∧ c ≤ 'F' then some (c.toNat - 55)
  else none

/-- The value of four hexadecimal digits. -/
def hexFour? (a b c d : Char) : Option Nat := do
  let a ← hexValue? a
  let b ← hexValue? b
  let c ← hexValue? c
  let d ← hexValue? d
  return ((a * 16 + b) * 16 + c) * 16 + d

/-- The character that a letter after a backslash stands for. -/
def escaped? : Char → Option Char
  | '"' => some '"'
  | '\\' => some '\\'
  | '/' => some '/'
  | 'b' => some '\x08'
  | 'f' => some '\x0c'
  | 'n' => some '\n'
  | 'r' => some '\r'
  | 't' => some '\t'
  | _ => none

/-- Puts a piece before a text that was read. -/
def consPiece (p : Piece) : List Piece × List Char → List Piece × List Char :=
  fun (ps, rest) => (p :: ps, rest)

/-- Reads what follows an opening quote, up to the closing one. No control character may stand
between quotes as itself. -/
def readText : List Char → Option (List Piece × List Char)
  | [] => none
  | '"' :: cs => some ([], cs)
  | '\\' :: 'u' :: a :: b :: c :: d :: cs =>
    match hexFour? a b c d with
    | none => none
    | some n => (readText cs).map (consPiece (.unit n))
  | '\\' :: e :: cs =>
    match escaped? e with
    | none => none
    | some c => (readText cs).map (consPiece (.char c))
  | c :: cs =>
    if c.toNat < 0x20 then none else (readText cs).map (consPiece (.char c))

/-- Whether a unit is the first half of a character. -/
def isHighHalf (n : Nat) : Bool := 0xd800 ≤ n && n < 0xdc00

/-- Whether a unit is the second half of a character. -/
def isLowHalf (n : Nat) : Bool := 0xdc00 ≤ n && n < 0xe000

/-- The text that the pieces make up. Two units that are the halves of a character make up that
character, and there is no text if a half stands alone. -/
def decodeText : List Piece → Option (List Char)
  | [] => some []
  | .char c :: ps => (decodeText ps).map (c :: ·)
  | .unit n :: .unit m :: ps =>
    if isHighHalf n then
      if isLowHalf m then
        (decodeText ps).map (Char.ofNat (0x10000 + (n - 0xd800) * 0x400 + (m - 0xdc00)) :: ·)
      else none
    else if isLowHalf n then none
    else (decodeText (.unit m :: ps)).map (Char.ofNat n :: ·)
  | .unit n :: ps =>
    if isHighHalf n || isLowHalf n then none else (decodeText ps).map (Char.ofNat n :: ·)

/-! ## Numbers -/

/-- Reads the digits before a fraction: a zero alone, or digits that do not begin with one. -/
def readWhole : List Char → Option (Nat × List Char)
  | '0' :: cs => some (0, cs)
  | cs =>
    match cs.takeWhile Char.isDigit with
    | [] => none
    | d :: ds => some (Nat.ofDigitChars 10 (d :: ds) 0, cs.dropWhile Char.isDigit)

/-- Passes over one digit or more. -/
def dropDigits? (cs : List Char) : Option (List Char) :=
  match cs.takeWhile Char.isDigit with
  | [] => none
  | _ :: _ => some (cs.dropWhile Char.isDigit)

/-- Passes over a fraction, and says whether there was one. -/
def readFraction : List Char → Option (Bool × List Char)
  | '.' :: cs => (dropDigits? cs).map (true, ·)
  | cs => some (false, cs)

/-- Passes over one sign, if there is one. -/
def dropSign : List Char → List Char
  | '+' :: cs => cs
  | '-' :: cs => cs
  | cs => cs

/-- Passes over an exponent, and says whether there was one. -/
def readExponent : List Char → Option (Bool × List Char)
  | 'e' :: cs => (dropDigits? (dropSign cs)).map (true, ·)
  | 'E' :: cs => (dropDigits? (dropSign cs)).map (true, ·)
  | cs => some (false, cs)

/-- Reads a number after its sign. -/
def readNumber (signed : Bool) (cs : List Char) : Option (Token × List Char) := do
  let (n, cs) ← readWhole cs
  let (fraction, cs) ← readFraction cs
  let (exponent, cs) ← readExponent cs
  return (if signed || fraction || exponent then .number else .natural n, cs)

/-! ## Tokens -/

/-- Whether a character may stand between tokens. -/
def isBlank (c : Char) : Bool := c = ' ' || c = '\t' || c = '\n' || c = '\r'

/-- Reads one token that begins with the first character. -/
def next : List Char → Option (Token × List Char)
  | '[' :: cs => some (.openArray, cs)
  | ']' :: cs => some (.closeArray, cs)
  | '{' :: cs => some (.openObject, cs)
  | '}' :: cs => some (.closeObject, cs)
  | ',' :: cs => some (.comma, cs)
  | ':' :: cs => some (.colon, cs)
  | 'n' :: 'u' :: 'l' :: 'l' :: cs => some (.word, cs)
  | 't' :: 'r' :: 'u' :: 'e' :: cs => some (.word, cs)
  | 'f' :: 'a' :: 'l' :: 's' :: 'e' :: cs => some (.word, cs)
  | '"' :: cs => (readText cs).map fun (ps, rest) => (.text ps, rest)
  | '-' :: cs => readNumber true cs
  | cs => readNumber false cs

/-! ## Every token takes a character -/

/-- Reading a text takes at least the quote that ends it. -/
theorem length_readText {cs rest : List Char} {ps : List Piece}
    (h : readText cs = some (ps, rest)) : rest.length < cs.length := by
  fun_induction readText cs generalizing ps rest with
  | case1 => cases h
  | case2 cs => cases h; simp
  | case3 => cases h
  | case4 a b c d cs n hn ih =>
    obtain ⟨⟨qs, r⟩, hq, he⟩ := Option.map_eq_some_iff.mp h
    cases he
    have := ih hq
    simp only [List.length_cons]
    omega
  | case5 => cases h
  | case6 e cs hne c hc ih =>
    obtain ⟨⟨qs, r⟩, hq, he⟩ := Option.map_eq_some_iff.mp h
    cases he
    have := ih hq
    simp only [List.length_cons]
    omega
  | case7 => cases h
  | case8 c cs h1 h2 h3 h4 ih =>
    obtain ⟨⟨qs, r⟩, hq, he⟩ := Option.map_eq_some_iff.mp h
    cases he
    have := ih hq
    simp only [List.length_cons]
    omega

/-- What is left after dropping is no longer. -/
theorem length_dropWhile_le (p : Char → Bool) (cs : List Char) :
    (cs.dropWhile p).length ≤ cs.length :=
  (List.dropWhile_sublist p).length_le

/-- What is left is shorter if anything was dropped. -/
theorem length_dropWhile_lt {p : Char → Bool} {cs ds : List Char} {d : Char}
    (h : cs.takeWhile p = d :: ds) : (cs.dropWhile p).length < cs.length := by
  have hsplit := congrArg List.length (List.takeWhile_append_dropWhile (p := p) (l := cs))
  rw [h] at hsplit
  simp only [List.cons_append, List.length_cons, List.length_append] at hsplit
  omega

/-- Reading a whole number takes at least one digit. -/
theorem length_readWhole {cs rest : List Char} {n : Nat} (h : readWhole cs = some (n, rest)) :
    rest.length < cs.length := by
  unfold readWhole at h
  split at h
  · cases h; simp
  · split at h
    · cases h
    · next hd =>
      cases h
      exact length_dropWhile_lt hd

/-- Dropping digits leaves no more than there was. -/
theorem length_dropDigits? {cs rest : List Char} (h : dropDigits? cs = some rest) :
    rest.length ≤ cs.length := by
  unfold dropDigits? at h
  split at h
  · cases h
  · cases h; exact length_dropWhile_le _ _

/-- Reading a fraction leaves no more than there was. -/
theorem length_readFraction {cs rest : List Char} {b : Bool}
    (h : readFraction cs = some (b, rest)) : rest.length ≤ cs.length := by
  unfold readFraction at h
  split at h
  · next cs =>
    obtain ⟨r, hr, he⟩ := Option.map_eq_some_iff.mp h
    cases he
    have := length_dropDigits? hr
    simp only [List.length_cons]
    omega
  · cases h; exact Nat.le_refl _

/-- Dropping a sign leaves no more than there was. -/
theorem length_dropSign_le (cs : List Char) : (dropSign cs).length ≤ cs.length := by
  unfold dropSign
  split <;> simp

/-- Reading an exponent leaves no more than there was. -/
theorem length_readExponent {cs rest : List Char} {b : Bool}
    (h : readExponent cs = some (b, rest)) : rest.length ≤ cs.length := by
  unfold readExponent at h
  split at h
  · next cs =>
    obtain ⟨r, hr, he⟩ := Option.map_eq_some_iff.mp h
    cases he
    have := length_dropDigits? hr
    have := length_dropSign_le cs
    simp only [List.length_cons]
    omega
  · next cs =>
    obtain ⟨r, hr, he⟩ := Option.map_eq_some_iff.mp h
    cases he
    have := length_dropDigits? hr
    have := length_dropSign_le cs
    simp only [List.length_cons]
    omega
  · cases h; exact Nat.le_refl _

/-- Reading a number takes at least one character. -/
theorem length_readNumber {signed : Bool} {cs rest : List Char} {t : Token}
    (h : readNumber signed cs = some (t, rest)) : rest.length < cs.length := by
  simp only [readNumber, Option.bind_eq_bind, Option.bind_eq_some_iff, Prod.exists] at h
  obtain ⟨n, r₁, h₁, f, r₂, h₂, e, r₃, h₃, h₄⟩ := h
  cases h₄
  have := length_readWhole h₁
  have := length_readFraction h₂
  have := length_readExponent h₃
  omega

/-- A token takes at least one character. -/
theorem length_next {cs rest : List Char} {t : Token} (h : next cs = some (t, rest)) :
    rest.length < cs.length := by
  unfold next at h
  split at h
  iterate 9
    · cases h
      simp only [List.length_cons]
      omega
  · next cs =>
    obtain ⟨⟨ps, r⟩, hr, he⟩ := Option.map_eq_some_iff.mp h
    cases he
    have := length_readText hr
    simp only [List.length_cons]
    omega
  · next cs =>
    have := length_readNumber h
    simp only [List.length_cons]
    omega
  · exact length_readNumber h

/-- Cuts a text into tokens, if it consists of tokens and blanks. -/
def tokens (cs : List Char) : Option (List Token) :=
  match cs with
  | [] => some []
  | c :: cs =>
    if isBlank c then tokens cs
    else
      match h : next (c :: cs) with
      | none => none
      | some (t, rest) =>
        have : rest.length ≤ cs.length := Nat.le_of_lt_succ (length_next h)
        (tokens rest).map (t :: ·)
termination_by cs.length
decreasing_by all_goals simp only [List.length_cons]; omega

/-- The empty text has no tokens. -/
@[simp] theorem tokens_nil : tokens [] = some [] := by rw [tokens]

/-- A blank between tokens is no token. -/
theorem tokens_cons_of_isBlank {c : Char} (h : isBlank c = true) (cs : List Char) :
    tokens (c :: cs) = tokens cs := by
  rw [tokens]; simp [h]

end Settle.Json
