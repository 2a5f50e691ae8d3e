import Mathlib.Tactic.IntervalCases
import Settle.Proofs.Json.Grammar

/-!
# How the grammar is cut into tokens

Cutting a text into tokens looks at what follows: a number goes on for as long as digits, a point
or an exponent come. So `Lexes cs ts`, which says that `cs` is cut into the tokens `ts`, is about
`cs` before any text that does not go on with a number (`Stops`). Blanks, commas, colons and closing
brackets stop a number, and so does the end, so in a JSON text every part of the grammar has such a
text behind it.

Main statements: a text in quotes is one token, and if it spells a text that text can be had back
(`StringBody.lexes`, `Spells.lexes`); a plain natural number is one token that carries its value
(`Whole.lexes`), and any other number is one token too (`Number.lexes`).
-/

namespace Settle.Json

/-! ## One token -/

/-- No token begins with a blank. -/
theorem next_of_isBlank {c : Char} (h : isBlank c = true) (cs : List Char) :
    next (c :: cs) = none := by
  simp only [isBlank, Bool.or_eq_true, decide_eq_true_eq] at h
  rcases h with ((rfl | rfl) | rfl) | rfl <;> rfl

/-- Cutting off one token. -/
theorem tokens_of_next {cs rest : List Char} {t : Token} (h : next cs = some (t, rest)) :
    tokens cs = (tokens rest).map (t :: ·) := by
  rcases cs with _ | ⟨c, cs⟩
  · cases h
  · -- Blanks need no case of their own, as no token begins with one.
    have hc : isBlank c ≠ true := fun hc => by simp [next_of_isBlank hc] at h
    rw [tokens, if_neg hc]
    split
    · next hn => simp [hn] at h
    · next hn =>
      rw [h] at hn
      cases hn
      rfl

/-- The four blanks of the grammar are those of the lexer. -/
theorem isBlank_of_mem {c : Char} (h : c ∈ [' ', '\t', '\n', '\r']) : isBlank c = true := by
  simp only [List.mem_cons, List.not_mem_nil, or_false] at h
  rcases h with rfl | rfl | rfl | rfl <;> rfl

/-- Blanks make no tokens. -/
theorem Blanks.tokens {a : List Char} (h : Blanks a) (rest : List Char) :
    tokens (a ++ rest) = tokens rest := by
  induction a with
  | nil => rfl
  | cons c a ih =>
    rw [List.cons_append, tokens_cons_of_isBlank (isBlank_of_mem (h c (by simp))),
      ih fun d hd => h d (by simp [hd])]

/-! ## What follows -/

/-- A text that does not go on with a number. -/
def Stops (rest : List Char) : Prop :=
  ∀ c ∈ rest.head?, c.isDigit = false ∧ c ∉ ['.', 'e', 'E']

/-- A number may end the text. -/
theorem Stops.nil : Stops [] := by simp [Stops]

/-- A number stops before a character that cannot go on with it. -/
theorem Stops.cons {c : Char} (h : c.isDigit = false ∧ c ∉ ['.', 'e', 'E']) (rest : List Char) :
    Stops (c :: rest) := by
  simpa [Stops] using h

/-- A number stops before blanks. -/
theorem Blanks.stops {a rest : List Char} (h : Blanks a) (hrest : Stops rest) :
    Stops (a ++ rest) := by
  rcases a with _ | ⟨c, a⟩
  · exact hrest
  · have hc := h c (by simp)
    simp only [List.mem_cons, List.not_mem_nil, or_false] at hc
    rcases hc with rfl | rfl | rfl | rfl <;> exact Stops.cons (by decide) _

/-- The text `cs` is cut into the tokens `ts`, whatever follows that does not go on with a
number. -/
def Lexes (cs : List Char) (ts : List Token) : Prop :=
  ∀ rest, Stops rest → tokens (cs ++ rest) = (tokens rest).map (ts ++ ·)

/-- A text is cut into tokens in one way. -/
theorem Lexes.unique {cs : List Char} {ts us : List Token} (ht : Lexes cs ts) (hu : Lexes cs us) :
    ts = us := by
  have h := (ht [] .nil).symm.trans (hu [] .nil)
  simpa using h

/-- A token that is read from any text it begins is all that its characters lex to. -/
theorem Lexes.of_next {cs : List Char} {t : Token}
    (h : ∀ rest, Stops rest → next (cs ++ rest) = some (t, rest)) : Lexes cs [t] :=
  fun rest hrest => tokens_of_next (h rest hrest)

/-! ## Parts beside each other -/

/-- The characters that are tokens by themselves. -/
def punctuation : List (Char × Token) :=
  [('[', .openArray), (']', .closeArray), ('{', .openObject), ('}', .closeObject), (',', .comma),
    (':', .colon)]

section
variable {a b c d : List Char} {ts us : List Token} {p : Char} {t : Token}

/-- A mark is read as its token. -/
theorem next_punctuation (h : (p, t) ∈ punctuation) (rest : List Char) :
    next (p :: rest) = some (t, rest) := by
  simp only [punctuation, List.mem_cons, Prod.mk.injEq, List.not_mem_nil, or_false] at h
  rcases h with ⟨rfl, rfl⟩ | ⟨rfl, rfl⟩ | ⟨rfl, rfl⟩ | ⟨rfl, rfl⟩ | ⟨rfl, rfl⟩ | ⟨rfl, rfl⟩ <;> rfl

/-- A number stops before a mark. -/
theorem stops_punctuation (h : (p, t) ∈ punctuation) (rest : List Char) : Stops (p :: rest) := by
  simp only [punctuation, List.mem_cons, Prod.mk.injEq, List.not_mem_nil, or_false] at h
  rcases h with ⟨rfl, -⟩ | ⟨rfl, -⟩ | ⟨rfl, -⟩ | ⟨rfl, -⟩ | ⟨rfl, -⟩ | ⟨rfl, -⟩ <;>
    exact Stops.cons (by decide) _

/-- Blanks lex to nothing. -/
theorem Blanks.lexes (h : Blanks a) : Lexes a [] := by
  intro rest _
  simp [h.tokens]

/-- Blanks in front do not matter. -/
theorem Blanks.lexes_append (h : Blanks a) (hb : Lexes b ts) : Lexes (a ++ b) ts := by
  intro rest hrest
  rw [List.append_assoc, h.tokens, hb rest hrest]

/-- Blanks at the end do not matter. -/
theorem Lexes.append_blanks (h : Lexes a ts) (hb : Blanks b) : Lexes (a ++ b) ts := by
  intro rest hrest
  rw [List.append_assoc, h _ (hb.stops hrest), hb.tokens]

/-- A mark in front lexes to its token. -/
theorem Lexes.punctuation_cons (hp : (p, t) ∈ punctuation) (h : Lexes a ts) :
    Lexes (p :: a) (t :: ts) := by
  intro rest hrest
  rw [List.cons_append, tokens_of_next (next_punctuation hp _), h rest hrest, Option.map_map]
  rfl

/-- What begins with a comma, a colon or the like begins with that token. -/
theorem Lexes.head_of_punctuation (hp : (p, t) ∈ punctuation) (h : Lexes (p :: a) ts) :
    ts.head? = some t := by
  have hts := h [] .nil
  rw [List.append_nil, tokens_of_next (next_punctuation hp a), tokens_nil, Option.map_some,
    List.append_nil] at hts
  obtain ⟨us, -, rfl⟩ := Option.map_eq_some_iff.mp hts
  rfl

/-- Two parts with a comma, a colon or the like between them. -/
theorem Lexes.append_punctuation (h : Lexes a ts) (hb : Blanks b) (hp : (p, t) ∈ punctuation)
    (hc : Lexes c us) : Lexes (a ++ (b ++ p :: c)) (ts ++ t :: us) := by
  intro rest hrest
  rw [List.append_assoc, List.append_assoc, List.cons_append,
    h _ (hb.stops (stops_punctuation hp _)), hb.tokens, ← List.cons_append,
    hc.punctuation_cons hp rest hrest, Option.map_map]
  simp [Function.comp_def]

end

/-- One of the three words is one token. -/
theorem lexes_word {w : String} (h : w ∈ ["null", "true", "false"]) : Lexes w.toList [.word] := by
  simp only [List.mem_cons, List.not_mem_nil, or_false] at h
  rcases h with rfl | rfl | rfl <;> exact .of_next fun rest _ => rfl

/-! ## Texts -/

/-- A hexadecimal digit is read as its value. -/
theorem HexDigit.value {c : Char} {n : Nat} (h : HexDigit c n) : hexValue? c = some n := by
  have hn : n < 16 := by
    rcases h with h | h <;> exact (List.getElem?_eq_some_iff.mp h).1
  rcases h with h | h <;>
    (interval_cases n <;> (cases h; rfl))

/-- Four hexadecimal digits are read as their value. -/
theorem HexFour.value {cs : List Char} {n : Nat} (h : HexFour cs n) :
    ∃ a b c d, cs = [a, b, c, d] ∧ hexFour? a b c d = some n := by
  rcases h with ⟨ha, hb, hc, hd⟩
  exact ⟨_, _, _, _, rfl, by simp [hexFour?, ha.value, hb.value, hc.value, hd.value]⟩

/-- A plain character in a text is read as itself. -/
theorem readText_plain {c : Char} (h : Plain c) (cs : List Char) :
    readText (c :: cs) = (readText cs).map (consPiece (.char c)) := by
  obtain ⟨hc, hquote, hslash⟩ := h
  rw [readText]
  · rw [if_neg (by omega)]
  · exact hquote
  · intro _ _ _ _ _ he _
    exact hslash he
  · intro _ _ he _
    exact hslash he

/-- A backslash and a letter are read as the character that they stand for. -/
theorem readText_short {e c : Char} (h : (e, c) ∈ shortEscapes) (cs : List Char) :
    readText ('\\' :: e :: cs) = (readText cs).map (consPiece (.char c)) := by
  simp only [shortEscapes, List.mem_cons, Prod.mk.injEq, List.not_mem_nil, or_false] at h
  rcases h with ⟨rfl, rfl⟩ | ⟨rfl, rfl⟩ | ⟨rfl, rfl⟩ | ⟨rfl, rfl⟩ | ⟨rfl, rfl⟩ | ⟨rfl, rfl⟩ |
    ⟨rfl, rfl⟩ | ⟨rfl, rfl⟩ <;> (rw [readText] <;> simp [escaped?])

/-- A backslash, a `u` and four digits are read as the unit that they give. -/
theorem readText_unit {hex : List Char} {n : Nat} (h : HexFour hex n) (cs : List Char) :
    readText ('\\' :: 'u' :: (hex ++ cs)) = (readText cs).map (consPiece (.unit n)) := by
  obtain ⟨a, b, c, d, rfl, hn⟩ := h.value
  simp only [List.cons_append, List.nil_append]
  rw [readText, hn]

/-- What may stand between quotes is read up to the closing quote. -/
theorem StringBody.readText {w : List Char} (h : StringBody w) :
    ∃ ps, ∀ rest, readText (w ++ '"' :: rest) = some (ps, rest) := by
  induction h with
  | nil => exact ⟨[], fun rest => rfl⟩
  | plain hc _ ih =>
    obtain ⟨ps, ih⟩ := ih
    exact ⟨_, fun rest => by rw [List.cons_append, readText_plain hc, ih]; rfl⟩
  | short he _ ih =>
    obtain ⟨ps, ih⟩ := ih
    exact ⟨_, fun rest => by
      rw [List.cons_append, List.cons_append, readText_short he, ih]; rfl⟩
  | unit hn _ ih =>
    obtain ⟨ps, ih⟩ := ih
    exact ⟨_, fun rest => by
      rw [List.cons_append, List.cons_append, List.append_assoc, readText_unit hn, ih]; rfl⟩

/-- A unit that is no half of a character is a character. -/
theorem decodeText_unit {c : Char} (ps : List Piece) :
    decodeText (.unit c.toNat :: ps) = (decodeText ps).map (c :: ·) := by
  have hc : isHighHalf c.toNat = false ∧ isLowHalf c.toNat = false := by
    have hvalid : c.toNat < 0xd800 ∨ 0xdfff < c.toNat ∧ c.toNat < 0x110000 := c.valid
    simp only [isHighHalf, isLowHalf, Bool.and_eq_false_iff, decide_eq_false_iff_not]
    omega
  rcases ps with _ | ⟨_ | m, ps⟩ <;> simp [decodeText, hc.1, hc.2, Char.ofNat_toNat]

/-- Two units that are the halves of a character are that character. -/
theorem decodeText_pair {c : Char} {high low : Nat} (hhigh : high < 0x400) (hlow : low < 0x400)
    (hc : c.toNat = 0x10000 + high * 0x400 + low) (ps : List Piece) :
    decodeText (.unit (0xd800 + high) :: .unit (0xdc00 + low) :: ps)
      = (decodeText ps).map (c :: ·) := by
  have h1 : isHighHalf (0xd800 + high) = true := by simp [isHighHalf]; omega
  have h2 : isLowHalf (0xdc00 + low) = true := by simp [isLowHalf]; omega
  rw [decodeText, if_pos h1, if_pos h2, Nat.add_sub_cancel_left, Nat.add_sub_cancel_left, ← hc,
    Char.ofNat_toNat]

/-- A spelling is read as pieces that make up the text it means. -/
theorem Spells.readText {cs w : List Char} (h : Spells cs w) :
    ∃ ps, decodeText ps = some cs ∧ ∀ rest, readText (w ++ '"' :: rest) = some (ps, rest) := by
  induction h with
  | nil => exact ⟨[], rfl, fun rest => rfl⟩
  | @plain c _ _ hc _ ih =>
    obtain ⟨ps, hd, ih⟩ := ih
    refine ⟨.char c :: ps, by simp [decodeText, hd], fun rest => ?_⟩
    rw [List.cons_append, readText_plain hc, ih]
    rfl
  | @short _ c _ _ he _ ih =>
    obtain ⟨ps, hd, ih⟩ := ih
    refine ⟨.char c :: ps, by simp [decodeText, hd], fun rest => ?_⟩
    rw [List.cons_append, List.cons_append, readText_short he, ih]
    rfl
  | @unit c _ _ _ hn _ ih =>
    obtain ⟨ps, hd, ih⟩ := ih
    refine ⟨.unit c.toNat :: ps, by simp [decodeText_unit, hd], fun rest => ?_⟩
    rw [List.cons_append, List.cons_append, List.append_assoc, readText_unit hn, ih]
    rfl
  | @pair c _ _ _ _ high low hh hl hhigh hlow hc _ ih =>
    obtain ⟨ps, hd, ih⟩ := ih
    refine ⟨.unit (0xd800 + high) :: .unit (0xdc00 + low) :: ps,
      by simp [decodeText_pair hhigh hlow hc, hd], fun rest => ?_⟩
    simp only [List.cons_append, List.append_assoc]
    rw [readText_unit hh, readText_unit hl, ih]
    rfl

/-- What is read as a text lexes to that text when it stands between quotes. -/
theorem lexes_inQuotes {w : List Char} {ps : List Piece}
    (h : ∀ rest, readText (w ++ '"' :: rest) = some (ps, rest)) :
    Lexes (inQuotes w) [.text ps] := by
  refine .of_next fun rest _ => ?_
  have hw : inQuotes w ++ rest = '"' :: (w ++ '"' :: rest) := by simp [inQuotes]
  rw [hw, next, h]
  rfl

/-- A text in quotes is one token. -/
theorem StringBody.lexes {w : List Char} (h : StringBody w) :
    ∃ ps, Lexes (inQuotes w) [.text ps] := by
  obtain ⟨ps, hps⟩ := h.readText
  exact ⟨ps, lexes_inQuotes hps⟩

/-- A spelling in quotes is one token, from which the text it means can be had back. -/
theorem Spells.lexes {cs w : List Char} (h : Spells cs w) :
    ∃ ps, decodeText ps = some cs ∧ Lexes (inQuotes w) [.text ps] := by
  obtain ⟨ps, hd, hps⟩ := h.readText
  exact ⟨ps, hd, lexes_inQuotes hps⟩

/-! ## Numbers -/

/-- Digits are taken up to where they end. -/
theorem takeWhile_isDigit_append {ds rest : List Char} (h : ∀ c ∈ ds, c.isDigit = true)
    (hrest : ∀ c ∈ rest.head?, c.isDigit = false) :
    (ds ++ rest).takeWhile Char.isDigit = ds ∧ (ds ++ rest).dropWhile Char.isDigit = rest := by
  rw [List.takeWhile_append_of_pos h, List.dropWhile_append_of_pos h]
  rcases rest with _ | ⟨c, rest⟩
  · simp
  · have hc := hrest c rfl
    simp [hc]

/-- Digits are dropped up to where they end. -/
theorem dropDigits?_append {ds rest : List Char} (h : Digits ds)
    (hrest : ∀ c ∈ rest.head?, c.isDigit = false) : dropDigits? (ds ++ rest) = some rest := by
  obtain ⟨htake, hdrop⟩ := takeWhile_isDigit_append h.2 hrest
  rw [dropDigits?, htake, hdrop]
  rcases ds with _ | ⟨d, ds⟩
  · exact absurd rfl h.1
  · rfl

/-- A whole number is read as its value. -/
theorem Whole.readWhole {w rest : List Char} (h : Whole w)
    (hrest : ∀ c ∈ rest.head?, c.isDigit = false) :
    readWhole (w ++ rest) = some (Nat.ofDigitChars 10 w 0, rest) := by
  rcases h with rfl | ⟨hd, hzero⟩
  · rfl
  · obtain ⟨htake, hdrop⟩ := takeWhile_isDigit_append hd.2 hrest
    rcases w with _ | ⟨d, ds⟩
    · exact absurd rfl hd.1
    · rw [Json.readWhole, htake, hdrop]
      rintro _ he
      simp only [List.cons_append, List.cons.injEq] at he
      exact hzero (by rw [he.1]; rfl)

/-- A fraction is passed over if nothing follows that would make it longer. -/
theorem Fraction.readFraction {f rest : List Char} (h : Fraction f)
    (hrest : ∀ c ∈ rest.head?, c.isDigit = false ∧ c ≠ '.') :
    readFraction (f ++ rest) = some (!f.isEmpty, rest) := by
  rcases h with _ | hd
  · rcases rest with _ | ⟨c, rest⟩
    · rfl
    · rw [List.nil_append, Json.readFraction]
      · rfl
      · exact fun _ he => (hrest c rfl).2 (List.cons.inj he).1
  · rw [List.cons_append, Json.readFraction, dropDigits?_append hd fun c hc => (hrest c hc).1]
    rfl

/-- A sign before digits is dropped. -/
theorem dropSign_append {sign ds : List Char} (hs : sign ∈ [[], ['+'], ['-']]) (hd : Digits ds)
    (rest : List Char) : dropSign (sign ++ (ds ++ rest)) = ds ++ rest := by
  simp only [List.mem_cons, List.not_mem_nil, or_false] at hs
  rcases hs with rfl | rfl | rfl
  · rcases ds with _ | ⟨d, ds⟩
    · exact absurd rfl hd.1
    · have hdigit := hd.2 d (by simp)
      rw [List.nil_append, List.cons_append, dropSign]
      · rintro _ he
        obtain ⟨rfl, -⟩ := List.cons.inj he
        exact absurd hdigit (by decide)
      · rintro _ he
        obtain ⟨rfl, -⟩ := List.cons.inj he
        exact absurd hdigit (by decide)
  · rfl
  · rfl

/-- An exponent is passed over if nothing follows that would make it longer. -/
theorem Exponent.readExponent {e rest : List Char} (h : Exponent e)
    (hrest : ∀ c ∈ rest.head?, c.isDigit = false ∧ c ∉ ['e', 'E']) :
    readExponent (e ++ rest) = some (!e.isEmpty, rest) := by
  rcases h with _ | ⟨he, hs, hd⟩
  · rcases rest with _ | ⟨c, rest⟩
    · rfl
    · have hc := (hrest c rfl).2
      rw [List.nil_append, Json.readExponent]
      · rfl
      · rintro _ he
        exact hc (by simp [(List.cons.inj he).1])
      · rintro _ he
        exact hc (by simp [(List.cons.inj he).1])
  · have hdrop := dropDigits?_append hd fun c hc => (hrest c hc).1
    simp only [List.mem_cons, List.not_mem_nil, or_false] at he
    rcases he with rfl | rfl <;>
      (rw [List.cons_append, List.append_assoc, Json.readExponent, dropSign_append hs hd, hdrop]
       rfl)

/-- What an exponent begins with. -/
theorem Exponent.head {e rest : List Char} (h : Exponent e) (hrest : Stops rest) :
    ∀ c ∈ (e ++ rest).head?, c.isDigit = false ∧ c ≠ '.' := by
  rcases h with _ | ⟨he, -, -⟩
  · intro c hc
    obtain ⟨hdigit, hmem⟩ := hrest c hc
    exact ⟨hdigit, fun hdot => hmem (by simp [hdot])⟩
  · simp only [List.mem_cons, List.not_mem_nil, or_false] at he
    rcases he with rfl | rfl <;> simp

/-- What a fraction and an exponent begin with. -/
theorem Fraction.head {f rest : List Char} (h : Fraction f)
    (hrest : ∀ c ∈ rest.head?, c.isDigit = false ∧ c ≠ '.') :
    ∀ c ∈ (f ++ rest).head?, c.isDigit = false := by
  rcases h with _ | _
  · exact fun c hc => (hrest c hc).1
  · simp

/-- The token of a number after its sign. -/
def numberToken (signed : Bool) (w f e : List Char) : Token :=
  if signed || !f.isEmpty || !e.isEmpty then .number else .natural (Nat.ofDigitChars 10 w 0)

/-- A number is read part by part, up to where it stops. -/
theorem readNumber_append {w f e rest : List Char} (hw : Whole w) (hf : Fraction f)
    (he : Exponent e) (hrest : Stops rest) (signed : Bool) :
    readNumber signed (w ++ (f ++ (e ++ rest))) = some (numberToken signed w f e, rest) := by
  have hexp := he.head hrest
  have hread : readExponent (e ++ rest) = some (!e.isEmpty, rest) := he.readExponent fun c hc =>
    ⟨(hrest c hc).1, fun hmem => (hrest c hc).2 (List.mem_cons_of_mem _ hmem)⟩
  rw [readNumber, hw.readWhole (hf.head hexp)]
  simp only [Option.bind_eq_bind, Option.bind_some]
  rw [hf.readFraction hexp]
  simp only [Option.bind_some]
  rw [hread]
  rfl

/-- There are ten digits. -/
theorem mem_digits_of_isDigit {c : Char} (h : c.isDigit = true) : c ∈ "0123456789".toList := by
  simp only [Char.isDigit, Bool.and_eq_true, decide_eq_true_eq, ge_iff_le, UInt32.le_iff_toNat_le]
    at h
  obtain ⟨hlow, hhigh⟩ := h
  change 48 ≤ c.toNat at hlow
  change c.toNat ≤ 57 at hhigh
  rw [← Char.ofNat_toNat c]
  generalize c.toNat = n at *
  interval_cases n <;> decide

/-- A token that begins with a digit is a number with no sign. -/
theorem next_of_isDigit {c : Char} (h : c.isDigit = true) (cs : List Char) :
    next (c :: cs) = readNumber false (c :: cs) := by
  have hc := mem_digits_of_isDigit h
  simp only [String.reduceToList, List.mem_cons, List.not_mem_nil, or_false] at hc
  rcases hc with rfl | rfl | rfl | rfl | rfl | rfl | rfl | rfl | rfl | rfl <;> rfl

/-- A whole number is written in digits. -/
theorem Whole.digits {w : List Char} (h : Whole w) : Digits w := by
  rcases h with rfl | ⟨hd, -⟩
  · exact ⟨by simp, by simp⟩
  · exact hd

/-- What begins with a whole number is read as a number. -/
theorem Whole.next {w : List Char} (h : Whole w) (rest : List Char) :
    next (w ++ rest) = readNumber false (w ++ rest) := by
  obtain ⟨hne, hdigit⟩ := h.digits
  rcases w with _ | ⟨d, ds⟩
  · exact absurd rfl hne
  · exact next_of_isDigit (hdigit d (by simp)) _

/-- A plain natural number is one token, which carries its value. -/
theorem Whole.lexes {w : List Char} (h : Whole w) :
    Lexes w [.natural (Nat.ofDigitChars 10 w 0)] := by
  refine .of_next fun rest hrest => ?_
  rw [h.next]
  simpa [numberToken] using readNumber_append h .none .none hrest false

/-- A number is one token, and one that carries no value unless the number is a plain natural
number. -/
theorem Number.lexes {cs : List Char} (h : Number cs) :
    Whole cs ∨ Lexes cs [.number] := by
  rcases h with @⟨sign, w, f, e, hs, hw, hf, he⟩
  simp only [List.mem_cons, List.not_mem_nil, or_false] at hs
  rcases hs with rfl | rfl
  · by_cases hmore : f ≠ [] ∨ e ≠ []
    · right
      refine .of_next fun rest hrest => ?_
      simp only [List.nil_append, List.append_assoc]
      rw [hw.next, readNumber_append hw hf he hrest, numberToken, if_pos (by simpa using hmore)]
    · left
      obtain ⟨rfl, rfl⟩ : f = [] ∧ e = [] := by simpa [not_or] using hmore
      simpa using hw
  · right
    refine .of_next fun rest hrest => ?_
    simp only [List.cons_append, List.nil_append, List.append_assoc]
    exact readNumber_append hw hf he hrest true

end Settle.Json
