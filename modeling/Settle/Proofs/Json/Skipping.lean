import Settle.Json.Skip
import Settle.Proofs.Json.Lexing

/-!
# Every value can be passed over

A value of any kind and depth, cut into tokens, is passed over whole and nothing after it is
(`Grammar.skips`). The three parts of the grammar refer to each other, so the statement is about all
of them: a part is passed over from the place at which it begins to the place at which it is
complete, whatever brackets are open around it and whatever follows. The open brackets are what
carries the induction: under a bracket, the elements of an array are just values with one more
bracket around them.
-/

namespace Settle.Json

/-! ## Single steps -/

/-- A value that is not complete goes on with the next token. -/
theorem skipFrom_cons {p q : Place} {t : Token} (hp : p.isComplete = false)
    (h : p.step t = some q) (ts : List Token) : skipFrom p (t :: ts) = skipFrom q ts := by
  simp [skipFrom, hp, h]

/-- A complete value leaves the tokens that follow. -/
theorem skipFrom_of_isComplete {p : Place} (hp : p.isComplete = true) (ts : List Token) :
    skipFrom p ts = some ts := by
  rcases ts with _ | ⟨t, ts⟩ <;> simp [skipFrom, hp]

/-- A value that has not begun is not complete. -/
theorem isComplete_value (stack : List Bracket) : (Place.mk stack .value).isComplete = false := by
  simp [Place.isComplete]

/-! ## Parts of the grammar -/

/-- The bracket that is open around a part of the grammar, if there must be one. -/
def Part.brackets : Part → List Bracket
  | .value => []
  | .elements => [.array]
  | .members => [.object]

/-- What a part of the grammar begins with. -/
def Part.expect : Part → Expect
  | .value => .value
  | .elements => .value
  | .members => .key

/-- What stands within a bracket, unless there is nothing. -/
def Bracket.inside : Bracket → Part
  | .array => .elements
  | .object => .members

/-- What may come right after a bracket was opened. -/
def Bracket.first : Bracket → Expect
  | .array => .valueOrClose
  | .object => .keyOrClose

/-- The token that opens a bracket. -/
def Bracket.opening : Bracket → Token
  | .array => .openArray
  | .object => .openObject

/-- The token that closes a bracket. -/
def Bracket.closing : Bracket → Token
  | .array => .closeArray
  | .object => .closeObject

/-- The tokens `ts` are passed over as one part of the grammar, wherever they stand. -/
def Skips (p : Part) (ts : List Token) : Prop :=
  ∀ stack rest, skipFrom ⟨p.brackets ++ stack, p.expect⟩ (ts ++ rest)
    = skipFrom ⟨p.brackets ++ stack, .after⟩ rest

/-- Passing over the tokens of a value takes all of them and no more. -/
theorem Skips.skipValue {ts : List Token} (h : Skips .value ts) (rest : List Token) :
    skipValue (ts ++ rest) = some rest :=
  (h [] rest).trans (skipFrom_of_isComplete rfl rest)

/-- A token that is a value by itself is skipped as one. -/
theorem skips_token {t : Token} (h : ∀ stack, Place.enter stack t = some ⟨stack, .after⟩) :
    Skips .value [t] :=
  fun stack rest => skipFrom_cons (isComplete_value stack) (h stack) rest

section
variable {ts us : List Token}

/-- What stands within a bracket does not begin with the end of it, so it makes no difference
whether it may end at once. -/
theorem Skips.first {b : Bracket} (h : Skips b.inside ts) (stack : List Bracket)
    (rest : List Token) : skipFrom ⟨b :: stack, b.first⟩ (ts ++ rest)
      = skipFrom ⟨b :: stack, .after⟩ rest := by
  -- Were the end of the bracket their first token, it would be read where a value or a key must
  -- come, and what is passed over would not be complete.
  have hend := h [] [b.closing]
  rcases ts with _ | ⟨t, ts⟩
  · rcases b <;> cases hend
  · by_cases ht : t = b.closing
    · subst ht
      rcases b <;> cases hend
    · rcases b
      · refine Eq.trans ?_ (h stack rest)
        rcases t <;> first | rfl | exact absurd rfl ht
      · refine Eq.trans ?_ (h stack rest)
        rcases t <;> first | rfl | exact absurd rfl ht

/-- Brackets with nothing between them are skipped as a value. -/
theorem skips_empty (b : Bracket) : Skips .value [b.opening, b.closing] := by
  intro stack rest
  rcases b
  · exact (skipFrom_cons (isComplete_value stack) rfl _).trans (skipFrom_cons rfl rfl rest)
  · exact (skipFrom_cons (isComplete_value stack) rfl _).trans (skipFrom_cons rfl rfl rest)

/-- What can be passed over within a bracket is passed over along with the bracket. -/
theorem Skips.within {b : Bracket} (h : Skips b.inside ts) :
    Skips .value (b.opening :: (ts ++ [b.closing])) := by
  intro stack rest
  have henter : (Place.mk stack .value).step b.opening = some ⟨b :: stack, b.first⟩ := by
    rcases b <;> rfl
  have hleave : (Place.mk (b :: stack) .after).step b.closing = some ⟨stack, .after⟩ := by
    rcases b <;> rfl
  calc skipFrom ⟨stack, .value⟩ (b.opening :: (ts ++ [b.closing] ++ rest))
    _ = skipFrom ⟨b :: stack, b.first⟩ (ts ++ ([b.closing] ++ rest)) := by
      rw [skipFrom_cons (isComplete_value stack) henter, List.append_assoc]
    _ = skipFrom ⟨b :: stack, .after⟩ (b.closing :: rest) := h.first stack _
    _ = skipFrom ⟨stack, .after⟩ rest := skipFrom_cons rfl hleave rest

/-- A value is an element. -/
theorem Skips.lastElement (h : Skips .value ts) : Skips .elements ts :=
  fun stack rest => h (.array :: stack) rest

/-- An element is skipped with the comma and the elements after it. -/
theorem Skips.element (h : Skips .value ts) (hrest : Skips .elements us) :
    Skips .elements (ts ++ .comma :: us) := by
  intro stack rest
  rw [List.append_assoc]
  calc skipFrom ⟨.array :: stack, .value⟩ (ts ++ (.comma :: us ++ rest))
    _ = skipFrom ⟨.array :: stack, .after⟩ (.comma :: (us ++ rest)) := h (.array :: stack) _
    _ = skipFrom ⟨.array :: stack, .value⟩ (us ++ rest) := skipFrom_cons rfl rfl _
    _ = _ := hrest stack rest

/-- The last member is skipped with its key. -/
theorem Skips.lastMember (ps : List Piece) (h : Skips .value ts) :
    Skips .members (.text ps :: .colon :: ts) := by
  intro stack rest
  calc skipFrom ⟨.object :: stack, .key⟩ (.text ps :: .colon :: (ts ++ rest))
    _ = skipFrom ⟨.object :: stack, .colon⟩ (.colon :: (ts ++ rest)) := skipFrom_cons rfl rfl _
    _ = skipFrom ⟨.object :: stack, .value⟩ (ts ++ rest) := skipFrom_cons rfl rfl _
    _ = _ := h (.object :: stack) rest

/-- A member is skipped with the comma and the members after it. -/
theorem Skips.member (h : Skips .members ts) (hrest : Skips .members us) :
    Skips .members (ts ++ .comma :: us) := by
  intro stack rest
  rw [List.append_assoc]
  calc skipFrom ⟨.object :: stack, .key⟩ (ts ++ (.comma :: us ++ rest))
    _ = skipFrom ⟨.object :: stack, .after⟩ (.comma :: (us ++ rest)) := h stack _
    _ = skipFrom ⟨.object :: stack, .key⟩ (us ++ rest) := skipFrom_cons rfl rfl _
    _ = _ := hrest stack rest

end

/-! ## All of the grammar -/

/-- A number lexes to something that is skipped as a value. -/
theorem Number.skips {cs : List Char} (h : Number cs) :
    ∃ ts, Lexes cs ts ∧ Skips .value ts := by
  rcases h.lexes with hw | hn
  · exact ⟨_, hw.lexes, skips_token fun _ => rfl⟩
  · exact ⟨_, hn, skips_token fun _ => rfl⟩

/-- Every part of the grammar is cut into tokens that are passed over as that part. -/
theorem Grammar.skips {p : Part} {cs : List Char} (h : Grammar p cs) :
    ∃ ts, Lexes cs ts ∧ Skips p ts := by
  induction h with
  | word hw => exact ⟨_, lexes_word hw, skips_token fun _ => rfl⟩
  | number hn => exact hn.skips
  | text hw =>
    obtain ⟨ps, hps⟩ := hw.lexes
    exact ⟨_, hps, skips_token fun _ => rfl⟩
  | emptyArray ha =>
    exact ⟨_, .punctuation_cons (by decide)
      (ha.lexes.append_punctuation .nil (by decide) Blanks.nil.lexes), skips_empty .array⟩
  | array _ ih =>
    obtain ⟨ts, hl, hs⟩ := ih
    exact ⟨_, .punctuation_cons (by decide)
      (hl.append_punctuation .nil (by decide) Blanks.nil.lexes), Skips.within (b := .array) hs⟩
  | emptyObject ha =>
    exact ⟨_, .punctuation_cons (by decide)
      (ha.lexes.append_punctuation .nil (by decide) Blanks.nil.lexes), skips_empty .object⟩
  | object _ ih =>
    obtain ⟨ts, hl, hs⟩ := ih
    exact ⟨_, .punctuation_cons (by decide)
      (hl.append_punctuation .nil (by decide) Blanks.nil.lexes), Skips.within (b := .object) hs⟩
  | lastElement ha _ hb ih =>
    obtain ⟨ts, hl, hs⟩ := ih
    exact ⟨ts, ha.lexes_append (hl.append_blanks hb), hs.lastElement⟩
  | element ha _ hb _ ihv ihes =>
    obtain ⟨ts, hl, hs⟩ := ihv
    obtain ⟨us, hl', hs'⟩ := ihes
    exact ⟨_, ha.lexes_append (hl.append_punctuation hb (by decide) hl'), hs.element hs'⟩
  | lastMember ha hw hb hc _ hd ih =>
    obtain ⟨ps, hps⟩ := hw.lexes
    obtain ⟨ts, hl, hs⟩ := ih
    exact ⟨_, ha.lexes_append (hps.append_punctuation hb (by decide)
      (hc.lexes_append (hl.append_blanks hd))), hs.lastMember ps⟩
  | member ha hw hb hc _ hd _ ihv ihms =>
    obtain ⟨ps, hps⟩ := hw.lexes
    obtain ⟨ts, hl, hs⟩ := ihv
    obtain ⟨us, hl', hs'⟩ := ihms
    exact ⟨_, ha.lexes_append (hps.append_punctuation hb (by decide)
      (hc.lexes_append (hl.append_punctuation hd (by decide) hl'))),
      (hs.lastMember ps).member hs'⟩

/-- Only a plain natural number is cut into tokens of which the first carries a number. -/
theorem Grammar.whole_of_natural {v : List Char} {ts : List Token} {n : Nat} (h : Value v)
    (hl : Lexes v ts) (hn : ts.head? = some (.natural n)) : Whole v := by
  rcases h with hw | hnum | hw | _ | _ | _ | _
  case word =>
    cases hl.unique (lexes_word hw)
    cases hn
  case number =>
    rcases hnum.lexes with hw | hother
    · exact hw
    · cases hl.unique hother
      cases hn
  case text =>
    obtain ⟨ps, hps⟩ := hw.lexes
    cases hl.unique hps
    cases hn
  case emptyArray | array =>
    rw [hl.head_of_punctuation (t := .openArray) (by decide)] at hn
    cases hn
  case emptyObject | object =>
    rw [hl.head_of_punctuation (t := .openObject) (by decide)] at hn
    cases hn

end Settle.Json
