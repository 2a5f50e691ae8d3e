import Settle.Proofs.Json.Lexing
import Settle.Proofs.Json.Printing

/-!
# Printing loses nothing

A document can be had back from either printed form. In the compact form each part shows where it
ends: the first character tells which kind of document comes (`Document.kind_eq_of_append`), a text
ends at its closing quote, which no escape can be mistaken for, and a number ends where no further
digit comes. So two documents whose compact forms begin the same text are the same, and so are the
texts behind them (`compact_append_inj`).

The indented form is the compact form with blanks put in between. Taking the blanks out again is
the work of `withoutBlanks`, which goes through a text once and has to know only whether it is
inside quotes. Nothing that stands between quotes is touched, whatever is written there.

Main statements: `compactText_injective`, `prettyText_injective` and `withoutBlanks_prettyText`.
-/

namespace Settle.Json

variable {r r' : List Char}

/-! ## Where texts and numbers end -/

/-- A text in quotes is known from the text that it begins. -/
theorem quoted_append_inj {cs cs' : List Char} (h : quoted cs ++ r = quoted cs' ++ r') :
    cs = cs' ∧ r = r' := by
  obtain ⟨ps, hps, hread⟩ := (spells_flatMap_escape cs).readText
  obtain ⟨ps', hps', hread'⟩ := (spells_flatMap_escape cs').readText
  have hbody : cs.flatMap escape ++ '"' :: r = cs'.flatMap escape ++ '"' :: r' := by
    simpa [quoted] using h
  have hsame := hread r
  rw [hbody, hread' r', Option.some.injEq, Prod.mk.injEq] at hsame
  obtain ⟨rfl, rfl⟩ := hsame
  exact ⟨Option.some.inj (hps.symm.trans hps'), rfl⟩

/-- A number is known from the text that it begins, if no digit follows. -/
theorem toDigits_append_inj {n n' : Nat} (hr : Stops r) (hr' : Stops r')
    (h : Nat.toDigits 10 n ++ r = Nat.toDigits 10 n' ++ r') : n = n' ∧ r = r' := by
  have hread := (whole_toDigits n).readWhole fun c hc => (hr c hc).1
  have hread' := (whole_toDigits n').readWhole fun c hc => (hr' c hc).1
  rw [Nat.ofDigitChars_toDigits (by decide) (by decide)] at hread hread'
  rw [h, hread', Option.some.injEq, Prod.mk.injEq] at hread
  exact ⟨hread.1.symm, hread.2.symm⟩

namespace Document

/-- A truth value is known from the text that it begins. -/
theorem boolText_append_inj {b b' : Bool} (h : boolText b ++ r = boolText b' ++ r') :
    b = b' ∧ r = r' := by
  cases b <;> cases b' <;> simp_all [boolText]

/-! ## What the first character tells -/

/-- The kinds of documents. -/
inductive Kind where
  /-- The absent value. -/
  | null
  /-- A truth value. -/
  | bool
  /-- A natural number. -/
  | number
  /-- A text. -/
  | text
  /-- An object. -/
  | object
deriving DecidableEq

/-- The kind of a document. -/
def kind : Document → Kind
  | .null => .null
  | .bool _ => .bool
  | .number _ => .number
  | .text _ => .text
  | .object _ => .object

/-- The kind of the document that is printed with the given first character. -/
def kindOf (c : Char) : Kind :=
  if c = 'n' then .null
  else if c.isDigit then .number
  else if c = '"' then .text
  else if c = '{' then .object
  else .bool

/-- What begins with a digit is a number. -/
theorem kindOf_digit {c : Char} (h : c.isDigit = true) : kindOf c = .number := by
  have hn : c ≠ 'n' := by
    rintro rfl
    exact absurd h (by decide)
  rw [kindOf, if_neg hn, if_pos h]

/-- The first character tells the kind. -/
theorem exists_compact_eq_cons (d : Document) : ∃ c cs, d.compact = c :: cs ∧ kindOf c = d.kind := by
  cases d with
  | null => exact ⟨'n', _, rfl, rfl⟩
  | bool b => cases b <;> exact ⟨_, _, rfl, rfl⟩
  | number n =>
    have hdigits := (whole_toDigits n).digits
    obtain ⟨c, cs, hcs⟩ := List.exists_cons_of_ne_nil hdigits.1
    exact ⟨c, cs, hcs, kindOf_digit (hdigits.2 c (hcs ▸ List.mem_cons_self))⟩
  | text s => exact ⟨'"', _, rfl, rfl⟩
  | object members => exact ⟨'{', _, rfl, rfl⟩

/-- Documents that begin the same text are of the same kind. -/
theorem kind_eq_of_append {d d' : Document} (h : d.compact ++ r = d'.compact ++ r') :
    d.kind = d'.kind := by
  obtain ⟨c, cs, hcs, hkind⟩ := d.exists_compact_eq_cons
  obtain ⟨c', cs', hcs', hkind'⟩ := d'.exists_compact_eq_cons
  rw [hcs, hcs', List.cons_append, List.cons_append, List.cons.injEq] at h
  rw [← hkind, ← hkind', h.1]

/-! ## Documents are known from the texts that they begin -/

/-- What follows a member is a comma or the closing brace. -/
theorem stops_compactMembers (ms : List (String × Document)) (r : List Char) :
    Stops (compactMembers [','] ms ++ '}' :: r) := by
  cases ms with
  | nil => exact .cons (by decide) _
  | cons m ms => exact .cons (by decide) _

/-- Before the closing brace there are no members left. -/
theorem compactMembers_cons_ne {m : String × Document} {ms : List (String × Document)}
    {lead : List Char} (hlead : lead ∈ [[], [',']]) :
    compactMembers lead (m :: ms) ++ r ≠ '}' :: r' := by
  simp only [List.mem_cons, List.not_mem_nil, or_false] at hlead
  rcases hlead with rfl | rfl
  · exact fun h => absurd (List.cons.inj h).1 (by decide)
  · exact fun h => absurd (List.cons.inj h).1 (by decide)

mutual

/-- A document is known from the text that its compact form begins. -/
theorem compact_append_inj : (d d' : Document) → {r r' : List Char} → Stops r → Stops r' →
    d.compact ++ r = d'.compact ++ r' → d = d' ∧ r = r'
  | .null, d', _, _, _, _, h => by
    cases d' with
    | null => exact ⟨rfl, List.append_cancel_left h⟩
    | _ => cases kind_eq_of_append h
  | .bool b, d', _, _, _, _, h => by
    cases d' with
    | bool b' => exact (boolText_append_inj h).imp_left (congrArg bool)
    | _ => cases kind_eq_of_append h
  | .number n, d', _, _, hr, hr', h => by
    cases d' with
    | number n' => exact (toDigits_append_inj hr hr' h).imp_left (congrArg number)
    | _ => cases kind_eq_of_append h
  | .text s, d', _, _, _, _, h => by
    cases d' with
    | text s' =>
      obtain ⟨hs, rfl⟩ := quoted_append_inj h
      exact ⟨congrArg text (String.toList_inj.mp hs), rfl⟩
    | _ => cases kind_eq_of_append h
  | .object ms, d', r, r', _, _, h => by
    cases d' with
    | object ms' =>
      have hms : compactMembers [] ms ++ '}' :: r = compactMembers [] ms' ++ '}' :: r' := by
        simpa [compact] using h
      exact (compactMembers_append_inj ms ms' (by simp) hms).imp_left (congrArg object)
    | _ => cases kind_eq_of_append h

/-- Members are known from the text that they and the closing brace begin. -/
theorem compactMembers_append_inj : (ms ms' : List (String × Document)) →
    {lead r r' : List Char} → lead ∈ [[], [',']] →
    compactMembers lead ms ++ '}' :: r = compactMembers lead ms' ++ '}' :: r' →
      ms = ms' ∧ r = r'
  | [], [], _, _, _, _, h => ⟨rfl, (List.cons.inj h).2⟩
  | [], _ :: _, _, _, _, hlead, h => absurd h.symm (compactMembers_cons_ne hlead)
  | _ :: _, [], _, _, _, hlead, h => absurd h (compactMembers_cons_ne hlead)
  | (key, value) :: ms, (key', value') :: ms', lead, r, r', _, h => by
    simp only [compactMembers, List.append_assoc, List.cons_append] at h
    obtain ⟨hkey, htail⟩ := quoted_append_inj (List.append_cancel_left h)
    obtain ⟨rfl, hrest⟩ := compact_append_inj value value' (stops_compactMembers ms r)
      (stops_compactMembers ms' r') (List.cons.inj htail).2
    obtain ⟨rfl, hr⟩ := compactMembers_append_inj ms ms' (by simp) hrest
    rw [String.toList_inj.mp hkey]
    exact ⟨rfl, hr⟩

end

/-- Documents with the same compact form are the same. -/
theorem compactText_injective : Function.Injective compactText := by
  intro d d' h
  have hchars := congrArg String.toList h
  rw [toList_compactText, toList_compactText] at hchars
  exact (compact_append_inj d d' .nil .nil (congrArg (· ++ []) hchars)).1

end Document

/-! ## Taking out the blanks -/

/-- A text without the blanks that stand outside quotes. The flag says whether the text begins
between quotes; there a backslash keeps the next character from ending them. -/
def withoutBlanks : Bool → List Char → List Char
  | _, [] => []
  | false, c :: cs => if isBlank c then withoutBlanks false cs else c :: withoutBlanks (c == '"') cs
  | true, '\\' :: e :: cs => '\\' :: e :: withoutBlanks true cs
  | true, c :: cs => c :: withoutBlanks (c != '"') cs

/-- Outside quotes a blank is taken out. -/
theorem withoutBlanks_blank {c : Char} (h : isBlank c = true) (cs : List Char) :
    withoutBlanks false (c :: cs) = withoutBlanks false cs := by
  rw [withoutBlanks, if_pos h]

/-- Blanks outside quotes are taken out. -/
theorem Blanks.withoutBlanks {a : List Char} (h : Blanks a) (rest : List Char) :
    withoutBlanks false (a ++ rest) = withoutBlanks false rest := by
  induction a with
  | nil => rfl
  | cons c a ih =>
    rw [List.cons_append, withoutBlanks_blank (isBlank_of_mem (h c List.mem_cons_self)),
      ih fun d hd => h d (List.mem_cons_of_mem c hd)]

/-- Outside quotes, what is neither blank nor a quote is left as it is. -/
theorem withoutBlanks_solid {c : Char} (h : isBlank c = false ∧ c ≠ '"') (cs : List Char) :
    withoutBlanks false (c :: cs) = c :: withoutBlanks false cs := by
  rw [withoutBlanks, h.1, if_neg Bool.false_ne_true, beq_false_of_ne h.2]

/-- A text with neither blanks nor quotes. -/
def Solid (cs : List Char) : Prop := ∀ c ∈ cs, isBlank c = false ∧ c ≠ '"'

/-- Solid texts are tested character by character. -/
instance (cs : List Char) : Decidable (Solid cs) := List.decidableBAll _ cs

/-- What has neither blanks nor quotes is left as it is. -/
theorem Solid.withoutBlanks {a : List Char} (h : Solid a) (rest : List Char) :
    withoutBlanks false (a ++ rest) = a ++ withoutBlanks false rest := by
  induction a with
  | nil => rfl
  | cons c a ih =>
    rw [List.cons_append, withoutBlanks_solid (h c List.mem_cons_self),
      ih fun d hd => h d (List.mem_cons_of_mem c hd), List.cons_append]

/-- Digits are neither blanks nor quotes. -/
theorem Digits.solid {w : List Char} (h : Digits w) : Solid w := by
  intro c hc
  have hdigits : Solid "0123456789".toList := by decide
  exact hdigits c (mem_digits_of_isDigit (h.2 c hc))

/-- Between quotes, what stands for itself is left as it is. -/
theorem withoutBlanks_plain {c : Char} (h : Plain c) (cs : List Char) :
    withoutBlanks true (c :: cs) = c :: withoutBlanks true cs := by
  obtain ⟨-, hquote, hslash⟩ := h
  rw [withoutBlanks, bne_iff_ne.mpr hquote]
  exact fun _ _ he _ => hslash he

/-- A hexadecimal digit is a plain character. -/
theorem HexDigit.plain {c : Char} {n : Nat} (h : HexDigit c n) : Plain c := by
  have hlower : ("0123456789abcdef".toList.all fun c => decide (Plain c)) = true := by decide
  have hupper : ("0123456789ABCDEF".toList.all fun c => decide (Plain c)) = true := by decide
  rw [List.all_eq_true] at hlower hupper
  rcases h with h | h
  · exact of_decide_eq_true (hlower c (List.mem_of_getElem? h))
  · exact of_decide_eq_true (hupper c (List.mem_of_getElem? h))

/-- Hexadecimal digits inside quotes are left as they are. -/
theorem HexFour.withoutBlanks {hex : List Char} {n : Nat} (h : HexFour hex n) (cs : List Char) :
    withoutBlanks true (hex ++ cs) = hex ++ withoutBlanks true cs := by
  obtain ⟨ha, hb, hc, hd⟩ := h
  simp only [List.cons_append, List.nil_append]
  rw [withoutBlanks_plain ha.plain, withoutBlanks_plain hb.plain, withoutBlanks_plain hc.plain,
    withoutBlanks_plain hd.plain]

/-- What may stand between quotes is left as it is, and the closing quote is found. -/
theorem StringBody.withoutBlanks {w : List Char} (h : StringBody w) (rest : List Char) :
    withoutBlanks true (w ++ '"' :: rest) = w ++ '"' :: withoutBlanks false rest := by
  induction h with
  | nil => rfl
  | plain hc _ ih => rw [List.cons_append, withoutBlanks_plain hc, ih, List.cons_append]
  | short _ _ ih =>
    rw [List.cons_append, List.cons_append, Json.withoutBlanks, ih, List.cons_append,
      List.cons_append]
  | unit hn _ ih =>
    rw [List.cons_append, List.cons_append, List.append_assoc, Json.withoutBlanks,
      hn.withoutBlanks, ih, List.cons_append, List.cons_append, List.append_assoc]

/-- A text in quotes is left as it is, whatever it says. -/
theorem withoutBlanks_quoted (cs rest : List Char) :
    withoutBlanks false (quoted cs ++ rest) = quoted cs ++ withoutBlanks false rest := by
  have hbody := (spells_flatMap_escape cs).body.withoutBlanks rest
  simpa [quoted, withoutBlanks, isBlank] using hbody

namespace Document

/-- A truth value is printed without blanks and quotes. -/
theorem solid_boolText (b : Bool) : Solid (boolText b) := by
  cases b <;> decide

mutual

/-- Without its blanks, the indented form of a document is its compact form. -/
theorem withoutBlanks_indented : (depth : Nat) → (d : Document) → (rest : List Char) →
    withoutBlanks false (d.indented depth ++ rest) = d.compact ++ withoutBlanks false rest
  | _, .null, rest => Solid.withoutBlanks (a := "null".toList) (by decide) rest
  | _, .bool b, rest => (solid_boolText b).withoutBlanks rest
  | _, .number n, rest => (whole_toDigits n).digits.solid.withoutBlanks rest
  | _, .text s, rest => withoutBlanks_quoted s.toList rest
  | _, .object [], rest => Solid.withoutBlanks (a := ['{', '}']) (by decide) rest
  | depth, .object (m :: ms), rest => by
    have hms := withoutBlanks_indentedMembers (depth + 1) (m :: ms) [] (by decide)
      (newline depth ++ '}' :: rest)
    rw [(blanks_newline depth).withoutBlanks, withoutBlanks_solid (c := '}') (by decide)] at hms
    simp only [indented, compact, List.cons_append, List.append_assoc, List.nil_append]
    rw [withoutBlanks_solid (by decide), hms]

/-- Without their blanks, the members in the indented form are those in the compact form. -/
theorem withoutBlanks_indentedMembers : (depth : Nat) → (ms : List (String × Document)) →
    (lead : List Char) → Solid lead → (rest : List Char) →
      withoutBlanks false (indentedMembers depth lead ms ++ rest) =
        compactMembers lead ms ++ withoutBlanks false rest
  | _, [], _, _, _ => rfl
  | depth, (key, value) :: ms, lead, hlead, rest => by
    simp only [indentedMembers, compactMembers, List.append_assoc, List.cons_append]
    rw [hlead.withoutBlanks, (blanks_newline depth).withoutBlanks, withoutBlanks_quoted,
      withoutBlanks_solid (c := ':') (by decide)]
    have hvalue := withoutBlanks_indented depth value (indentedMembers depth [','] ms ++ rest)
    rw [withoutBlanks_indentedMembers depth ms [','] (by decide) rest] at hvalue
    rw [withoutBlanks_blank rfl, hvalue]

end

/-- The indented form without its blanks is the compact form. -/
theorem withoutBlanks_prettyText (d : Document) :
    withoutBlanks false d.prettyText.toList = d.compactText.toList := by
  have h := withoutBlanks_indented 0 d []
  rwa [List.append_nil, withoutBlanks, List.append_nil, ← toList_prettyText,
    ← toList_compactText] at h

/-- Each member stands on a line of its own, two columns further in than its object. -/
example :
    (object [("phase", .object [("name", .text "idle")]), ("faults", .number 10),
      ("more", .object [])]).prettyText =
      "\x7b\n  \"phase\": \x7b\n    \"name\": \"idle\"\n  \x7d,\n  \"faults\": 10,\n  " ++
        "\"more\": \x7b\x7d\n\x7d" := by
  cbv

/-- A quote that a text says does not end it, so the blank after it is kept. -/
example :
    withoutBlanks false ((object [("last error", .text "\" \\ \n")]).indented 0) =
      (object [("last error", .text "\" \\ \n")]).compact := by
  decide

/-- Documents with the same indented form are the same. -/
theorem prettyText_injective : Function.Injective prettyText := by
  intro d d' h
  refine compactText_injective (String.toList_inj.mp ?_)
  rw [← withoutBlanks_prettyText, h, withoutBlanks_prettyText]

end Document

end Settle.Json
