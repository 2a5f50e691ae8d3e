import Mathlib.Data.List.TakeWhile
import Settle.Window

/-!
# Blocks of edges

Windowing cuts the edges of a run, in the order in which they come, into consecutive *blocks*, one
for each window. This file is about such cuts alone: instants are natural numbers here, and a block
is the list of the instants of its edges. The window of a block reaches from its first instant to
one window's length later. A block ought to lie in its own window (it is `Late` otherwise), and all
blocks after it ought to lie past that window (`Past`).

Main statements: `cut_flatten` says that blocks of which none is late are those that the reference
windowing `cut` makes of their edges; `counts_iff` says that each block has as many edges as there
are edges in its window exactly when none is late.
-/

namespace Settle

/-- What a report says, in natural numbers. -/
structure Span where
  /-- The instant of the window's first edge. -/
  opened : Nat
  /-- The first instant past the window. -/
  deadline : Nat
  /-- The number of its edges. -/
  edges : Nat
  /-- The number of all edges up to its last one. -/
  total : Nat
deriving DecidableEq, Repr

/-- What a report says. -/
def Report.span (r : Report) : Span :=
  { opened := r.opened.toNat, deadline := r.deadline.toNat, edges := r.edges.toNat,
    total := r.total.toNat }

/-- A report is known from what it says. -/
theorem Report.span_inj {r r' : Report} : r.span = r'.span ↔ r = r' := by
  constructor
  · intro h
    rw [span, span, Span.mk.injEq] at h
    obtain ⟨hopened, hdeadline, hedges, htotal⟩ := h
    rw [UInt64.toNat_inj] at hopened hdeadline hedges htotal
    cases r
    cases r'
    simp only [Report.mk.injEq]
    exact ⟨hopened, hdeadline, hedges, htotal⟩
  · intro h
    rw [h]

namespace Blocks

variable {length : Nat}

/-- Two blocks are added one after the other. -/
theorem append_pair (gs : List (List Nat)) (g h : List Nat) :
    gs ++ [g, h] = gs ++ [g] ++ [h] := by
  rw [List.append_assoc]
  rfl

/-! ## The windows of blocks -/

/-- What the report of a block says, when `n` edges came before it. -/
def spanOf (length n : Nat) (g : List Nat) : Span :=
  { opened := g.headD 0, deadline := g.headD 0 + length, edges := g.length, total := n + g.length }

/-- What the reports of consecutive blocks say, when `n` edges came before them. -/
def spans (length : Nat) : Nat → List (List Nat) → List Span
  | _, [] => []
  | n, g :: gs => spanOf length n g :: spans length (n + g.length) gs

/-- One more block has one more report, which comes last. -/
theorem spans_concat (n : Nat) (gs : List (List Nat)) (g : List Nat) :
    spans length n (gs ++ [g]) =
      spans length n gs ++ [spanOf length (n + gs.flatten.length) g] := by
  induction gs generalizing n with
  | nil => rfl
  | cons x gs ih =>
    rw [List.cons_append, spans, ih, spans, List.flatten_cons, List.length_append, Nat.add_assoc,
      List.cons_append]

/-- What is said of all reports without regard to their totals is said of all blocks. -/
theorem forall_mem_spans_iff {P : Nat → Nat → Nat → Prop} (n : Nat) (gs : List (List Nat)) :
    (∀ s ∈ spans length n gs, P s.opened s.deadline s.edges) ↔
      ∀ g ∈ gs, P (g.headD 0) (g.headD 0 + length) g.length := by
  induction gs generalizing n with
  | nil => exact ⟨fun _ _ h => absurd h List.not_mem_nil, fun _ _ h => absurd h List.not_mem_nil⟩
  | cons g gs ih =>
    rw [spans, List.forall_mem_cons, List.forall_mem_cons, ih]
    exact Iff.rfl

/-- Some edge of a block lies past the block's own window. -/
def Late (length : Nat) (g : List Nat) : Prop :=
  ∃ o ∈ g.head?, ∃ t ∈ g, o + length ≤ t

/-- A block without edges is not late. -/
theorem not_late_nil : ¬ Late length [] := by
  rintro ⟨o, ho, -⟩
  cases ho

/-- The window of a block begins with the block's first edge. -/
theorem late_cons_iff {o : Nat} {os : List Nat} :
    Late length (o :: os) ↔ ∃ t ∈ o :: os, o + length ≤ t := by
  constructor
  · rintro ⟨o', ho, hlate⟩
    rwa [← Option.some.inj ho] at hlate
  · intro hlate
    exact ⟨o, rfl, hlate⟩

/-- A block that is not late lies in its window. -/
theorem not_late_cons_iff {o : Nat} {os : List Nat} :
    ¬ Late length (o :: os) ↔ ∀ t ∈ o :: os, t < o + length := by
  rw [late_cons_iff]
  simp only [not_exists, not_and, Nat.not_le]

/-- All edges of `h` lie past the window of `g`. -/
def Past (length : Nat) (g h : List Nat) : Prop :=
  ∀ o ∈ g.head?, ∀ t ∈ h, o + length ≤ t

/-! ## The reference windowing -/

/-- The blocks of a list of instants: the first one opens a window, which takes all instants that
follow up to its end; the first one after them opens the next window, and so on. -/
def cut (length : Nat) : List Nat → List (List Nat)
  | [] => []
  | o :: ts =>
    (o :: ts.takeWhile fun t => t < o + length) ::
      cut length (ts.dropWhile fun t => t < o + length)
termination_by ts => ts.length
decreasing_by exact Nat.lt_succ_of_le (List.length_dropWhile_le _ _)

/-- The first block is cut off where the second begins. -/
theorem cut_append {o : Nat} {os rest : List Nat} (hinside : ∀ t ∈ os, t < o + length)
    (hpast : ∀ t ∈ rest, o + length ≤ t) :
    cut length (o :: os ++ rest) = (o :: os) :: cut length rest := by
  have htake : rest.takeWhile (fun t => decide (t < o + length)) = [] := by
    cases rest with
    | nil => rfl
    | cons t rest =>
      have ht := hpast t List.mem_cons_self
      rw [List.takeWhile_cons_of_neg]
      simp only [decide_eq_true_eq]
      omega
  have hdrop : rest.dropWhile (fun t => decide (t < o + length)) = rest := by
    have h := List.takeWhile_append_dropWhile (p := fun t => decide (t < o + length)) (l := rest)
    rwa [htake, List.nil_append] at h
  have hall : ∀ t ∈ os, decide (t < o + length) = true :=
    fun t ht => decide_eq_true (hinside t ht)
  rw [List.cons_append, cut, List.takeWhile_append_of_pos hall, List.dropWhile_append_of_pos hall,
    htake, hdrop, List.append_nil]

/-- **The reference windowing is the only one.** Blocks of which none is late, each past the windows
of those before it, are the blocks that the reference windowing makes of their edges. -/
theorem cut_flatten {gs : List (List Nat)} (hnonempty : [] ∉ gs)
    (hpast : gs.Pairwise (Past length)) (hprompt : ∀ g ∈ gs, ¬ Late length g) :
    cut length gs.flatten = gs := by
  induction gs with
  | nil => rw [List.flatten_nil, cut]
  | cons g gs ih =>
    rw [List.mem_cons, not_or] at hnonempty
    rw [List.pairwise_cons] at hpast
    rw [List.forall_mem_cons] at hprompt
    cases g with
    | nil => exact absurd rfl hnonempty.1
    | cons o os =>
      have hinside : ∀ t ∈ os, t < o + length :=
        fun t ht => not_late_cons_iff.mp hprompt.1 t (List.mem_cons_of_mem o ht)
      have hrest : ∀ t ∈ gs.flatten, o + length ≤ t := by
        intro t ht
        obtain ⟨h, hh, ht⟩ := List.mem_flatten.mp ht
        exact hpast.1 h hh o rfl t ht
      rw [List.flatten_cons, cut_append hinside hrest, ih hnonempty.2 hpast.2 hprompt.2]

/-! ## Counting the edges in a window -/

/-- Whether an instant lies in the window of the given length that opens at `o`. -/
def inWindow (length o t : Nat) : Bool := decide (o ≤ t ∧ t < o + length)

/-- A block has as many edges as there are in its window just when it lies in its window, if the
edges before it come before the window and those after it past the window. -/
theorem countP_inWindow_eq_iff {pre g post : List Nat} {o : Nat} (hpre : ∀ t ∈ pre, t < o)
    (hg : ∀ t ∈ g, o ≤ t) (hpost : ∀ t ∈ post, o + length ≤ t) :
    (pre ++ g ++ post).countP (inWindow length o) = g.length ↔ ∀ t ∈ g, t < o + length := by
  have hpreZero : pre.countP (inWindow length o) = 0 := by
    rw [List.countP_eq_zero]
    intro t ht
    have := hpre t ht
    simp only [inWindow, decide_eq_true_eq]
    omega
  have hpostZero : post.countP (inWindow length o) = 0 := by
    rw [List.countP_eq_zero]
    intro t ht
    have := hpost t ht
    simp only [inWindow, decide_eq_true_eq]
    omega
  rw [List.countP_append, List.countP_append, hpreZero, hpostZero, Nat.zero_add, Nat.add_zero,
    List.countP_eq_length]
  constructor
  · intro h t ht
    exact (of_decide_eq_true (h t ht)).2
  · intro h t ht
    exact decide_eq_true ⟨hg t ht, h t ht⟩

/-- Among blocks in the order of time, each has as many edges as there are in its window exactly
when none is late. One late block is enough to spoil a count, but a later block may be right by
accident: it may have as many edges too many as the late block took from its window. -/
theorem counts_iff (pre : List Nat) {post : List Nat} {gs : List (List Nat)}
    (hnonempty : [] ∉ gs) (hsorted : gs.flatten.Pairwise (· ≤ ·))
    (hpast : gs.Pairwise (Past length))
    (hpre : ∀ g ∈ gs, ∀ o ∈ g.head?, ∀ t ∈ pre, t < o) (hpost : ∀ g ∈ gs, Past length g post) :
    (∀ g ∈ gs,
        (pre ++ gs.flatten ++ post).countP (inWindow length (g.headD 0)) = g.length) ↔
      ∀ g ∈ gs, ¬ Late length g := by
  induction gs generalizing pre with
  | nil => exact ⟨fun _ _ h => absurd h List.not_mem_nil, fun _ _ h => absurd h List.not_mem_nil⟩
  | cons g gs ih =>
    rw [List.mem_cons, not_or] at hnonempty
    rw [List.pairwise_cons] at hpast
    rw [List.flatten_cons, List.pairwise_append] at hsorted
    rw [List.forall_mem_cons] at hpre hpost
    cases g with
    | nil => exact absurd rfl hnonempty.1
    | cons o os =>
      have hafter : ∀ t ∈ gs.flatten ++ post, o + length ≤ t := by
        intro t ht
        rcases List.mem_append.mp ht with ht | ht
        · obtain ⟨h, hh, ht⟩ := List.mem_flatten.mp ht
          exact hpast.1 h hh o rfl t ht
        · exact hpost.1 o rfl t ht
      have hinside : ∀ t ∈ o :: os, o ≤ t := by
        intro t ht
        rcases List.mem_cons.mp ht with rfl | ht
        · exact Nat.le_refl _
        · exact List.rel_of_pairwise_cons hsorted.1 ht
      have hfirst := countP_inWindow_eq_iff (hpre.1 o rfl) hinside hafter
      have hshift : pre ++ ((o :: os) ++ gs.flatten) ++ post =
          pre ++ (o :: os) ++ (gs.flatten ++ post) := by simp only [List.append_assoc]
      rw [List.forall_mem_cons, List.forall_mem_cons, List.flatten_cons, hshift, List.headD_cons,
        hfirst, not_late_cons_iff]
      -- Once the first block is known not to be late, it lies before the windows of all others.
      refine and_congr_right fun hprompt => ?_
      rw [← List.append_assoc]
      refine ih _ hnonempty.2 hsorted.2.1 hpast.2 ?_ hpost.2
      intro h hh o' ho t ht
      rcases List.mem_append.mp ht with ht | ht
      · exact hpre.2 h hh o' ho t ht
      · exact Nat.lt_of_lt_of_le (hprompt t ht)
          (hpast.1 h hh o rfl o' (List.mem_of_mem_head? ho))

/-! ## Blocks that grow -/

/-- The edges `ts` in blocks, each past the windows of those before it, with the first instants of
the late ones. -/
structure Grouped (length : Nat) (ts late : List Nat) (gs : List (List Nat)) : Prop where
  /-- The blocks are made of the edges, in their order. -/
  flatten : gs.flatten = ts
  /-- Each block lies past the windows of those before it. -/
  past : gs.Pairwise (Past length)
  /-- The late blocks are known by their first instants. -/
  mem_late_iff : ∀ f, f ∈ late ↔ ∃ g ∈ gs, f ∈ g.head? ∧ Late length g

variable {ts late : List Nat} {gs : List (List Nat)}

/-- Without edges there are no blocks. -/
theorem grouped_nil : Grouped length [] [] [] where
  flatten := rfl
  past := .nil
  mem_late_iff f := by simp

/-- Empty blocks do not count. -/
theorem Grouped.concat_nil (h : Grouped length ts late gs) :
    Grouped length ts late (gs ++ [[]]) where
  flatten := by rw [List.flatten_append, h.flatten, List.flatten_singleton, List.append_nil]
  past := by
    refine List.pairwise_append.mpr ⟨h.past, List.pairwise_singleton _ _, ?_⟩
    intro g _ e he o _ t ht
    rw [List.mem_singleton.mp he] at ht
    exact absurd ht List.not_mem_nil
  mem_late_iff f := by
    rw [h.mem_late_iff]
    simp [not_late_nil]

/-- The last block of a list is empty and does not count. -/
theorem Grouped.of_concat_nil (h : Grouped length ts late (gs ++ [[]])) :
    Grouped length ts late gs where
  flatten := by
    have hflatten := h.flatten
    rwa [List.flatten_append, List.flatten_singleton, List.append_nil] at hflatten
  past := (List.pairwise_append.mp h.past).1
  mem_late_iff f := by
    rw [h.mem_late_iff]
    simp [not_late_nil]

/-- An edge is late for the last block if it comes past the block's window. -/
theorem late_concat_iff (hpositive : 0 < length) {g : List Nat} {t f : Nat} :
    f ∈ (g ++ [t]).head? ∧ Late length (g ++ [t]) ↔
      (f ∈ g.head? ∧ Late length g) ∨ f ∈ g.head?.filter fun o => o + length ≤ t := by
  cases g with
  | nil =>
    rw [List.nil_append]
    constructor
    · rintro ⟨-, o, ho, t', ht', hlate⟩
      rw [← Option.some.inj ho, List.mem_singleton.mp ht'] at hlate
      omega
    · rintro (⟨hf, -⟩ | hf) <;> cases hf
  | cons o os =>
    rw [List.cons_append, List.head?_cons, List.head?_cons, late_cons_iff, late_cons_iff]
    simp only [Option.mem_def, Option.some.injEq, Option.filter_eq_some_iff, decide_eq_true_eq,
      ← List.cons_append, List.mem_append, List.mem_singleton, or_and_right, exists_or,
      exists_eq_left]
    constructor
    · rintro ⟨rfl, hlate | hlate⟩
      · exact .inl ⟨rfl, hlate⟩
      · exact .inr ⟨rfl, hlate⟩
    · rintro (⟨rfl, hlate⟩ | ⟨rfl, hlate⟩)
      · exact ⟨rfl, .inl hlate⟩
      · exact ⟨rfl, .inr hlate⟩

/-- One more edge `t` goes to the last block. -/
theorem Grouped.put {g : List Nat} {t : Nat} (h : Grouped length ts late (gs ++ [g]))
    (hpositive : 0 < length) (hpast : ∀ h ∈ gs, Past length h [t]) :
    Grouped length (ts ++ [t]) (late ++ (g.head?.filter fun o => o + length ≤ t).toList)
      (gs ++ [g ++ [t]]) where
  flatten := by
    rw [← h.flatten, List.flatten_append, List.flatten_append, List.flatten_singleton,
      List.flatten_singleton, List.append_assoc]
  past := by
    obtain ⟨hgs, -, hg⟩ := List.pairwise_append.mp h.past
    refine List.pairwise_append.mpr ⟨hgs, List.pairwise_singleton _ _, ?_⟩
    intro k hk e he o ho t' ht'
    rw [List.mem_singleton.mp he] at ht'
    rcases List.mem_append.mp ht' with ht' | ht'
    · exact hg k hk g (List.mem_singleton_self g) o ho t' ht'
    · exact hpast k hk o ho t' ht'
  mem_late_iff f := by
    rw [List.mem_append, h.mem_late_iff]
    simp only [List.mem_append, List.mem_singleton, or_and_right, exists_or, exists_eq_left,
      late_concat_iff hpositive, Option.mem_toList, or_assoc]
    exact Iff.rfl

/-- Blocks are told apart by their first instants. -/
theorem Grouped.mem_late_iff_late (h : Grouped length ts late gs) (hpositive : 0 < length)
    {g : List Nat} (hg : g ∈ gs) {f : Nat} (hf : f ∈ g.head?) : f ∈ late ↔ Late length g := by
  rw [h.mem_late_iff]
  constructor
  · rintro ⟨k, hk, hfk, hlate⟩
    have heq : g = k := by
      obtain ⟨i, hi, rfl⟩ := List.getElem_of_mem hg
      obtain ⟨j, hj, rfl⟩ := List.getElem_of_mem hk
      have hpast := List.pairwise_iff_getElem.mp h.past
      rcases Nat.lt_trichotomy i j with hij | rfl | hij
      · have := hpast i j hi hj hij f hf f (List.mem_of_mem_head? hfk)
        omega
      · rfl
      · have := hpast j i hj hi hij f hfk f (List.mem_of_mem_head? hf)
        omega
    rw [heq]
    exact hlate
  · intro hlate
    exact ⟨g, hg, hf, hlate⟩

end Blocks

end Settle
