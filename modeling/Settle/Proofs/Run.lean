import Mathlib.Data.List.Induction
import Settle.Trace

/-!
# Runs of machines

A trace shows a machine from outside, up to its first halt. A *run* is a list of operations that the
machine performed without a halt: `run step s is = .ok (os, t)` says that the operations `is`, one
after the other from state `s`, gave the answers `os` and led to state `t`. A state is reachable
from `s` when it is the last state of such a run, and the list of operations is its history.

Main statements: `run_eq_error_iff` says where a run fails; `run_induction` is induction on the
length of a history, the last operation being the new one, and `run_invariant` is its case for a
property of states alone; `run_filterMap` finds the run of another machine in a run, and `run_view`
says when all runs of two machines are alike; `length_given_le` bounds what a machine gives out by
what is put in.
-/

namespace Settle

/-! ## Computations that may fail -/

section Failing

variable {ε ε' α β : Type}

/-- Two computations in sequence come to something when both do. -/
theorem bind_eq_ok_iff {x : Except ε α} {f : α → Except ε β} {b : β} :
    (x >>= f) = .ok b ↔ ∃ a, x = .ok a ∧ f a = .ok b := by
  cases x with
  | error e => simp [bind, Except.bind]
  | ok a => simp [bind, Except.bind]

/-- Two computations in sequence fail when the first does, or the second after it. -/
theorem bind_eq_error_iff {x : Except ε α} {f : α → Except ε β} {e : ε} :
    (x >>= f) = .error e ↔ x = .error e ∨ ∃ a, x = .ok a ∧ f a = .error e := by
  cases x with
  | error e' => simp [bind, Except.bind]
  | ok a => simp [bind, Except.bind]

/-- What comes next matters only for what came of the first computation. -/
theorem bind_congr_of_ok {x : Except ε α} {f g : α → Except ε β}
    (h : ∀ a, x = .ok a → f a = g a) : x >>= f = x >>= g := by
  cases x with
  | error e => rfl
  | ok a => exact h a rfl

/-- A value that is only returned is the result. -/
theorem pure_eq_ok_iff {a b : α} : (pure a : Except ε α) = .ok b ↔ a = b := by
  simp [pure, Except.pure]

/-- What failures are called does not matter to a result. -/
theorem mapError_eq_ok_iff {x : Except ε α} {f : ε → ε'} {a : α} :
    x.mapError f = .ok a ↔ x = .ok a := by
  cases x with
  | error e => simp [Except.mapError]
  | ok a => simp [Except.mapError]

/-- A result that is changed is the change of a result. -/
theorem map_eq_ok_iff {x : Except ε α} {f : α → β} {b : β} :
    x.map f = .ok b ↔ ∃ a, x = .ok a ∧ f a = b := by
  cases x with
  | error e => simp [Except.map]
  | ok a => simp [Except.map]

end Failing

/-- What is told by a list and one more entry. -/
theorem filterMap_concat {α β : Type} (f : α → Option β) (xs : List α) (x : α) :
    (xs ++ [x]).filterMap f = xs.filterMap f ++ (f x).toList := by
  rw [List.filterMap_append]
  cases h : f x <;> simp [h]

/-! ## Runs -/

section Runs

variable {σ ι ο ε : Type}

/-- The answers to a list of operations and the state after them, or the first halt. -/
def run (step : σ → ι → Except ε (ο × σ)) (s : σ) : List ι → Except ε (List ο × σ)
  | [] => return ([], s)
  | i :: is => do
    let (o, s) ← step s i
    let (os, s) ← run step s is
    return (o :: os, s)

variable {step : σ → ι → Except ε (ο × σ)} {s t : σ} {i : ι} {is js : List ι} {o : ο} {os : List ο}

/-- No operations lead nowhere. -/
@[simp] theorem run_nil : run step s [] = .ok ([], s) := rfl

/-- A run of no operations has no answers and stays where it is. -/
theorem run_nil_eq_ok_iff : run step s [] = .ok (os, t) ↔ os = [] ∧ t = s := by
  rw [run_nil, Except.ok.injEq, Prod.mk.injEq, eq_comm, eq_comm (a := s)]

/-- A run is a first step and a run from where it ends. -/
theorem run_cons_eq_ok_iff :
    run step s (i :: is) = .ok (os, t) ↔
      ∃ o m os', step s i = .ok (o, m) ∧ run step m is = .ok (os', t) ∧ os = o :: os' := by
  simp only [run, bind_eq_ok_iff, pure_eq_ok_iff, Prod.exists, Prod.mk.injEq]
  constructor
  · rintro ⟨o, m, hstep, os', t', hrest, rfl, rfl⟩
    exact ⟨o, m, os', hstep, hrest, rfl⟩
  · rintro ⟨o, m, os', hstep, hrest, rfl⟩
    exact ⟨o, m, hstep, os', t, hrest, rfl, rfl⟩

/-- A run of two lists is a run of the first and, from where it ends, a run of the second. -/
theorem run_append_eq_ok_iff :
    run step s (is ++ js) = .ok (os, t) ↔
      ∃ os₁ m os₂, run step s is = .ok (os₁, m) ∧ run step m js = .ok (os₂, t) ∧
        os = os₁ ++ os₂ := by
  induction is generalizing s os with
  | nil =>
    constructor
    · intro h
      exact ⟨[], s, os, rfl, h, rfl⟩
    · rintro ⟨os₁, m, os₂, hnil, h, rfl⟩
      obtain ⟨rfl, rfl⟩ := run_nil_eq_ok_iff.mp hnil
      exact h
  | cons i is ih =>
    rw [List.cons_append, run_cons_eq_ok_iff]
    constructor
    · rintro ⟨o, m, os', hstep, hrest, rfl⟩
      obtain ⟨os₁, m', os₂, h₁, h₂, rfl⟩ := ih.mp hrest
      exact ⟨o :: os₁, m', os₂, run_cons_eq_ok_iff.mpr ⟨o, m, os₁, hstep, h₁, rfl⟩, h₂, rfl⟩
    · rintro ⟨os₁, m', os₂, h₁, h₂, rfl⟩
      obtain ⟨o, m, os', hstep, hrest, rfl⟩ := run_cons_eq_ok_iff.mp h₁
      exact ⟨o, m, os' ++ os₂, hstep, ih.mpr ⟨os', m', os₂, hrest, h₂, rfl⟩, rfl⟩

/-- A run with one more operation is a run and a step. -/
theorem run_concat_eq_ok_iff :
    run step s (is ++ [i]) = .ok (os, t) ↔
      ∃ os' m o, run step s is = .ok (os', m) ∧ step m i = .ok (o, t) ∧ os = os' ++ [o] := by
  rw [run_append_eq_ok_iff]
  constructor
  · rintro ⟨os₁, m, os₂, h₁, h₂, rfl⟩
    obtain ⟨o, t', os', hstep, hnil, rfl⟩ := run_cons_eq_ok_iff.mp h₂
    obtain ⟨rfl, rfl⟩ := run_nil_eq_ok_iff.mp hnil
    exact ⟨os₁, m, o, h₁, hstep, rfl⟩
  · rintro ⟨os', m, o, h₁, hstep, rfl⟩
    exact ⟨os', m, [o], h₁, run_cons_eq_ok_iff.mpr ⟨o, t, [], hstep, rfl, rfl⟩, rfl⟩

/-- A run fails in its first step or in a later one. -/
theorem run_cons_eq_error_iff {e : ε} :
    run step s (i :: is) = .error e ↔
      step s i = .error e ∨ ∃ o m, step s i = .ok (o, m) ∧ run step m is = .error e := by
  simp only [run, bind_eq_error_iff, Prod.exists]
  refine or_congr Iff.rfl (exists₂_congr fun o m => and_congr_right fun _ => ?_)
  refine ⟨fun h => h.resolve_right ?_, .inl⟩
  rintro ⟨os, t, -, hpure⟩
  cases hpure

/-- A run fails where one of its steps fails, after a run of the operations before it. -/
theorem run_eq_error_iff {e : ε} :
    run step s is = .error e ↔
      ∃ before i after os m, is = before ++ i :: after ∧ run step s before = .ok (os, m) ∧
        step m i = .error e := by
  induction is generalizing s with
  | nil =>
    constructor
    · intro h
      cases h
    · rintro ⟨before, i, after, os, m, heq, -, -⟩
      cases before <;> cases heq
  | cons x is ih =>
    rw [run_cons_eq_error_iff]
    constructor
    · rintro (hfails | ⟨o, m, hstep, hrest⟩)
      · exact ⟨[], x, is, [], s, rfl, rfl, hfails⟩
      · obtain ⟨before, i, after, os, m', rfl, hbefore, hfails⟩ := ih.mp hrest
        exact ⟨x :: before, i, after, o :: os, m', rfl,
          run_cons_eq_ok_iff.mpr ⟨o, m, os, hstep, hbefore, rfl⟩, hfails⟩
    · rintro ⟨before, i, after, os, m, heq, hbefore, hfails⟩
      cases before with
      | nil =>
        obtain ⟨rfl, rfl⟩ := List.cons.inj heq
        obtain ⟨-, rfl⟩ := run_nil_eq_ok_iff.mp hbefore
        exact .inl hfails
      | cons y before =>
        obtain ⟨rfl, rfl⟩ := List.cons.inj heq
        obtain ⟨o, m', os', hstep, hbefore, -⟩ := run_cons_eq_ok_iff.mp hbefore
        exact .inr ⟨o, m', hstep, ih.mpr ⟨before, i, after, os', m, rfl, hbefore, hfails⟩⟩

/-- Induction on a history: what holds of the empty one, and stays true when one more operation is
performed, holds of every history with its answers and its last state. -/
theorem run_induction {P : List ι → List ο → σ → Prop} (start : P [] [] s)
    (next : ∀ is os m i o t, run step s is = .ok (os, m) → P is os m → step m i = .ok (o, t) →
      P (is ++ [i]) (os ++ [o]) t)
    (h : run step s is = .ok (os, t)) : P is os t := by
  -- The list is taken from its end, so the state before the last operation is a reachable one.
  induction is using List.reverseRecOn generalizing os t with
  | nil =>
    obtain ⟨rfl, rfl⟩ := run_nil_eq_ok_iff.mp h
    exact start
  | append_singleton is i ih =>
    obtain ⟨os', m, o, hrun, hstep, rfl⟩ := run_concat_eq_ok_iff.mp h
    exact next is os' m i o t hrun (ih hrun) hstep

/-- What a step preserves, a run preserves. -/
theorem run_invariant {P : σ → Prop} (start : P s)
    (next : ∀ m i o t, P m → step m i = .ok (o, t) → P t)
    (h : run step s is = .ok (os, t)) : P t :=
  run_induction (P := fun _ _ t => P t) start (fun _ _ m i o t _ hm => next m i o t hm) h

/-- What some operations set and all others leave alone is, after a run, what the last of those
operations has set it to. -/
theorem run_latest {β : Type} {x : σ → β} {f : ι → Option β}
    (next : ∀ m i o t, step m i = .ok (o, t) → x t = (f i).getD (x m))
    (h : run step s is = .ok (os, t)) : x t = (is.filterMap f).getLast?.getD (x s) := by
  refine run_induction (P := fun is _ t => x t = (is.filterMap f).getLast?.getD (x s)) rfl ?_ h
  intro is os m i o t _ hm hstep
  rw [filterMap_concat, next m i o t hstep, hm]
  cases hi : f i with
  | none => simp
  | some b => simp

/-- A run gives one answer for each operation. -/
theorem length_of_run (h : run step s is = .ok (os, t)) : os.length = is.length := by
  induction is generalizing s os with
  | nil =>
    obtain ⟨rfl, -⟩ := run_nil_eq_ok_iff.mp h
    rfl
  | cons i is ih =>
    obtain ⟨o, m, os', -, hrest, rfl⟩ := run_cons_eq_ok_iff.mp h
    rw [List.length_cons, List.length_cons, ih hrest]

/-- Each answer of a run was given by one operation, to the state that the operations before it led
to. -/
theorem exists_step_of_run {os' : List ο} (h : run step s is = .ok (os ++ o :: os', t)) :
    ∃ m i m', run step s (is.take os.length) = .ok (os, m) ∧ step m i = .ok (o, m') := by
  induction os generalizing s is with
  | nil =>
    cases is with
    | nil => exact nomatch (run_nil_eq_ok_iff.mp h).1
    | cons i is =>
      obtain ⟨o', m', os₁, hstep, -, heq⟩ := run_cons_eq_ok_iff.mp h
      obtain ⟨rfl, -⟩ := List.cons.inj heq
      exact ⟨s, i, m', rfl, hstep⟩
  | cons x os ih =>
    cases is with
    | nil => exact nomatch (run_nil_eq_ok_iff.mp h).1
    | cons i is =>
      obtain ⟨o', m, os₁, hstep, hrest, heq⟩ := run_cons_eq_ok_iff.mp h
      obtain ⟨rfl, rfl⟩ := List.cons.inj heq
      obtain ⟨m', i', m'', hbefore, hgives⟩ := ih hrest
      exact ⟨m', i', m'', run_cons_eq_ok_iff.mpr ⟨x, m, os, hstep, hbefore, rfl⟩, hgives⟩

/-! ## Runs in a view -/

/-- If each operation is, in a view, one operation of another machine or none at all, then a run is,
in that view, a run of the other machine. -/
theorem run_filterMap {σ' ι' ο' ε' : Type} {step' : σ' → ι' → Except ε' (ο' × σ')} (view : σ → σ')
    {f : ι → Option ι'} {g : ο → Option ο'}
    (hview : ∀ s i o t, step s i = .ok (o, t) → (f i = none ∧ g o = none ∧ view t = view s) ∨
      ∃ i' o', f i = some i' ∧ g o = some o' ∧ step' (view s) i' = .ok (o', view t))
    (h : run step s is = .ok (os, t)) :
    run step' (view s) (is.filterMap f) = .ok (os.filterMap g, view t) := by
  induction is generalizing s os with
  | nil =>
    obtain ⟨rfl, rfl⟩ := run_nil_eq_ok_iff.mp h
    rfl
  | cons i is ih =>
    obtain ⟨o, m, os', hstep, hrest, rfl⟩ := run_cons_eq_ok_iff.mp h
    rcases hview s i o m hstep with ⟨hi, ho, hsame⟩ | ⟨i', o', hi, ho, hstep'⟩
    · rw [List.filterMap_cons_none hi, List.filterMap_cons_none ho, ← hsame]
      exact ih hrest
    · rw [List.filterMap_cons_some hi, List.filterMap_cons_some ho]
      exact run_cons_eq_ok_iff.mpr ⟨o', view m, _, hstep', ih hrest, rfl⟩

/-- If each operation is answered alike, or halts alike, in a view of the machine, then so is each
list of operations. -/
theorem run_view {σ' : Type} {step' : σ' → ι → Except ε (ο × σ')} (view : σ → σ')
    (hview : ∀ s i, step' (view s) i = (fun p => (p.1, view p.2)) <$> step s i) (s : σ)
    (is : List ι) :
    run step' (view s) is = (fun p => (p.1, view p.2)) <$> run step s is := by
  induction is generalizing s with
  | nil => rfl
  | cons i is ih =>
    simp only [run, hview, bind_map_left, map_bind, map_pure]
    refine bind_congr_of_ok fun p _ => ?_
    rw [ih, bind_map_left]

/-! ## Runs and traces -/

/-- The trace of a run with one more operation shows one thing more. -/
theorem trace_concat_of_run (h : run step s is = .ok (os, t)) {m : σ}
    (hstep : step t i = .ok (o, m)) :
    trace step s (is ++ [i]) = trace step s is ++ [.ok (o, m)] := by
  induction is generalizing s os with
  | nil =>
    obtain ⟨-, rfl⟩ := run_nil_eq_ok_iff.mp h
    exact trace_cons_of_ok hstep []
  | cons j is ih =>
    obtain ⟨o', m', os', hfirst, hrest, -⟩ := run_cons_eq_ok_iff.mp h
    rw [List.cons_append, trace_cons_of_ok hfirst, trace_cons_of_ok hfirst, ih hrest,
      List.cons_append]

/-! ## What a trace gives out -/

/-- What is given out with the answers of a trace and the states after them. -/
def given {α : Type} (f : ο × σ → Option α) (seen : List (Except ε (ο × σ))) : List α :=
  seen.filterMap fun x => x.toOption.bind f

/-- What is given out up to a step is what was given out before it and with it. -/
theorem given_concat {α : Type} (f : ο × σ → Option α) (seen : List (Except ε (ο × σ)))
    (p : ο × σ) : given f (seen ++ [.ok p]) = given f seen ++ (f p).toList :=
  filterMap_concat _ _ _

/-- If at each step what is given out and what the state then holds is paid for by what is put in
and what the state held, then so it is in every trace, whether it halts or not. -/
theorem length_given_le {α β : Type} {f : ο × σ → Option α} {put : ι → Option β} {held : σ → Nat}
    (pays : ∀ s i o t, step s i = .ok (o, t) →
      (f (o, t)).toList.length + held t ≤ (put i).toList.length + held s)
    (s : σ) (is : List ι) :
    (given f (trace step s is)).length ≤ (is.filterMap put).length + held s := by
  induction is generalizing s with
  | nil => exact Nat.zero_le _
  | cons i is ih =>
    cases hstep : step s i with
    | error e =>
      rw [trace_cons_of_error hstep]
      exact Nat.zero_le _
    | ok p =>
      obtain ⟨o, t⟩ := p
      have hfirst := pays s i o t hstep
      have hrest := ih t
      have hgiven : (given f (trace step s (i :: is))).length =
          (f (o, t)).toList.length + (given f (trace step t is)).length := by
        rw [trace_cons_of_ok hstep]
        cases h : f (o, t) <;> simp [given, Except.toOption, h, Nat.add_comm]
      have hput : ((i :: is).filterMap put).length =
          (put i).toList.length + (is.filterMap put).length := by
        cases h : put i <;> simp [h, Nat.add_comm]
      omega

end Runs

end Settle
