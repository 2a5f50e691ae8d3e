/-!
# Traces

The machines of this library all have one shape: a state, an operation, and either a halt or an
answer with the next state. The trace of a list of operations is what somebody watching the machine
sees: every answer with the state after it, in order, up to and including the first halt.
-/

namespace Settle

variable {σ ι ο ε : Type}

/-- What is seen of a machine that performs the operations in order from state `s`. -/
def trace (step : σ → ι → Except ε (ο × σ)) (s : σ) : List ι → List (Except ε (ο × σ))
  | [] => []
  | i :: is =>
    match step s i with
    | .error e => [.error e]
    | .ok (o, s') => .ok (o, s') :: trace step s' is

/-- Nothing is seen of a machine that does nothing. -/
@[simp] theorem trace_nil (step : σ → ι → Except ε (ο × σ)) (s : σ) : trace step s [] = [] := rfl

/-- An answer is seen, and then what the rest shows. -/
theorem trace_cons_of_ok {step : σ → ι → Except ε (ο × σ)} {s s' : σ} {i : ι} {o : ο}
    (h : step s i = .ok (o, s')) (is : List ι) :
    trace step s (i :: is) = .ok (o, s') :: trace step s' is := by
  simp [trace, h]

/-- A halt is the last thing that is seen. -/
theorem trace_cons_of_error {step : σ → ι → Except ε (ο × σ)} {s : σ} {i : ι} {e : ε}
    (h : step s i = .error e) (is : List ι) : trace step s (i :: is) = [.error e] := by
  simp [trace, h]

/-! ## Machines that never halt -/

/-- What is seen of a machine without halts. -/
def scan (step : σ → ι → ο × σ) (s : σ) : List ι → List (ο × σ)
  | [] => []
  | i :: is => step s i :: scan step (step s i).2 is

end Settle
