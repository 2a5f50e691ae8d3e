import Settle.Proofs.Windower.Spacing

/-!
# How often windows close

A poll that closes a window may open the next one in the same breath, and that window may be due
already: its length may be zero, its deadline may be the last instant there is, or the poll may come
very late. All the same, polls alone do not go on closing windows. What can be closed without
another edge is the open window and the one that its carried edges are going to open, and no more:
that one begins with no carried edges of its own. An edge adds at most one of the two (`closable`).

No order of time is needed here, and no bound on any count.

Main statements: `closings_le` and `reopenings_le`.
-/

namespace Settle.Windower

variable {w v : Windower} {now : Instant} {armable : Bool} {op : Op} {answer : Answer}

/-- The reports of the windows that a trace shows to close. -/
def closings (seen : List (Except Halt (Answer × Windower))) : List Report :=
  given (fun p => p.1.report?) seen

/-- The reports of the windows that a trace shows to close while the carried edges open the next
one. -/
def reopenings (seen : List (Except Halt (Answer × Windower))) : List Report :=
  given (fun p => p.1.report?.filter fun _ => p.2.isPending) seen

/-- How many windows can be closed without another edge. -/
def closable (w : Windower) : Nat :=
  match w.activity with
  | .collecting window => 1 + window.carried.toList.length
  | _ => 0

/-- At most the open window and the one after it can be closed. -/
theorem closable_le_two (w : Windower) : w.closable ≤ 2 := by
  unfold closable
  split
  · next window _ => cases window.carried <;> simp
  · exact Nat.zero_le 2

/-- A window is open if and only if one can be closed. -/
theorem isPending_iff_closable : w.isPending = true ↔ 0 < w.closable := by
  unfold isPending closable
  cases w.activity with
  | collecting window => exact iff_of_true rfl (Nat.add_pos_left Nat.one_pos _)
  | _ => exact iff_of_false Bool.false_ne_true (Nat.lt_irrefl 0)

/-- The window that the carried edges open carries none. -/
theorem closable_next {window : OpenWindow} (h : v.activity = window.next w.length) :
    v.closable = window.carried.toList.length := by
  rw [closable, h, OpenWindow.next]
  cases window.carried <;> rfl

/-! ## What one operation does -/

/-- An edge opens a window, or is carried as the first one, at most. -/
theorem EdgeCase.closable_le {answer : EdgeAnswer} (h : EdgeCase w now armable answer v) :
    v.closable ≤ 1 + w.closable := by
  cases h with
  | ignored _ => exact Nat.le_add_left _ _
  | opened _ _ _ => exact Nat.le_add_right _ _
  | degraded _ _ _ _ => exact Nat.le_add_left _ _
  | absorbed collecting _ _ _ =>
    rw [closable, closable, collecting]
    exact Nat.le_add_left _ _
  | carried collecting _ _ _ =>
    rw [closable, closable, collecting]
    exact Nat.add_le_add_left (Nat.le_add_right _ _) 1

/-- A poll uses up one window if it closes one. -/
theorem PollCase.closable_eq {verdict : Verdict} (h : PollCase w now verdict v) :
    verdict.report?.toList.length + v.closable = w.closable := by
  cases h with
  | stop _ => exact Nat.zero_add _
  | idle _ => exact Nat.zero_add _
  | wait _ _ _ => exact Nat.zero_add _
  | expired collecting _ _ _ =>
    rw [closable_next rfl, closable, collecting]
    rfl

/-- What an operation closes, and what can be closed after it, is paid for by what could be closed
before it, and by the edge that it is. -/
theorem ApplyCase.closable_le (h : ApplyCase w op answer v) :
    answer.report?.toList.length + v.closable ≤ op.edgeTime?.toList.length + w.closable := by
  cases h with
  | edge act => exact (Nat.zero_add _).trans_le act.closable_le
  | @poll now verdict _ act =>
    have hreport : (Answer.verdict verdict).report? = verdict.report? := by
      cases verdict <;> rfl
    rw [hreport, act.closable_eq]
    exact Nat.le_add_left _ _
  | deliver _ _ => exact Nat.le_refl _
  | disarm => exact Nat.zero_le _

/-- The same of the windows that open when another one closes: they take up what could be closed
besides the open window. -/
theorem ApplyCase.reopenable_le (h : ApplyCase w op answer v) :
    (answer.report?.filter fun _ => v.isPending).toList.length + (v.closable - 1) ≤
      op.edgeTime?.toList.length + (w.closable - 1) := by
  have hle := h.closable_le
  cases hreport : answer.report? with
  | none =>
    rw [hreport] at hle
    simp only [Option.filter_none, Option.toList_none, List.length_nil] at hle ⊢
    omega
  | some report =>
    rw [hreport] at hle
    cases hpending : v.isPending with
    | true =>
      have hopen := isPending_iff_closable.mp hpending
      simp only [Option.filter_some, Option.toList_some, List.length_singleton, if_true] at hle ⊢
      omega
    | false =>
      simp only [Option.filter_some, Bool.false_eq_true, if_false, Option.toList_some,
        Option.toList_none, List.length_singleton, List.length_nil] at hle ⊢
      omega

/-! ## Whole traces -/

/-- **Edges pay for what closes.** From any state, and with polls at any instants, at most two
windows more close than there are edges. -/
theorem closings_le (w : Windower) (ops : List Op) :
    (closings (trace apply w ops)).length ≤ (edgeTimes ops).length + 2 :=
  (length_given_le (fun _ _ _ _ hstep => (apply_eq_ok hstep).closable_le) w ops).trans
    (Nat.add_le_add_left w.closable_le_two _)

/-- Windows of length zero are due when they open, and two polls close all of them. -/
example :
    closings (trace apply { length := 0 }
      [.edge 5 true, .edge 5 true, .edge 5 true, .poll 5, .poll 5, .poll 5]) =
      [⟨5, 5, 1, 1⟩, ⟨5, 5, 2, 3⟩] := by
  decide +kernel

/-- At most one window more is opened by carried edges than there are edges. -/
theorem reopenings_le (w : Windower) (ops : List Op) :
    (reopenings (trace apply w ops)).length ≤ (edgeTimes ops).length + 1 :=
  (length_given_le (fun _ _ _ _ hstep => (apply_eq_ok hstep).reopenable_le) w ops).trans
    (Nat.add_le_add_left (Nat.sub_le_of_le_add w.closable_le_two) _)

end Settle.Windower
