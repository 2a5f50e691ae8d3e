import Settle.Proofs.Windower.Blocks
import Settle.Proofs.Windower.Steps

/-!
# The ledger of a windower

A windower keeps numbers of edges, and forgets their instants. To say what its reports mean, the
instants are put back: the *ledger* of a run cuts the edges of the run into blocks, one for each
window that was reported, one for the open window, and one for the edges that are carried. The
ledger is determined by the run alone, and the state of the windower is a summary of its last two
blocks (`Holds`).

This works for runs in the order of time (`Clocked`), whose polls may come as late as they like. A
poll that comes very late lets edges be carried that lie past the window which the first of them
opens. Such an edge is *belated*, and so are the blocks late that have one (`Ledger.grouped`).

Main statement: `exists_ledger`.
-/

namespace Settle.Windower

variable {length : Micros} {ops : List Op} {op : Op} {answers : List Answer} {w v : Windower}
  {now : Instant}

/-! ## What is seen of a run -/

/-- The instant of an edge. -/
def Op.edgeTime? : Op → Option Nat
  | .edge now _ => some now.toNat
  | _ => none

/-- The instant of an edge or of a poll. -/
def Op.time? : Op → Option Nat
  | .edge now _ => some now.toNat
  | .poll now => some now.toNat
  | _ => none

/-- The instants of the edges. -/
def edgeTimes (ops : List Op) : List Nat := ops.filterMap Op.edgeTime?

/-- The instants of the edges and of the polls. -/
def times (ops : List Op) : List Nat := ops.filterMap Op.time?

/-- The report of a window that closes. -/
def Answer.report? : Answer → Option Report
  | .verdict (.expired report) => some report
  | _ => none

/-- The reports of the windows that close. -/
def reports (answers : List Answer) : List Report := answers.filterMap Answer.report?

/-- The first instant of the edges that are carried. -/
def carriedFirst? (w : Windower) : Option Nat :=
  match w.activity with
  | .collecting window => window.carried.map fun c => c.first.toNat
  | _ => none

/-- If the operation is an edge that comes past the window which the first carried edge is going to
open, the instant of that first edge. -/
def belated? (w : Windower) : Op → Option Nat
  | .edge now _ => w.carriedFirst?.filter fun f => f + w.length.toNat ≤ now.toNat
  | _ => none

/-- The first instants of carried edges to which a belated one was added. -/
def belated (w : Windower) : List Op → List Nat
  | [] => []
  | op :: ops =>
    (w.belated? op).toList ++
      match w.apply op with
      | .error _ => []
      | .ok (_, v) => v.belated ops

/-- One more operation adds its instant if it is an edge. -/
theorem edgeTimes_concat (ops : List Op) (op : Op) :
    edgeTimes (ops ++ [op]) = edgeTimes ops ++ op.edgeTime?.toList :=
  filterMap_concat _ _ _

/-- One more operation adds its instant if it has one. -/
theorem times_concat (ops : List Op) (op : Op) :
    times (ops ++ [op]) = times ops ++ op.time?.toList :=
  filterMap_concat _ _ _

/-- One more answer adds its report if it has one. -/
theorem reports_concat (answers : List Answer) (answer : Answer) :
    reports (answers ++ [answer]) = reports answers ++ answer.report?.toList :=
  filterMap_concat _ _ _

/-- Belated edges are found operation by operation. -/
theorem belated_cons_of_ok {answer : Answer} (h : w.apply op = .ok (answer, v)) :
    w.belated (op :: ops) = (w.belated? op).toList ++ v.belated ops := by
  rw [belated, h]

/-- One more operation adds the edge that it makes belated. -/
theorem belated_concat (op : Op) (h : run apply w ops = .ok (answers, v)) :
    w.belated (ops ++ [op]) = w.belated ops ++ (v.belated? op).toList := by
  induction ops generalizing w answers with
  | nil =>
    obtain ⟨-, rfl⟩ := run_nil_eq_ok_iff.mp h
    rw [List.nil_append, belated, belated, List.nil_append]
    cases v.apply op <;> simp [belated]
  | cons x ops ih =>
    obtain ⟨o, m, os, hfirst, hrest, -⟩ := run_cons_eq_ok_iff.mp h
    rw [List.cons_append, belated_cons_of_ok hfirst, belated_cons_of_ok hfirst, ih hrest,
      List.append_assoc]

/-- The instants of edges are among those of operations. -/
theorem mem_times_of_mem_edgeTimes {t : Nat} (h : t ∈ edgeTimes ops) : t ∈ times ops := by
  obtain ⟨op, hop, ht⟩ := List.mem_filterMap.mp h
  refine List.mem_filterMap.mpr ⟨op, hop, ?_⟩
  cases op with
  | edge now armable => exact ht
  | _ => cases ht

/-! ## Runs in the order of time -/

/-- Operations in the order of time, with room for a window after each edge. -/
structure Ordered (length : Micros) (ops : List Op) : Prop where
  ordered : (times ops).Pairwise (· ≤ ·)
  room : ∀ t ∈ edgeTimes ops, t + length.toNat < UInt64.size

/-- The operations before the last one are in order. -/
theorem Ordered.of_concat (h : Ordered length (ops ++ [op])) : Ordered length ops where
  ordered := by
    have hordered := h.ordered
    rw [times_concat] at hordered
    exact (List.pairwise_append.mp hordered).1
  room t ht := by
    refine h.room t ?_
    rw [edgeTimes_concat]
    exact List.mem_append_left _ ht

/-- The last operation comes last. -/
theorem Ordered.le_of_concat (h : Ordered length (ops ++ [op])) {t p : Nat}
    (ht : op.time? = some t) (hp : p ∈ times ops) : p ≤ t := by
  have hordered := h.ordered
  rw [times_concat, ht] at hordered
  exact (List.pairwise_append.mp hordered).2.2 p hp t (List.mem_singleton_self t)

/-- There is room for a window after the last edge. -/
theorem Ordered.room_of_concat (h : Ordered length (ops ++ [op])) {t : Nat}
    (ht : op.edgeTime? = some t) : t + length.toNat < UInt64.size := by
  refine h.room t ?_
  rw [edgeTimes_concat, ht]
  exact List.mem_append_right _ (List.mem_singleton_self t)

/-- Whether an operation is a poll, or an edge for which the timer can be armed. -/
def Op.isTimed : Op → Bool
  | .edge _ armable => armable
  | .poll _ => true
  | _ => false

/-- Edges and polls in the order of time, with room for a window after each edge. -/
structure Clocked (length : Micros) (ops : List Op) : Prop where
  timed : ∀ op ∈ ops, op.isTimed = true
  ordered : (times ops).Pairwise (· ≤ ·)
  room : ∀ t ∈ edgeTimes ops, t + length.toNat < UInt64.size

/-- Edges and polls in the order of time are operations in that order. -/
theorem Clocked.inOrder (h : Clocked length ops) : Ordered length ops := ⟨h.ordered, h.room⟩

/-- The edges and polls before the last one are in order. -/
theorem Clocked.of_concat (h : Clocked length (ops ++ [op])) : Clocked length ops where
  timed x hx := h.timed x (List.mem_append_left _ hx)
  ordered := h.inOrder.of_concat.ordered
  room := h.inOrder.of_concat.room

/-! ## The ledger -/

/-- What an open window says about its edges and about those that are carried. -/
structure WindowHolds (length : Nat) (window : OpenWindow) (inside carried : List Nat) : Prop where
  /-- It was opened by its first edge. -/
  opened : inside.head? = some window.opened.toNat
  /-- It has the length of all windows. -/
  deadline : window.deadline.toNat = window.opened.toNat + length
  /-- It counts its edges. -/
  edges : window.edges.toNat = inside.length
  /-- It remembers the first carried edge. -/
  first : window.carried.map (fun c => c.first.toNat) = carried.head?
  /-- It counts the carried edges. -/
  waiting : window.carriedEdges.toNat = carried.length

/-- What the state of a windower says about the edges in the open window and those that are
carried. -/
inductive Holds (length : Nat) : Activity → List Nat → List Nat → Prop where
  /-- No window is open. -/
  | idle : Holds length .idle [] []
  /-- A window is open. -/
  | collecting {window : OpenWindow} {inside carried : List Nat}
      (summary : WindowHolds length window inside carried) :
      Holds length (.collecting window) inside carried

/-- The edges of a run in blocks: `closed` are those of the windows that were reported, `inside`
are the edges in the open window, and `carried` those that are carried. -/
structure Ledger (length : Micros) (ops : List Op) (answers : List Answer) (w : Windower)
    (closed : List (List Nat)) (inside carried : List Nat) : Prop where
  /-- The blocks are made of the edges of the run, each past the windows of those before it, and
  the late ones are those that got a belated edge. -/
  grouped : Blocks.Grouped length.toNat (edgeTimes ops) (belated { length } ops)
    (closed ++ [inside, carried])
  /-- The reports are those of the closed blocks. -/
  reported : (reports answers).map Report.span = Blocks.spans length.toNat 0 closed
  /-- No window was opened without an edge. -/
  nonempty : [] ∉ closed
  /-- A window was reported only at or past its deadline. -/
  due : ∀ g ∈ closed, ∀ o ∈ g.head?, ∃ p ∈ times ops, o + length.toNat ≤ p
  /-- The state summarises the last two blocks. -/
  holds : Holds length.toNat w.activity inside carried
  /-- Every edge is counted. -/
  counted : w.tally.edges.toNat = (edgeTimes ops).length
  /-- The length of windows never changes. -/
  sameLength : w.length = length

/-- At first there are no edges. -/
theorem ledger_nil (length : Micros) : Ledger length [] [] { length } [] [] [] where
  grouped := Blocks.grouped_nil.concat_nil.concat_nil
  reported := rfl
  nonempty := List.not_mem_nil
  due _ h := absurd h List.not_mem_nil
  holds := .idle
  counted := rfl
  sameLength := rfl

section Step

variable {closed : List (List Nat)} {inside carried : List Nat}

/-- The first carried edge is the first edge of the last block. -/
theorem Holds.carriedFirst?_eq (h : Holds length.toNat w.activity inside carried) :
    w.carriedFirst? = carried.head? := by
  unfold carriedFirst?
  cases hact : w.activity with
  | idle =>
    rw [hact] at h
    cases h
    rfl
  | disarmed =>
    rw [hact] at h
    cases h
  | collecting window =>
    rw [hact] at h
    cases h with
    | collecting summary => exact summary.first

/-- While a window is open, it tells of the last two blocks. -/
theorem Ledger.windowHolds (h : Ledger length ops answers w closed inside carried)
    {window : OpenWindow} (collecting : w.activity = .collecting window) :
    WindowHolds length.toNat window inside carried := by
  have hholds := h.holds
  rw [collecting] at hholds
  cases hholds with
  | collecting summary => exact summary

/-- The edges are counted where they are. -/
theorem Ledger.length_edgeTimes (h : Ledger length ops answers w closed inside carried) :
    (edgeTimes ops).length = closed.flatten.length + inside.length + carried.length := by
  rw [← h.grouped.flatten, Blocks.append_pair, List.flatten_append, List.flatten_append,
    List.flatten_singleton, List.flatten_singleton, List.length_append, List.length_append]

/-- The carried edges are edges of the run. -/
theorem Ledger.mem_edgeTimes_of_mem_carried
    (h : Ledger length ops answers w closed inside carried) {f : Nat} (hf : f ∈ carried) :
    f ∈ edgeTimes ops := by
  rw [← h.grouped.flatten, Blocks.append_pair, List.flatten_append, List.flatten_singleton]
  exact List.mem_append_right _ hf

/-- The blocks of windows that were reported lie before an edge that comes now. -/
theorem Ledger.past_closed (h : Ledger length ops answers w closed inside carried)
    (hclocked : Clocked length (ops ++ [op])) {t : Nat} (ht : op.time? = some t) :
    ∀ g ∈ closed, Blocks.Past length.toNat g [t] := by
  intro g hg o ho t' ht'
  obtain ⟨p, hp, hdue⟩ := h.due g hg o ho
  rw [List.mem_singleton.mp ht']
  exact Nat.le_trans hdue (hclocked.inOrder.le_of_concat ht hp)

/-- What is due stays due. -/
theorem Ledger.due_concat (h : Ledger length ops answers w closed inside carried) (op : Op) :
    ∀ g ∈ closed, ∀ o ∈ g.head?, ∃ p ∈ times (ops ++ [op]), o + length.toNat ≤ p := by
  intro g hg o ho
  obtain ⟨p, hp, hdue⟩ := h.due g hg o ho
  refine ⟨p, ?_, hdue⟩
  rw [times_concat]
  exact List.mem_append_left _ hp

/-- An edge in the open window, or one that opens a window, goes to the block of that window. -/
theorem Ledger.grouped_inside (h : Ledger length ops answers w closed inside [])
    (hpositive : 0 < length.toNat) (hclocked : Clocked length (ops ++ [op])) {t : Nat}
    (ht : op.time? = some t) (hinside : ∀ o ∈ inside.head?, t < o + length.toNat) :
    Blocks.Grouped length.toNat (edgeTimes ops ++ [t]) (belated { length } ops)
      (closed ++ [inside ++ [t], []]) := by
  have hgrouped := h.grouped
  rw [Blocks.append_pair] at hgrouped
  have hput := hgrouped.of_concat_nil.put hpositive (h.past_closed hclocked ht)
  have hprompt : inside.head?.filter (fun o => decide (o + length.toNat ≤ t)) = none := by
    rw [Option.filter_eq_none_iff]
    intro o ho
    have := hinside o ho
    simp only [decide_eq_true_eq]
    omega
  rw [hprompt, Option.toList_none, List.append_nil] at hput
  rw [Blocks.append_pair]
  exact hput.concat_nil

/-- An edge past the open window goes to the block of the carried edges. -/
theorem Ledger.grouped_carried (h : Ledger length ops answers w closed inside carried)
    (hpositive : 0 < length.toNat) (hclocked : Clocked length (ops ++ [op])) {t : Nat}
    (ht : op.time? = some t) (hpast : Blocks.Past length.toNat inside [t]) :
    Blocks.Grouped length.toNat (edgeTimes ops ++ [t])
      (belated { length } ops ++ (carried.head?.filter fun f => f + length.toNat ≤ t).toList)
      (closed ++ [inside, carried ++ [t]]) := by
  have hgrouped := h.grouped
  rw [Blocks.append_pair] at hgrouped ⊢
  refine hgrouped.put hpositive ?_
  intro g hg
  rcases List.mem_append.mp hg with hg | hg
  · exact h.past_closed hclocked ht g hg
  · rw [List.mem_singleton.mp hg]
    exact hpast

/-- While the open window is not due, no edge is carried. -/
theorem Ledger.carried_eq_nil (h : Ledger length ops answers w closed inside carried)
    (hclocked : Clocked length (ops ++ [op])) {t o : Nat} (ht : op.time? = some t)
    (ho : o ∈ inside.head?) (hearly : t < o + length.toNat) : carried = [] := by
  by_contra hne
  obtain ⟨f, rest, rfl⟩ := List.exists_cons_of_ne_nil hne
  have hpast : Blocks.Past length.toNat inside (f :: rest) := by
    have hall := h.grouped.past
    rw [Blocks.append_pair] at hall
    exact (List.pairwise_append.mp hall).2.2 inside
      (List.mem_append_right _ (List.mem_singleton_self _)) _ (List.mem_singleton_self _)
  have hlate := hpast o ho f List.mem_cons_self
  -- The carried edge came before this operation, hence before the deadline.
  have hf := h.mem_edgeTimes_of_mem_carried List.mem_cons_self
  have hle := hclocked.inOrder.le_of_concat ht (mem_times_of_mem_edgeTimes hf)
  omega

/-- An edge is belated by the first edge of the carried block. -/
theorem Ledger.belated?_edge (h : Ledger length ops answers w closed inside carried)
    {armable : Bool} :
    w.belated? (.edge now armable) =
      carried.head?.filter fun f => f + length.toNat ≤ now.toNat := by
  rw [belated?, h.holds.carriedFirst?_eq, h.sameLength]

/-- What an edge does to the blocks is what it does to the ledger. -/
theorem Ledger.concat_edge (h : Ledger length ops answers w closed inside carried)
    (hrun : run apply { length } ops = .ok (answers, w)) {armable : Bool} {answer : EdgeAnswer}
    {inside' carried' : List Nat}
    (grouped : Blocks.Grouped length.toNat (edgeTimes ops ++ [now.toNat])
      (belated { length } ops ++ (w.belated? (.edge now armable)).toList)
      (closed ++ [inside', carried']))
    (holds : Holds length.toNat v.activity inside' carried')
    (count : v.tally.edges.toNat = w.tally.edges.toNat + 1) (same : v.length = w.length) :
    Ledger length (ops ++ [.edge now armable]) (answers ++ [.edge answer]) v closed inside'
      carried' where
  grouped := by
    rw [edgeTimes_concat, belated_concat _ hrun]
    exact grouped
  reported := by
    rw [reports_concat, ← h.reported]
    exact congrArg _ (List.append_nil _)
  nonempty := h.nonempty
  due := h.due_concat _
  holds := holds
  counted := by
    rw [edgeTimes_concat, List.length_append, count, h.counted]
    rfl
  sameLength := same.trans h.sameLength

/-- An edge that comes while no window is open is the first one of a block. -/
theorem Ledger.concat_opened (h : Ledger length ops answers w closed inside carried)
    (hrun : run apply { length } ops = .ok (answers, w)) (hpositive : 0 < length.toNat)
    (hclocked : Clocked length (ops ++ [.edge now true])) {answer : EdgeAnswer}
    (idle : w.activity = .idle) (count : v.tally.edges.toNat = w.tally.edges.toNat + 1)
    (same : v.length = w.length)
    (opens : v.activity = .collecting
      { opened := now, deadline := Word.later now w.length, edges := 1 }) :
    Ledger length (ops ++ [.edge now true]) (answers ++ [.edge answer]) v closed [now.toNat]
      [] := by
  have hholds := h.holds
  rw [idle] at hholds
  cases hholds with
  | idle =>
    refine h.concat_edge hrun ?_ ?_ count same
    · rw [h.belated?_edge, List.head?_nil, Option.filter_none, Option.toList_none, List.append_nil]
      exact h.grouped_inside hpositive hclocked rfl fun o ho => nomatch ho
    · rw [opens, h.sameLength]
      exact .collecting
        ⟨rfl, Word.toNat_later_of_lt (hclocked.inOrder.room_of_concat rfl), rfl, rfl, rfl⟩

/-- An edge that comes before the deadline of the open window is one more of its block. -/
theorem Ledger.concat_absorbed (h : Ledger length ops answers w closed inside carried)
    (hrun : run apply { length } ops = .ok (answers, w)) (hpositive : 0 < length.toNat)
    (hclocked : Clocked length (ops ++ [.edge now true])) {answer : EdgeAnswer}
    {window : OpenWindow} {edges : Count} (collecting : w.activity = .collecting window)
    (early : now < window.deadline) (count : v.tally.edges.toNat = w.tally.edges.toNat + 1)
    (more : edges.toNat = window.edges.toNat + 1) (same : v.length = w.length)
    (takes : v.activity = .collecting { window with edges }) :
    Ledger length (ops ++ [.edge now true]) (answers ++ [.edge answer]) v closed
      (inside ++ [now.toNat]) carried := by
  have hwindow := h.windowHolds collecting
  have hearly := UInt64.lt_iff_toNat_lt.mp early
  rw [hwindow.deadline] at hearly
  have hnil := h.carried_eq_nil hclocked rfl hwindow.opened hearly
  subst hnil
  refine h.concat_edge hrun ?_ ?_ count same
  · rw [h.belated?_edge, List.head?_nil, Option.filter_none, Option.toList_none, List.append_nil]
    refine h.grouped_inside hpositive hclocked rfl fun o ho => ?_
    rw [hwindow.opened] at ho
    rw [← Option.some.inj ho]
    exact hearly
  · rw [takes]
    refine .collecting { hwindow with opened := ?_, edges := ?_ }
    · rw [List.head?_append, hwindow.opened]
      rfl
    · rw [more, hwindow.edges, List.length_append]
      rfl

/-- An edge that comes at or past the deadline of the open window is one more of the carried
block. -/
theorem Ledger.concat_carried (h : Ledger length ops answers w closed inside carried)
    (hrun : run apply { length } ops = .ok (answers, w)) (hpositive : 0 < length.toNat)
    (hclocked : Clocked length (ops ++ [.edge now true])) {answer : EdgeAnswer}
    {window : OpenWindow} {edges : Count} (collecting : w.activity = .collecting window)
    (late : window.deadline ≤ now) (count : v.tally.edges.toNat = w.tally.edges.toNat + 1)
    (more : edges.toNat = window.carriedEdges.toNat + 1) (same : v.length = w.length)
    (takes : v.activity = .collecting
      { window with carried := some { first := window.firstCarried now, edges } }) :
    Ledger length (ops ++ [.edge now true]) (answers ++ [.edge answer]) v closed inside
      (carried ++ [now.toNat]) := by
  have hwindow := h.windowHolds collecting
  have hlate := UInt64.le_iff_toNat_le.mp late
  rw [hwindow.deadline] at hlate
  refine h.concat_edge hrun ?_ ?_ count same
  · rw [h.belated?_edge]
    refine h.grouped_carried hpositive hclocked rfl fun o ho t ht => ?_
    rw [hwindow.opened] at ho
    rw [← Option.some.inj ho, List.mem_singleton.mp ht]
    exact hlate
  · rw [takes]
    refine .collecting { hwindow with first := ?_, waiting := ?_ }
    · show some (window.firstCarried now).toNat = _
      rw [window.toNat_firstCarried, hwindow.first]
      cases carried <;> rfl
    · rw [List.length_append, ← hwindow.waiting]
      exact more

/-- An edge for which the timer can be armed goes to the block of the open window, or to the block
of the carried edges. -/
theorem Ledger.edge (h : Ledger length ops answers w closed inside carried)
    (hrun : run apply { length } ops = .ok (answers, w)) (hpositive : 0 < length.toNat)
    (hclocked : Clocked length (ops ++ [.edge now true])) {answer : EdgeAnswer}
    (hstep : w.edge now true = .ok (answer, v)) :
    ∃ inside' carried', Ledger length (ops ++ [.edge now true]) (answers ++ [.edge answer]) v
      closed inside' carried' := by
  cases edge_eq_ok hstep with
  | ignored torn =>
    have hholds := h.holds
    rw [torn] at hholds
    cases hholds
  | opened idle _ count =>
    exact ⟨_, _, h.concat_opened hrun hpositive hclocked idle count rfl rfl⟩
  | degraded _ fails _ _ => cases fails
  | absorbed collecting early count more =>
    exact ⟨_, _, h.concat_absorbed hrun hpositive hclocked collecting early count more rfl rfl⟩
  | carried collecting late count more =>
    exact ⟨_, _, h.concat_carried hrun hpositive hclocked collecting late count more rfl rfl⟩

/-- A poll that closes nothing leaves the ledger as it is. -/
theorem Ledger.concat_poll (h : Ledger length ops answers w closed inside carried)
    (hrun : run apply { length } ops = .ok (answers, w)) {verdict : Verdict}
    (hopen : ∀ report, verdict ≠ .expired report) :
    Ledger length (ops ++ [.poll now]) (answers ++ [.verdict verdict]) w closed inside
      carried where
  grouped := by
    rw [edgeTimes_concat, belated_concat _ hrun]
    have hgrouped := h.grouped
    rwa [← List.append_nil (edgeTimes ops), ← List.append_nil (belated { length } ops)] at hgrouped
  reported := by
    have hnone : (Answer.verdict verdict).report? = none := by
      cases verdict with
      | expired report => exact absurd rfl (hopen report)
      | _ => rfl
    rw [reports_concat, hnone, ← h.reported]
    exact congrArg _ (List.append_nil _)
  nonempty := h.nonempty
  due := h.due_concat _
  holds := h.holds
  counted := by
    rw [h.counted, edgeTimes_concat]
    exact congrArg List.length (List.append_nil _).symm
  sameLength := h.sameLength

/-- What a window leaves behind when it closes is the carried block, which becomes the open one. -/
theorem WindowHolds.next {window : OpenWindow}
    (h : WindowHolds length.toNat window inside carried)
    (hroom : ∀ f ∈ carried.head?, f + length.toNat < UInt64.size) :
    Holds length.toNat (window.next length) carried [] := by
  have hfirst := h.first
  have hwaiting := h.waiting
  unfold OpenWindow.next
  cases hcarried : window.carried with
  | none =>
    rw [hcarried, Option.map_none] at hfirst
    rw [List.head?_eq_none_iff.mp hfirst.symm]
    exact .idle
  | some c =>
    rw [hcarried, Option.map_some] at hfirst
    rw [OpenWindow.carriedEdges, hcarried] at hwaiting
    exact .collecting
      ⟨hfirst.symm, Word.toNat_later_of_lt (hroom _ hfirst.symm), hwaiting, rfl, rfl⟩

/-- The report of a window says what its block says. -/
theorem Ledger.span_report (h : Ledger length ops answers w closed inside carried)
    {window : OpenWindow} {total : Count} (collecting : w.activity = .collecting window)
    (before : total.toNat + window.carriedEdges.toNat = w.tally.edges.toNat) :
    (report window total).span =
      Blocks.spanOf length.toNat (0 + closed.flatten.length) inside := by
  have hwindow := h.windowHolds collecting
  obtain ⟨os, rfl⟩ := List.head?_eq_some_iff.mp hwindow.opened
  rw [h.counted, h.length_edgeTimes, hwindow.waiting] at before
  rw [Report.span, Blocks.spanOf, Span.mk.injEq, List.headD_cons]
  refine ⟨rfl, hwindow.deadline, hwindow.edges, ?_⟩
  show total.toNat = _
  omega

/-- A poll that closes the open window closes its block. -/
theorem Ledger.concat_expired (h : Ledger length ops answers w closed inside carried)
    (hrun : run apply { length } ops = .ok (answers, w))
    (hclocked : Clocked length (ops ++ [.poll now])) {window : OpenWindow} {total count : Count}
    (collecting : w.activity = .collecting window) (due : window.deadline ≤ now)
    (before : total.toNat + window.carriedEdges.toNat = w.tally.edges.toNat) :
    Ledger length (ops ++ [.poll now]) (answers ++ [.verdict (.expired (report window total))])
      { w with activity := window.next w.length, tally := { w.tally with closed := count } }
      (closed ++ [inside]) carried [] where
  grouped := by
    rw [edgeTimes_concat, belated_concat _ hrun, Blocks.append_pair, List.append_assoc closed]
    have hgrouped := h.grouped.concat_nil
    rwa [← List.append_nil (edgeTimes ops), ← List.append_nil (belated { length } ops)] at hgrouped
  reported := by
    rw [reports_concat, List.map_append, h.reported, Blocks.spans_concat,
      ← h.span_report collecting before]
    rfl
  nonempty := by
    intro hnil
    rcases List.mem_append.mp hnil with hnil | hnil
    · exact h.nonempty hnil
    · have hopened := (h.windowHolds collecting).opened
      rw [← List.mem_singleton.mp hnil] at hopened
      cases hopened
  due := by
    intro g hg o ho
    rcases List.mem_append.mp hg with hg | hg
    · exact h.due_concat _ g hg o ho
    · have hwindow := h.windowHolds collecting
      rw [List.mem_singleton.mp hg, hwindow.opened] at ho
      refine ⟨now.toNat, ?_, ?_⟩
      · rw [times_concat]
        exact List.mem_append_right _ (List.mem_singleton_self _)
      · rw [← Option.some.inj ho, ← hwindow.deadline]
        exact UInt64.le_iff_toNat_le.mp due
  holds := by
    rw [h.sameLength]
    exact (h.windowHolds collecting).next fun f hf => hclocked.of_concat.room f
      (h.mem_edgeTimes_of_mem_carried (List.mem_of_mem_head? hf))
  counted := by
    rw [edgeTimes_concat]
    exact h.counted.trans (congrArg List.length (List.append_nil _).symm)
  sameLength := h.sameLength

/-- A poll closes the block of the open window if that is due. -/
theorem Ledger.poll (h : Ledger length ops answers w closed inside carried)
    (hrun : run apply { length } ops = .ok (answers, w))
    (hclocked : Clocked length (ops ++ [.poll now])) {verdict : Verdict}
    (hstep : w.poll now = .ok (verdict, v)) :
    ∃ closed' inside' carried', Ledger length (ops ++ [.poll now])
      (answers ++ [.verdict verdict]) v closed' inside' carried' := by
  cases poll_eq_ok hstep with
  | stop _ => exact ⟨closed, inside, carried, h.concat_poll hrun fun _ => Verdict.noConfusion⟩
  | idle _ => exact ⟨closed, inside, carried, h.concat_poll hrun fun _ => Verdict.noConfusion⟩
  | wait _ _ _ =>
    exact ⟨closed, inside, carried, h.concat_poll hrun fun _ => Verdict.noConfusion⟩
  | expired collecting due before _ =>
    exact ⟨closed ++ [inside], carried, [],
      h.concat_expired hrun hclocked collecting due before⟩

end Step

/-- **Every run has a ledger.** The edges of a run in the order of time are cut into the blocks of
the reported windows, the block of the open window and the carried edges. -/
theorem exists_ledger (hpositive : 0 < length.toNat)
    (h : run apply { length } ops = .ok (answers, w)) (hclocked : Clocked length ops) :
    ∃ closed inside carried, Ledger length ops answers w closed inside carried := by
  refine run_induction
    (P := fun ops answers w => Clocked length ops →
      ∃ closed inside carried, Ledger length ops answers w closed inside carried)
    (fun _ => ⟨[], [], [], ledger_nil length⟩) ?_ h hclocked
  intro ops answers w op answer v hrun ih hstep hclocked
  obtain ⟨closed, inside, carried, hledger⟩ := ih hclocked.of_concat
  have htimed := hclocked.timed op (List.mem_append_right _ (List.mem_singleton_self op))
  cases op with
  | edge now armable =>
    have harms : armable = true := htimed
    subst harms
    simp only [apply, bind_eq_ok_iff, pure_eq_ok_iff, Prod.exists, Prod.mk.injEq] at hstep
    obtain ⟨edgeAnswer, v', hedge, rfl, rfl⟩ := hstep
    exact ⟨closed, hledger.edge hrun hpositive hclocked hedge⟩
  | poll now =>
    simp only [apply, bind_eq_ok_iff, pure_eq_ok_iff, Prod.exists, Prod.mk.injEq] at hstep
    obtain ⟨verdict, v', hpoll, rfl, rfl⟩ := hstep
    exact hledger.poll hrun hclocked hpoll
  | deliver => cases htimed
  | disarm => cases htimed

end Settle.Windower
