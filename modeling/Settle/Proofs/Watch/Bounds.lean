import Mathlib.Data.List.TakeWhile
import Settle.Proofs.Watch.Accounting
import Settle.Proofs.Windower.Bounds

/-!
# A watch with one worker does not halt

What is counted about windows is bounded by the closed windows, because each of them comes to one
end only, and these are bounded by the edges. So of a watch that has one worker an operation halts
only for want of room, and only if it is an edge, when there are as many edges as a word can count.
In particular no task is recorded as delivered beyond the number of edges.

The edges that count are those before the teardown (`Watch.acceptedEdges`), since later ones are
ignored. So a run is never stopped by a halt as long as there are fewer of them than a word can
count.

Main statements: `Sound.exists_apply` for one operation, `never_halts` for runs.
-/

namespace Settle

variable {now : Instant}

/-- A delivery does not halt if more edges than deliveries are counted. -/
theorem Windower.exists_deliver {w : Windower}
    (h : w.tally.delivered.toNat + 1 ≤ w.tally.edges.toNat) : ∃ n v, w.deliver = .ok (n, v) := by
  have hword := w.tally.edges.toNat_lt
  obtain ⟨n, hplus⟩ := Word.exists_plus (a := w.tally.delivered) (b := 1)
    (by simp only [UInt64.toNat_one, UInt64.size]; omega)
  have hle : n ≤ w.tally.edges := by
    rw [UInt64.le_iff_toNat_le, (Word.plus_eq_ok_iff _ _ _).mp hplus]
    exact h
  exact ⟨_, _, bind_eq_ok_iff.mpr ⟨n, hplus, if_pos hle⟩⟩

namespace Watch

variable {w : Watch}

/-- The watch answers an edge if the windower does. -/
theorem exists_edge {armable : Bool}
    (h : ∃ answer v, w.windower.edge now armable = .ok (answer, v)) :
    ∃ answer v, w.edge now armable = .ok (answer, v) := by
  obtain ⟨⟨outcome, asked⟩, windower, hedge⟩ := h
  cases outcome <;> exact ⟨_, _, bind_eq_ok_iff.mpr ⟨_, hedge, rfl⟩⟩

/-- A task is queued if there is a word for the number of tasks that were replaced. -/
theorem exists_enqueue (report : Report)
    (h : w.windower.tally.coalesced.toNat + w.task.toList.length < UInt64.size) :
    ∃ v, w.enqueue report = .ok v := by
  unfold enqueue
  cases htask : w.task with
  | none => exact ⟨_, rfl⟩
  | some task =>
    rw [htask] at h
    obtain ⟨coalesced, hplus⟩ := Word.exists_plus (a := w.windower.tally.coalesced) (b := 1) h
    exact ⟨_, bind_eq_ok_iff.mpr ⟨coalesced, hplus, rfl⟩⟩

/-- A poll is answered if there is a word for the number of tasks that were replaced. -/
theorem exists_poll (now : Instant) (hbounded : w.windower.Bounded)
    (h : w.windower.tally.coalesced.toNat + w.task.toList.length < UInt64.size) :
    ∃ verdict v, w.poll now = .ok (verdict, v) := by
  obtain ⟨verdict, windower, hpoll⟩ := hbounded.exists_poll now
  cases Windower.poll_eq_ok hpoll with
  | stop _ => exact ⟨_, _, bind_eq_ok_iff.mpr ⟨_, hpoll, rfl⟩⟩
  | idle _ => exact ⟨_, _, bind_eq_ok_iff.mpr ⟨_, hpoll, rfl⟩⟩
  | wait _ _ _ => exact ⟨_, _, bind_eq_ok_iff.mpr ⟨_, hpoll, rfl⟩⟩
  | @expired window total closed collecting due before count =>
    let after : Watch := { w with windower := { w.windower with
      activity := window.next w.windower.length, tally := { w.windower.tally with closed } } }
    obtain ⟨v, henqueue⟩ := exists_enqueue (w := after) (Windower.report window total) h
    exact ⟨_, _, bind_eq_ok_iff.mpr ⟨_, hpoll, bind_eq_ok_iff.mpr ⟨v, henqueue, rfl⟩⟩⟩

/-- The worker is answered if there is a word for the number of cancelled tasks. -/
theorem exists_takeJob (h : w.windower.tally.cancelled.toNat + w.task.toList.length < UInt64.size) :
    ∃ v, w.takeJob = .ok (w.jobNow, v) := by
  unfold takeJob jobNow
  cases w.windower.isDisarmed with
  | false => cases w.task <;> exact ⟨_, rfl⟩
  | true =>
    cases htask : w.task with
    | none => exact ⟨_, rfl⟩
    | some task =>
      rw [htask] at h
      obtain ⟨cancelled, hplus⟩ := Word.exists_plus (a := w.windower.tally.cancelled) (b := 1) h
      exact ⟨_, bind_eq_ok_iff.mpr ⟨cancelled, hplus, rfl⟩⟩

/-- An event is recorded if it would not be one more than there were edges. -/
theorem exists_settle (level : Bool) (window : Report) (now : Instant)
    (h : w.windower.tally.delivered.toNat + 1 ≤ w.windower.tally.edges.toNat) :
    ∃ event v, w.settle level window now = .ok (event, v) := by
  obtain ⟨n, windower, hdeliver⟩ := Windower.exists_deliver h
  exact ⟨_, _, bind_eq_ok_iff.mpr ⟨_, hdeliver, rfl⟩⟩

/-- A failed reading is recorded if there is a word for one more. -/
theorem exists_unreadable (message : String)
    (h : w.windower.tally.failed.toNat + 1 < UInt64.size) : ∃ v, w.unreadable message = .ok v := by
  obtain ⟨failed, hplus⟩ := Word.exists_plus (a := w.windower.tally.failed) (b := 1) h
  exact ⟨_, bind_eq_ok_iff.mpr ⟨failed, hplus, rfl⟩⟩

/-! ## The edges that are accepted -/

/-- Whether an operation is an edge. -/
def Op.isEdge : Op → Bool
  | .edge .. => true
  | _ => false

/-- Whether an edge was counted. -/
def Answer.accepts : Answer → Bool
  | .edge answer => answer.outcome ≠ .ignored
  | _ => false

/-- The number of edges before the teardown. -/
def acceptedEdges (ops : List Op) : Nat := (ops.takeWhile (· ≠ .disarm)).countP Op.isEdge

/-- One more edge counts unless the teardown came before it. -/
theorem acceptedEdges_concat (ops : List Op) (op : Op) :
    acceptedEdges (ops ++ [op]) =
      acceptedEdges ops + if .disarm ∈ ops then 0 else [op].countP Op.isEdge := by
  unfold acceptedEdges
  by_cases hdis : Op.disarm ∈ ops
  · obtain ⟨before, after, rfl, hbefore⟩ := List.eq_append_cons_of_mem hdis
    have hall : ∀ op ∈ before, decide (op ≠ .disarm) = true := by
      intro op hop
      exact decide_eq_true fun heq => hbefore (heq ▸ hop)
    rw [if_pos hdis, Nat.add_zero, List.append_assoc, List.takeWhile_append_of_pos hall,
      List.takeWhile_append_of_pos hall]
    rfl
  · have hall : ∀ op ∈ ops, decide (op ≠ .disarm) = true := by
      intro op hop
      exact decide_eq_true fun heq => hdis (heq ▸ hop)
    rw [if_neg hdis, List.takeWhile_append_of_pos hall, List.countP_append,
      List.takeWhile_eq_self_iff.mpr hall]
    cases op <;> rfl

/-- Later operations take no edge away. -/
theorem acceptedEdges_append_le (before after : List Op) :
    acceptedEdges before ≤ acceptedEdges (before ++ after) := by
  induction after using List.reverseRecOn with
  | nil => exact Nat.le_of_eq (congrArg acceptedEdges (List.append_nil before).symm)
  | append_singleton after op ih =>
    rw [← List.append_assoc, acceptedEdges_concat]
    omega

end Watch

namespace Shift

variable {s t : Shift} {op : Watch.Op} {answer : Watch.Answer}

/-- The books of a shift are in order, and its counts bound each other. -/
structure Sound (s : Shift) : Prop where
  balanced : s.Balanced
  bounded : s.watch.windower.Bounded

/-- At the start there is nothing to account for. -/
theorem sound_start (source : UInt32) (length : Micros) (level : Bool) :
    (start source length level).Sound :=
  ⟨balanced_start source length level, Windower.bounded_new length⟩

/-- Every step of a shift keeps the counts bounded. -/
theorem Sound.step (hs : s.Sound) (h : s.step op = .ok (answer, t)) : t.Sound := by
  refine ⟨hs.balanced.step h, ?_⟩
  have hbounded := hs.bounded
  cases step_eq_ok h with
  | edge done =>
    obtain ⟨windower, hedge, rfl⟩ := Watch.edge_eq_ok done
    exact hbounded.edge (Windower.edge_eq_ok hedge)
  | poll done =>
    cases Watch.poll_eq_ok done with
    | quiet _ _ => exact hbounded
    | expired asked _ => exact (hbounded.poll (Windower.poll_eq_ok asked)).of_eq rfl rfl rfl rfl
  | takeJob _ done =>
    obtain ⟨-, cancelled, -, rfl⟩ := Watch.takeJob_eq_ok done
    exact hbounded.of_eq rfl rfl rfl rfl
  | settle _ done =>
    obtain ⟨delivered, -, -, -, rfl⟩ := Watch.settle_eq_ok done
    exact hbounded.of_eq rfl rfl rfl rfl
  | unreadable _ done =>
    obtain ⟨failed, -, rfl⟩ := Watch.unreadable_eq_ok done
    exact hbounded.of_eq rfl rfl rfl rfl
  | handled failure =>
    show (s.watch.handled failure).windower.Bounded
    rw [Watch.windower_handled]
    exact hbounded
  | disarm => exact hbounded.disarm
  | takeUnreported => exact hbounded
  | snapshot => exact hbounded

/-- The books are in order, and the counts are bounded, after every run. -/
theorem sound_of_run {source : UInt32} {length : Micros} {level : Bool} {ops : List Watch.Op}
    {answers : List Watch.Answer}
    (h : run Shift.step (start source length level) ops = .ok (answers, s)) : s.Sound :=
  run_invariant (sound_start source length level) (fun _ _ _ _ hm hstep => hm.step hstep) h

/-- Every end that a window can come to is counted at most as often as edges are. -/
theorem Sound.endings_le (hs : s.Sound) :
    s.watch.windower.tally.endings + s.watch.task.toList.length + s.inHand.toList.length ≤
      s.watch.windower.tally.edges.toNat := by
  have hended := hs.balanced.ended
  have hedges := hs.bounded.edges
  omega

/-- **A watch with one worker halts only for want of room.** Whatever operation is allowed does not
halt, unless it is an edge and there are as many edges as a word can count. -/
theorem Sound.exists_apply (hs : s.Sound) (op : Watch.Op) (hallows : s.allows op = true)
    (room : ∀ now armable, op = .edge now armable →
      s.watch.windower.tally.edges.toNat + 1 < UInt64.size) :
    ∃ answer watch, s.watch.apply op = .ok (answer, watch) := by
  have hends := hs.endings_le
  have hword := s.watch.windower.tally.edges.toNat_lt
  simp only [Tally.endings] at hends
  cases op with
  | edge now armable =>
    obtain ⟨answer, watch, hedge⟩ :=
      Watch.exists_edge (hs.bounded.exists_edge now armable (room now armable rfl))
    exact ⟨_, _, bind_eq_ok_iff.mpr ⟨_, hedge, rfl⟩⟩
  | poll now =>
    obtain ⟨verdict, watch, hpoll⟩ := Watch.exists_poll now hs.bounded
      (by simp only [UInt64.size]; omega)
    exact ⟨_, _, bind_eq_ok_iff.mpr ⟨_, hpoll, rfl⟩⟩
  | takeJob =>
    obtain ⟨watch, htake⟩ := Watch.exists_takeJob (w := s.watch)
      (by simp only [UInt64.size]; omega)
    exact ⟨_, _, bind_eq_ok_iff.mpr ⟨_, htake, rfl⟩⟩
  | settle level window now =>
    rw [beq_iff_eq.mp hallows, Option.toList_some, List.length_singleton] at hends
    obtain ⟨event, watch, hsettle⟩ := Watch.exists_settle level window now
      (w := s.watch) (by omega)
    exact ⟨_, _, bind_eq_ok_iff.mpr ⟨_, hsettle, rfl⟩⟩
  | unreadable message =>
    obtain ⟨task, htask⟩ := Option.isSome_iff_exists.mp hallows
    rw [htask, Option.toList_some, List.length_singleton] at hends
    obtain ⟨watch, hfail⟩ := Watch.exists_unreadable message (w := s.watch)
      (by simp only [UInt64.size]; omega)
    exact ⟨_, _, bind_eq_ok_iff.mpr ⟨_, hfail, rfl⟩⟩
  | handled failure => exact ⟨_, _, rfl⟩
  | disarm => exact ⟨_, _, rfl⟩
  | takeUnreported => exact ⟨_, _, rfl⟩
  | snapshot => exact ⟨_, _, rfl⟩

/-- The check of a snapshot does not halt, also while a task is in hand. -/
theorem Sound.exists_accounted (hs : s.Sound) : ∃ b, s.watch.snapshot.accounted = .ok b := by
  have hends := hs.endings_le
  have hword := s.watch.windower.tally.edges.toNat_lt
  have hsum : (UInt64.ofNat (s.watch.windower.tally.endings + s.watch.task.toList.length)).toNat =
      s.watch.windower.tally.endings + s.watch.task.toList.length :=
    UInt64.toNat_ofNat_of_lt (by simp only [UInt64.size]; omega)
  rw [Option.length_toList] at hsum
  exact ⟨_, bind_eq_ok_iff.mpr ⟨_, (Tally.ended_eq_ok_iff _ _ _).mpr hsum, rfl⟩⟩

/-! ## Runs -/

section Run

variable {ops : List Watch.Op} {answers : List Watch.Answer}

/-- The edges that were counted are those before the teardown. -/
structure Counted (ops : List Watch.Op) (answers : List Watch.Answer) (s : Shift) : Prop where
  edges : s.watch.windower.tally.edges.toNat = answers.countP Watch.Answer.accepts
  accepted : answers.countP Watch.Answer.accepts = Watch.acceptedEdges ops
  torn : s.watch.windower.activity = .disarmed ↔ .disarm ∈ ops

/-- At the start no edge was counted. -/
theorem counted_start (source : UInt32) (length : Micros) (level : Bool) :
    Counted [] [] (start source length level) where
  edges := rfl
  accepted := rfl
  torn := ⟨Activity.noConfusion, fun h => absurd h List.not_mem_nil⟩

/-- An operation that is no edge counts none. -/
theorem Counted.concat (h : Counted ops answers s) (hop : op.isEdge = false)
    (haccepts : answer.accepts = false)
    (hedges : t.watch.windower.tally.edges = s.watch.windower.tally.edges)
    (htorn : t.watch.windower.activity = .disarmed ↔
      s.watch.windower.activity = .disarmed ∨ op = .disarm) :
    Counted (ops ++ [op]) (answers ++ [answer]) t where
  edges := by
    rw [hedges, List.countP_append, List.countP_singleton, haccepts]
    exact h.edges
  accepted := by
    rw [Watch.acceptedEdges_concat, List.countP_append, List.countP_singleton,
      List.countP_singleton, haccepts, hop, h.accepted]
    simp
  torn := by
    rw [htorn, h.torn, List.mem_append, List.mem_singleton, eq_comm (a := op)]

/-- An edge is counted unless it comes after the teardown. -/
theorem Counted.edge (h : Counted ops answers s) {armable : Bool} {answer : EdgeAnswer}
    {watch : Watch} (done : s.watch.edge now armable = .ok (answer, watch)) :
    Counted (ops ++ [.edge now armable]) (answers ++ [.edge answer]) { s with watch } := by
  obtain ⟨windower, hwindower, rfl⟩ := Watch.edge_eq_ok done
  have hcase := Windower.edge_eq_ok hwindower
  have hcount : [Watch.Answer.edge answer].countP Watch.Answer.accepts =
      if answer.outcome = .ignored then 0 else 1 := by
    rw [List.countP_singleton]
    simp [Watch.Answer.accepts]
  refine ⟨?_, ?_, ?_⟩
  · rw [List.countP_append, hcount, ← h.edges]
    exact hcase.edges_eq
  · rw [List.countP_append, hcount, h.accepted, Watch.acceptedEdges_concat]
    simp only [hcase.ignored_iff, h.torn]
    rfl
  · rw [List.mem_append, List.mem_singleton, or_iff_left Watch.Op.noConfusion, ← h.torn]
    exact hcase.disarmed_iff

/-- Every step keeps the count of the edges. -/
theorem Counted.step (h : Counted ops answers s) (hstep : s.step op = .ok (answer, t)) :
    Counted (ops ++ [op]) (answers ++ [answer]) t := by
  have stays (P : Prop) {op : Watch.Op} (hop : op ≠ .disarm) : P ↔ P ∨ op = .disarm :=
    (or_iff_left hop).symm
  cases step_eq_ok hstep with
  | edge done => exact h.edge done
  | poll done =>
    refine h.concat rfl rfl ?_ ?_
    · cases Watch.poll_eq_ok done with
      | quiet _ _ => rfl
      | expired asked _ => cases Windower.poll_eq_ok asked; rfl
    · rw [(Watch.poll_eq_ok done).disarmed_iff]
      exact stays _ Watch.Op.noConfusion
  | takeJob _ done =>
    obtain ⟨-, cancelled, -, rfl⟩ := Watch.takeJob_eq_ok done
    exact h.concat rfl rfl rfl (stays _ Watch.Op.noConfusion)
  | settle _ done =>
    obtain ⟨delivered, -, -, -, rfl⟩ := Watch.settle_eq_ok done
    exact h.concat rfl rfl rfl (stays _ Watch.Op.noConfusion)
  | unreadable _ done =>
    obtain ⟨failed, -, rfl⟩ := Watch.unreadable_eq_ok done
    exact h.concat rfl rfl rfl (stays _ Watch.Op.noConfusion)
  | handled failure =>
    refine h.concat rfl rfl ?_ ?_
    · exact congrArg (fun w : Windower => w.tally.edges) (Watch.windower_handled _ _)
    · rw [Watch.windower_handled]
      exact stays _ Watch.Op.noConfusion
  | disarm => exact h.concat rfl rfl rfl ⟨fun _ => .inr rfl, fun _ => rfl⟩
  | takeUnreported => exact h.concat rfl rfl rfl (stays _ Watch.Op.noConfusion)
  | snapshot => exact h.concat rfl rfl rfl (stays _ Watch.Op.noConfusion)

/-- The edges are counted after every run. -/
theorem counted_of_run {source : UInt32} {length : Micros} {level : Bool}
    (h : run step (start source length level) ops = .ok (answers, s)) : Counted ops answers s :=
  run_induction (counted_start source length level) (fun _ _ _ _ _ _ _ hm hstep => hm.step hstep) h

/-- An operation that is allowed does not halt if, with it, fewer edges come before the teardown
than a word can count. -/
theorem Sound.exists_apply_of_few (hs : s.Sound) (h : Counted ops answers s)
    (hallows : s.allows op = true) (few : Watch.acceptedEdges (ops ++ [op]) < UInt64.size) :
    ∃ answer watch, s.watch.apply op = .ok (answer, watch) := by
  rw [Watch.acceptedEdges_concat] at few
  by_cases hdis : Watch.Op.disarm ∈ ops
  · cases op with
    | edge now armable =>
      exact ⟨_, _, bind_eq_ok_iff.mpr
        ⟨_, Watch.edge_of_disarmed now armable (h.torn.mpr hdis), rfl⟩⟩
    | _ => exact hs.exists_apply _ hallows fun _ _ hedge => nomatch hedge
  · refine hs.exists_apply op hallows fun now armable hedge => ?_
    rw [if_neg hdis, hedge, ← h.accepted, ← h.edges] at few
    exact few

/-- **Runs are never stopped by a halt.** With fewer edges before the teardown than a word can
count, a run goes through to its end, or it comes to an operation that is not the worker's turn;
whatever the instants are, no sum and no difference fails, and nothing is delivered beyond the
number of edges. Nor does the check of a snapshot halt at any point of the run. The reason is that
the windows that have come to an end are at most the closed ones, and these at most the edges that
were accepted and found the timer armed. -/
theorem never_halts (source : UInt32) (length : Micros) (level : Bool)
    (few : Watch.acceptedEdges ops < UInt64.size) :
    ((∃ answers s, run step (start source length level) ops = .ok (answers, s)) ∨
      run step (start source length level) ops = .error .outOfTurn) ∧
    ∀ before after answers s, ops = before ++ after →
      run step (start source length level) before = .ok (answers, s) →
      (∃ b, s.watch.snapshot.accounted = .ok b) ∧
      s.watch.windower.tally.edges.toNat = answers.countP Watch.Answer.accepts ∧
      s.watch.windower.tally.delivered.toNat + s.watch.windower.tally.failed.toNat +
          s.watch.windower.tally.coalesced.toNat + s.watch.windower.tally.cancelled.toNat ≤
        s.watch.windower.tally.closed.toNat ∧
      s.watch.windower.tally.closed.toNat + s.watch.windower.tally.unarmed.toNat ≤
        s.watch.windower.tally.edges.toNat := by
  refine ⟨?_, fun before after answers s _ h => ?_⟩
  · cases hrun : run step (start source length level) ops with
    | ok p => exact .inl ⟨p.1, p.2, rfl⟩
    | error refused =>
      refine .inr ?_
      obtain ⟨before, op, after, answers, s, rfl, hbefore, hfails⟩ := run_eq_error_iff.mp hrun
      cases hallows : s.allows op with
      | false =>
        rw [step_of_not_allows hallows] at hfails
        rw [← Except.error.inj hfails]
      | true =>
        -- An operation that is allowed is performed, since there is room for another edge.
        have hroom := Watch.acceptedEdges_append_le (before ++ [op]) after
        rw [List.append_assoc, List.singleton_append] at hroom
        obtain ⟨answer, watch, happly⟩ := (sound_of_run hbefore).exists_apply_of_few
          (counted_of_run hbefore) hallows (Nat.lt_of_le_of_lt hroom few)
        rw [step_eq_ok_iff.mpr ⟨hallows, watch, happly, rfl⟩] at hfails
        cases hfails
  · have hs := sound_of_run h
    have hended := hs.balanced.ended
    have hedges := hs.bounded.edges
    refine ⟨hs.exists_accounted, (counted_of_run h).edges, ?_, by omega⟩
    simp only [Tally.endings] at hended
    omega

/-- Edges at both ends of time and out of order, one of them carried and one without the timer; then
a task is coalesced, one is settled, one cannot be read for, and one is cancelled. -/
def unordered : List Watch.Op :=
  [.edge 0xffffffffffffffff true, .edge 0 true, .edge 0xffffffffffffffff true,
    .poll 0xffffffffffffffff, .poll 0xffffffffffffffff, .edge 7 false, .takeJob, .edge 0 true,
    .settle true ⟨0xffffffffffffffff, 0xffffffffffffffff, 1, 3⟩ 0, .poll 0xfffffffffffffff0,
    .takeJob, .edge 3 true, .poll 20, .unreadable "no", .disarm, .edge 9 true, .takeJob]

/-- The run of `unordered` does not halt, and its counts bound each other. -/
theorem never_halts_unordered :
    Watch.acceptedEdges unordered < UInt64.size ∧
    ∃ answers s, run step (start 7 10 false) unordered = .ok (answers, s) ∧
      answers.countP Watch.Answer.accepts = 6 ∧
      s.watch.windower.tally.closed.toNat + s.watch.windower.tally.unarmed.toNat ≤
        s.watch.windower.tally.edges.toNat ∧
      s.watch.windower.tally.closed = 4 ∧ s.watch.windower.tally.unarmed = 1 ∧
      ∃ b, s.watch.snapshot.accounted = .ok b := by
  have hfew : Watch.acceptedEdges unordered < UInt64.size := by decide
  have hrun : (run step (start 7 10 false) unordered).map (fun p =>
      (p.1.countP Watch.Answer.accepts, p.2.watch.windower.tally.closed,
        p.2.watch.windower.tally.unarmed)) = .ok (6, 4, 1) := rfl
  obtain ⟨⟨answers, s, h⟩ | hout, hall⟩ := never_halts 7 10 false hfew
  · rw [h] at hrun
    simp only [Except.map, Except.ok.injEq, Prod.mk.injEq] at hrun
    obtain ⟨haccounted, -, -, hedges⟩ := hall unordered [] answers s (List.append_nil _).symm h
    exact ⟨hfew, answers, s, h, hrun.1, hedges, hrun.2.1, hrun.2.2, haccounted⟩
  · rw [hout] at hrun
    cases hrun

end Run

end Shift

end Settle
