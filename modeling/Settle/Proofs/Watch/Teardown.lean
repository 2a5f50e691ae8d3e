import Settle.Proofs.Watch.Bounds

/-!
# The teardown is final

After the teardown edges are ignored and never ask for the timer, polls and the worker's questions
are answered with *stop*, and nothing brings the watch back. What is counted about edges and windows
stands still. Two things are left to be finished, and each is finished at most once: the task that
waits in the queue is cancelled by the worker's next question, and the task in the worker's hand is
recorded as settled or as unreadable. No other task is ever handed out, so at most one delivery is
recorded after the teardown, and only for the task that was in hand.

`Finishing s ops t` says what the operations `ops` that follow a teardown in state `s` have finished
when they have led to state `t`, and `Final s ops t` adds how `t` answers.

Main statement: `final_of_run`.
-/

namespace Settle

/-- Whether an operation records that a task was settled. -/
def Watch.Op.settles : Watch.Op → Bool
  | .settle .. => true
  | _ => false

/-- Whether an operation records that the line could not be read for a task. -/
def Watch.Op.fails : Watch.Op → Bool
  | .unreadable _ => true
  | _ => false

namespace Shift

variable {s m t : Shift} {op : Watch.Op} {ops : List Watch.Op} {answer : Watch.Answer}

/-- What is left to be finished after a teardown in state `s`, and what of it the operations `ops`
have finished. -/
structure Finishing (s : Shift) (ops : List Watch.Op) (t : Shift) : Prop where
  /-- Only three counts can change: deliveries, failures and cancelled tasks. -/
  windower : ∃ delivered failed cancelled,
    t.watch.windower =
      { s.watch.windower with
        activity := .disarmed
        tally := { s.watch.windower.tally with delivered, failed, cancelled } } ∧
      delivered.toNat = s.watch.windower.tally.delivered.toNat + ops.countP Watch.Op.settles ∧
      failed.toNat = s.watch.windower.tally.failed.toNat + ops.countP Watch.Op.fails ∧
      cancelled.toNat = s.watch.windower.tally.cancelled.toNat +
        (if .takeJob ∈ ops then s.watch.task.toList.length else 0)
  /-- The task in the queue waits for the worker's next question. -/
  task : t.watch.task = if .takeJob ∈ ops then none else s.watch.task
  /-- The task in hand is recorded once. -/
  recorded : ops.countP Watch.Op.settles + ops.countP Watch.Op.fails + t.inHand.toList.length =
    s.inHand.toList.length
  /-- No other task comes into the worker's hand. -/
  hand : t.inHand = none ∨ t.inHand = s.inHand
  /-- No other task is recorded as settled. -/
  own : ∀ level window now, .settle level window now ∈ ops → s.inHand = some window

/-- Right after the teardown nothing has been done yet. -/
theorem finishing_disarm (s : Shift) : Finishing s [] { s with watch := s.watch.disarm.2 } where
  windower := ⟨_, _, _, rfl, rfl, rfl, rfl⟩
  task := rfl
  recorded := Nat.zero_add _
  hand := .inr rfl
  own := nofun

/-- The watch stays torn down. -/
theorem Finishing.torn (h : Finishing s ops t) : t.watch.windower.activity = .disarmed := by
  obtain ⟨delivered, failed, cancelled, heq, -⟩ := h.windower
  rw [heq]

/-! ## Each operation finishes at most one thing -/

/-- Apart from the worker's questions, an operation changes at most the numbers of deliveries and
failures, by what it records of the task in hand. -/
theorem Finishing.concat (h : Finishing s ops m) (hasks : op ≠ .takeJob) {delivered failed : Count}
    (hwindower : t.watch.windower = { m.watch.windower with
      tally := { m.watch.windower.tally with delivered, failed } })
    (hdelivered : delivered.toNat =
      m.watch.windower.tally.delivered.toNat + [op].countP Watch.Op.settles)
    (hfailed : failed.toNat = m.watch.windower.tally.failed.toNat + [op].countP Watch.Op.fails)
    (htask : t.watch.task = m.watch.task)
    (hrecorded : [op].countP Watch.Op.settles + [op].countP Watch.Op.fails +
      t.inHand.toList.length = m.inHand.toList.length)
    (hhand : t.inHand = none ∨ t.inHand = m.inHand)
    (hown : ∀ level window now, op = .settle level window now → m.inHand = some window) :
    Finishing s (ops ++ [op]) t := by
  obtain ⟨delivered', failed', cancelled, hbefore, hdelivered', hfailed', hcancelled⟩ := h.windower
  rw [hbefore] at hwindower hdelivered hfailed
  have hmem : (.takeJob ∈ ops ++ [op]) = (.takeJob ∈ ops) := by
    rw [List.mem_append, List.mem_singleton, eq_iff_iff, or_iff_left hasks.symm]
  refine ⟨⟨delivered, failed, cancelled, hwindower, ?_, ?_, ?_⟩, ?_, ?_, ?_, ?_⟩
  · rw [hdelivered, hdelivered', List.countP_append, Nat.add_assoc]
  · rw [hfailed, hfailed', List.countP_append, Nat.add_assoc]
  · simp only [hmem]
    exact hcancelled
  · simp only [htask, hmem]
    exact h.task
  · have hrecorded' := h.recorded
    rw [List.countP_append, List.countP_append]
    omega
  · rcases hhand with hnone | hsame
    · exact .inl hnone
    · rw [hsame]
      exact h.hand
  · intro level window now hsettle
    rcases List.mem_append.mp hsettle with hbefore | hlast
    · exact h.own level window now hbefore
    · have hholds := hown level window now (List.mem_singleton.mp hlast).symm
      rcases h.hand with hnone | hsame
      · rw [hnone] at hholds
        cases hholds
      · exact hsame.symm.trans hholds

/-- Most operations finish nothing. -/
theorem Finishing.of_same (h : Finishing s ops m) (hwindower : t.watch.windower = m.watch.windower)
    (htask : t.watch.task = m.watch.task) (hhand : t.inHand = m.inHand)
    (hasks : op ≠ .takeJob) (hsettles : op.settles = false) (hfails : op.fails = false) :
    Finishing s (ops ++ [op]) t := by
  refine h.concat hasks hwindower ?_ ?_ htask ?_ (.inr hhand) ?_
  · rw [List.countP_singleton, hsettles]
    rfl
  · rw [List.countP_singleton, hfails]
    rfl
  · rw [List.countP_singleton, List.countP_singleton, hsettles, hfails, hhand]
    exact Nat.zero_add _
  · rintro level window now rfl
    cases hsettles

/-- The first question of the worker cancels the task that waits; after that none waits. -/
theorem Finishing.takeJob (h : Finishing s ops m) {job : Job} {watch : Watch}
    (empty : m.inHand = none) (done : m.watch.takeJob = .ok (job, watch)) :
    Finishing s (ops ++ [.takeJob]) { watch, inHand := (Watch.Answer.job job).taken? } := by
  obtain ⟨rfl, cancelled, hcount, rfl⟩ := Watch.takeJob_eq_ok done
  obtain ⟨delivered, failed, before, hwindower, hdelivered, hfailed, hbefore⟩ := h.windower
  have hrecorded := h.recorded
  have htask := h.task
  have hmem : Watch.Op.takeJob ∈ ops ++ [.takeJob] :=
    List.mem_append_right _ (List.mem_singleton_self _)
  rw [Watch.jobNow_of_disarmed h.torn]
  rw [if_pos (Windower.isDisarmed_eq_true_iff.mpr h.torn)] at hcount
  refine ⟨⟨delivered, failed, cancelled, ?_, ?_, ?_, ?_⟩, ?_, ?_, .inl rfl, ?_⟩
  · rw [Watch.windower_setTally, hwindower]
  · rw [List.countP_append]
    exact hdelivered
  · rw [List.countP_append]
    exact hfailed
  · have hcancelled : m.watch.windower.tally.cancelled = before := by
      rw [hwindower]
    rw [if_pos hmem, hcount, hcancelled, hbefore, htask]
    by_cases hasked : Watch.Op.takeJob ∈ ops
    · rw [if_pos hasked, if_pos hasked, Option.toList_none, List.length_nil, Nat.add_zero]
    · rw [if_neg hasked, if_neg hasked, Nat.add_zero]
  · rw [if_pos hmem]
  · rw [List.countP_append, List.countP_append]
    rw [empty] at hrecorded
    exact hrecorded
  · intro level window now hsettle
    rcases List.mem_append.mp hsettle with hbefore | hlast
    · exact h.own level window now hbefore
    · cases List.mem_singleton.mp hlast

/-- Whatever operation comes next, it finishes at most one thing. -/
theorem Finishing.step (h : Finishing s ops m) (hstep : m.step op = .ok (answer, t)) :
    Finishing s (ops ++ [op]) t := by
  cases step_eq_ok hstep with
  | edge done =>
    rw [Watch.edge_of_disarmed _ _ h.torn] at done
    cases done
    exact h.of_same rfl rfl rfl Watch.Op.noConfusion rfl rfl
  | poll done =>
    rw [Watch.poll_of_disarmed _ h.torn] at done
    cases done
    exact h.of_same rfl rfl rfl Watch.Op.noConfusion rfl rfl
  | takeJob empty done => exact h.takeJob empty done
  | settle holds done =>
    obtain ⟨delivered, hnext, -, -, rfl⟩ := Watch.settle_eq_ok done
    refine h.concat Watch.Op.noConfusion rfl hnext rfl rfl (by rw [holds]; rfl) (.inl rfl) ?_
    rintro _ _ _ ⟨⟩
    exact holds
  | unreadable holds done =>
    obtain ⟨failed, hnext, rfl⟩ := Watch.unreadable_eq_ok done
    exact h.concat Watch.Op.noConfusion rfl rfl hnext rfl (by rw [holds]; rfl) (.inl rfl) nofun
  | handled failure =>
    exact h.of_same (Watch.windower_handled _ _) (Watch.task_handled _ _) rfl
      Watch.Op.noConfusion rfl rfl
  | disarm =>
    rw [Watch.disarm_of_disarmed h.torn]
    exact h.of_same rfl rfl rfl Watch.Op.noConfusion rfl rfl
  | takeUnreported => exact h.of_same rfl rfl rfl Watch.Op.noConfusion rfl rfl
  | snapshot => exact h.of_same rfl rfl rfl Watch.Op.noConfusion rfl rfl

/-- What the operations after a teardown have finished. -/
theorem finishing_of_run {answers : List Watch.Answer}
    (h : run step { s with watch := s.watch.disarm.2 } ops = .ok (answers, t)) :
    Finishing s ops t :=
  run_induction (P := fun ops _ t => Finishing s ops t) (finishing_disarm s)
    (fun _ _ _ _ _ _ _ hm hstep => hm.step hstep) h

/-- A task that was queued at the teardown is cancelled or still waits. -/
theorem Finishing.cancelled_add_task (h : Finishing s ops t) :
    t.watch.windower.tally.cancelled.toNat + t.watch.task.toList.length =
      s.watch.windower.tally.cancelled.toNat + s.watch.task.toList.length := by
  obtain ⟨delivered, failed, cancelled, hwindower, -, -, hcancelled⟩ := h.windower
  have htally : t.watch.windower.tally.cancelled = cancelled := by
    rw [hwindower]
  rw [htally, hcancelled, h.task]
  by_cases hasked : Watch.Op.takeJob ∈ ops
  · rw [if_pos hasked, if_pos hasked, Option.toList_none, List.length_nil, Nat.add_zero]
  · rw [if_neg hasked, if_neg hasked, Nat.add_zero]

/-- What holds in state `t` after the operations `ops` that follow a teardown in state `s`. -/
structure Final (s : Shift) (ops : List Watch.Op) (t : Shift) : Prop extends Finishing s ops t where
  /-- No operation that is allowed halts. -/
  performed : ∀ op, t.allows op = true → ∃ answer v, t.step op = .ok (answer, v)
  /-- Every edge is ignored, asks for no timer and changes nothing. -/
  ignored : ∀ now armable,
    t.watch.edge now armable = .ok ({ outcome := .ignored, asked := none }, t.watch)
  /-- Every poll is answered with *stop* and changes nothing. -/
  polled : ∀ now, t.watch.poll now = .ok (.stop, t.watch)
  /-- Every question of the worker is answered with *stop*. -/
  asked : ∃ watch, t.watch.takeJob = .ok (.stop, watch)
  /-- Another teardown finds nothing to tear down and changes nothing. -/
  again : t.watch.disarm = (false, t.watch)

/-- The teardown of a watch is final: in whatever order operations come after it, none of them
halts, nothing brings the watch back, and only what was left is finished. -/
theorem final_of_run {source : UInt32} {length : Micros} {level : Bool} {ops' : List Watch.Op}
    {answers answers' : List Watch.Answer}
    (h : run step (start source length level) ops = .ok (answers, s))
    (h' : run step { s with watch := s.watch.disarm.2 } ops' = .ok (answers', t)) :
    Final s ops' t := by
  have ht := finishing_of_run h'
  have hsound : t.Sound := by
    have hteardown : s.step .disarm =
        .ok (.wasPending s.watch.disarm.1, { s with watch := s.watch.disarm.2 }) := rfl
    exact run_invariant ((sound_of_run h).step hteardown) (fun _ _ _ _ hm hstep => hm.step hstep) h'
  refine ⟨ht, ?_, fun now armable => Watch.edge_of_disarmed now armable ht.torn,
    fun now => Watch.poll_of_disarmed now ht.torn, ?_, Watch.disarm_of_disarmed ht.torn⟩
  · intro op hallows
    have happly : ∃ answer watch, t.watch.apply op = .ok (answer, watch) := by
      cases op with
      | edge now armable =>
        exact ⟨_, _, bind_eq_ok_iff.mpr ⟨_, Watch.edge_of_disarmed now armable ht.torn, rfl⟩⟩
      | _ => exact hsound.exists_apply _ hallows fun _ _ hedge => nomatch hedge
    obtain ⟨answer, watch, happly⟩ := happly
    exact ⟨answer, _, step_eq_ok_iff.mpr ⟨hallows, watch, happly, rfl⟩⟩
  · have hcancelled := hsound.balanced.cancelled_le
    have htask := t.watch.task.length_toList_le
    rw [← Watch.jobNow_of_disarmed ht.torn]
    exact Watch.exists_takeJob (by simp only [UInt64.size]; omega)

end Shift

end Settle
