import Mathlib.Data.List.ReduceOption
import Settle.Proofs.Live.Steps
import Settle.Proofs.Watch.FaultHistory
import Settle.Trace

/-!
# Asking changes nothing but who is told

A snapshot that is taken through the hub does change the hub: it takes the faults that nobody has
been told about yet, and whoever takes them next gets fewer. This is all it changes, and all that
can be noticed of it. Every operation gives the same answer on a hub that has nothing to tell
(`Hub.muted`) as on the hub itself, the faults taken apart, and leaves the same hub behind, what it
has to tell apart (`apply_muted`). So if some of the snapshots are left out of a list of operations,
everything else goes on as before.

Nor is anybody told more often when snapshots are left out. A fault that one of them would have told
of stays unreported; then somebody else tells of it once, or it is withdrawn and nobody does. Of two
fault records the one that has told more is `Ahead` of the other, and what the other has told since
then is made up for by what it still owes (`Ahead.gap_le`).

Main statement: `looks_unobserved`.
-/

namespace Settle

/-! ## Two records of which one has told more -/

namespace FaultRecord

variable {r r' : FaultRecord}

/-- The faults that an answer tells of. -/
def Answer.told : Answer → FaultSet
  | .faults s => s
  | _ => .none

/-- The faults that are told of by an operation on the record, if there is one. -/
def toldBy (r : FaultRecord) : Option Op → FaultSet
  | none => .none
  | some op => (r.apply op).1.told

/-- How often a fault is still to be told of. -/
def owes (r : FaultRecord) (f : Fault) : Nat := (r.unreported.has f).toNat

/-- Two records have the same faults, and what is unreported in the first is so in the second. -/
structure Ahead (r r' : FaultRecord) : Prop where
  active : r.active = r'.active
  unreported : ∀ f, r.unreported.has f = true → r'.unreported.has f = true

/-- A record is no further than itself. -/
theorem Ahead.refl (r : FaultRecord) : r.Ahead r := ⟨rfl, fun _ => id⟩

/-- A record that has just told of everything is ahead. -/
theorem Ahead.takeUnreported (h : r.Ahead r') : r.takeUnreported.2.Ahead r' :=
  ⟨h.active, fun f hf => by simp at hf⟩

/-- A record that is ahead has no more faults to tell of. -/
theorem Ahead.owes_le (h : r.Ahead r') (f : Fault) : r.owes f ≤ r'.owes f := by
  unfold owes
  by_cases hf : r.unreported.has f = true
  · exact Nat.le_of_eq (congrArg Bool.toNat (hf.trans (h.unreported f hf).symm))
  · simp [hf]

/-- A record that is ahead stays so when both raise a fault. -/
theorem Ahead.raise (h : r.Ahead r') (f : Fault) : (r.raise f).Ahead (r'.raise f) := by
  refine ⟨congrArg (FaultSet.insert · f) h.active, fun g hg => ?_⟩
  rw [has_unreported_raise, Bool.or_eq_true, h.active] at hg
  rw [has_unreported_raise, Bool.or_eq_true]
  exact hg.imp_left (h.unreported g)

/-- A record that is ahead stays so when both withdraw a fault. -/
theorem Ahead.clear (h : r.Ahead r') (f : Fault) : (r.clear f).2.Ahead (r'.clear f).2 := by
  refine ⟨congrArg (FaultSet.erase · f) h.active, fun g hg => ?_⟩
  rw [has_unreported_clear, Bool.and_eq_true] at hg ⊢
  exact ⟨hg.1, h.unreported g hg.2⟩

/-- The record that is ahead stays ahead. -/
theorem Ahead.after (h : r.Ahead r') (op? : Option Op) : (r.after op?).Ahead (r'.after op?) := by
  rcases op? with _ | f | ⟨f, message⟩ | f | f | _
  · exact h
  · exact h.raise f
  · exact ⟨(h.raise f).active, (h.raise f).unreported⟩
  · exact h.clear f
  · exact h
  · exact ⟨h.active, fun _ => id⟩

/-- What the record behind has told more than the one ahead, it has owed more. -/
theorem Ahead.gap_le (h : r.Ahead r') (op? : Option Op) (f : Fault) :
    ((r'.toldBy op?).has f).toNat + (r'.after op?).owes f + r.owes f ≤
      ((r.toldBy op?).has f).toNat + (r.after op?).owes f + r'.owes f := by
  have hle := h.owes_le f
  have hraise (g : Fault) : (r'.raise g).owes f + r.owes f ≤ (r.raise g).owes f + r'.owes f := by
    unfold owes at hle ⊢
    rw [has_unreported_raise, has_unreported_raise, ← h.active]
    by_cases hg : (decide (g = f) && !r.active.has g) = true
    · simpa [hg] using hle
    · simp [hg, Nat.add_comm]
  have hclear (g : Fault) :
      (r'.clear g).2.owes f + r.owes f ≤ (r.clear g).2.owes f + r'.owes f := by
    unfold owes at hle ⊢
    rw [has_unreported_clear, has_unreported_clear]
    by_cases hg : g = f
    · simpa [hg] using hle
    · simp [hg, Nat.add_comm]
  rcases op? with _ | g | ⟨g, message⟩ | g | g | _
  · simp [toldBy, Nat.add_comm]
  · simpa [toldBy, apply, Answer.told] using hraise g
  · simpa [toldBy, apply, Answer.told, fail, owes] using hraise g
  · simpa [toldBy, apply, Answer.told] using hclear g
  · simp [toldBy, apply, Answer.told, Nat.add_comm]
  · have hnone (r : FaultRecord) : r.takeUnreported.2.owes f = 0 := by simp [owes]
    change r'.owes f + r'.takeUnreported.2.owes f + r.owes f ≤
      r.owes f + r.takeUnreported.2.owes f + r'.owes f
    rw [hnone, hnone]
    omega

end FaultRecord

/-! ## Watches that have nothing to tell -/

namespace Watch

variable {w v : Watch} {op : Op} {answer : Answer}

/-- A watch that has nothing to tell. -/
def muted (w : Watch) : Watch := { w with faults := w.faults.takeUnreported.2 }

/-- An answer that tells of no faults. -/
def Answer.muted : Answer → Answer
  | .faults _ => .faults .none
  | a => a

/-- The faults that an answer tells of. -/
def Answer.told : Answer → FaultSet
  | .faults s => s
  | _ => .none

/-- An answer and the watch after it, both without what they tell. -/
def mute (p : Answer × Watch) : Answer × Watch := (p.1.muted, p.2.muted)

/-- Neither an edge nor what follows from it depends on what there is to tell. -/
theorem edge_muted (w : Watch) (now : Instant) (armable : Bool) :
    Prod.map id muted <$> w.muted.edge now armable = Prod.map id muted <$> w.edge now armable := by
  have hwindower : w.muted.windower = w.windower := rfl
  unfold edge
  rw [hwindower]
  rcases w.windower.edge now armable with e | ⟨⟨outcome, asked⟩, windower⟩
  · simp only [bind, Except.bind]
  · rcases outcome <;>
      simp only [bind, Except.bind, pure, Except.pure, Functor.map, Except.map, Prod.map, muted,
        FaultRecord.takeUnreported, FaultRecord.raise]

/-- A task is queued whatever there is to tell. -/
theorem enqueue_muted (w : Watch) (report : Report) :
    w.muted.enqueue report = muted <$> w.enqueue report := by
  unfold enqueue
  rcases htask : w.task with _ | waiting
  · simp only [show w.muted.task = none from htask]
    rfl
  · simp only [show w.muted.task = some waiting from htask]
    change (Word.plus w.windower.tally.coalesced 1 >>= _) = _
    rcases Word.plus w.windower.tally.coalesced 1 with e | coalesced <;> rfl

/-- A poll does not depend on what there is to tell. -/
theorem poll_muted (w : Watch) (now : Instant) :
    w.muted.poll now = Prod.map id muted <$> w.poll now := by
  unfold poll
  change (w.windower.poll now >>= _) = _
  rcases w.windower.poll now with e | ⟨_ | _ | us | report, windower⟩
  case ok.expired =>
    change (({ w with windower } : Watch).muted.enqueue report >>= _) =
      _ <$> (({ w with windower } : Watch).enqueue report >>= _)
    rw [enqueue_muted, bind_map_left, map_bind]
    rfl
  all_goals rfl

/-- What the worker is told to do does not depend on what there is to tell. -/
theorem takeJob_muted (w : Watch) : w.muted.takeJob = Prod.map id muted <$> w.takeJob := by
  unfold takeJob
  rcases hdisarmed : w.windower.isDisarmed with _ | _ <;> rcases htask : w.task with _ | report
  all_goals simp only [show w.muted.windower = w.windower from rfl, hdisarmed,
    show w.muted.task = w.task from rfl, htask]
  case true.some => rcases Word.plus w.windower.tally.cancelled 1 with e | cancelled <;> rfl
  all_goals rfl

/-- No answer but that to the question for unreported faults depends on what there is to tell. -/
theorem apply_muted (w : Watch) (op : Op) : mute <$> w.muted.apply op = mute <$> w.apply op := by
  have hwindower : w.muted.windower = w.windower := rfl
  rcases op with ⟨now, armable⟩ | now | _ | ⟨level, window, now⟩ | message | failure | _ | _ | _
  case edge =>
    have hsplit (v : Watch) : mute <$> v.apply (.edge now armable) =
        Prod.map Answer.edge id <$> Prod.map id muted <$> v.edge now armable := by
      simp only [apply]
      rcases v.edge now armable with e | p <;> rfl
    rw [hsplit, hsplit, edge_muted]
  case poll => simp only [apply, poll_muted, bind_map_left, map_bind]; rfl
  case takeJob => simp only [apply, takeJob_muted, bind_map_left, map_bind]; rfl
  case settle =>
    simp only [apply, settle, hwindower]
    rcases w.windower.deliver with e | ⟨sequence, windower⟩ <;>
      simp only [bind, Except.bind, pure, Except.pure, Functor.map, Except.map, mute, muted,
        FaultRecord.takeUnreported, FaultRecord.clear]
  case unreadable =>
    simp only [apply, unreadable, hwindower]
    rcases Word.plus w.windower.tally.failed 1 with e | failed <;>
      simp only [bind, Except.bind, pure, Except.pure, Functor.map, Except.map, mute, muted,
        setTally, FaultRecord.takeUnreported, FaultRecord.fail, FaultRecord.raise]
  case handled =>
    rcases failure with _ | message <;>
      simp only [apply, handled, pure, Except.pure, Functor.map, Except.map, mute, muted,
        FaultRecord.takeUnreported, FaultRecord.clear, FaultRecord.fail, FaultRecord.raise]
  all_goals rfl

/-- What is told is what the operation on the fault record tells. -/
theorem told_of_apply (h : w.apply op = .ok (answer, v)) :
    answer.told = w.faults.toldBy (op.onFaults? answer) := by
  rcases apply_eq_ok h with @⟨now, armable, answer, v, -⟩ | _ | _ | _ | _ | failure | _ | _ | _
  case edge =>
    by_cases hdegraded : (Answer.edge answer).isDegraded = true <;>
      simp [Op.onFaults?, hdegraded, FaultRecord.toldBy, FaultRecord.apply] <;> rfl
  case handled => rcases failure with _ | message <;> rfl
  all_goals rfl

/-- What is done to the fault record does not depend on what is told. -/
theorem onFaults?_muted (op : Op) (answer : Answer) :
    op.onFaults? answer.muted = op.onFaults? answer := by
  have hsame : answer.muted.isDegraded = answer.isDegraded := by rcases answer <;> rfl
  rcases op <;> simp only [Op.onFaults?, hsame]

end Watch

/-! ## Hubs that have nothing to tell -/

namespace Hub

variable {h k h' k' : Hub} {op : Op} {answer answer' : Answer}

/-- A hub that has nothing to tell, as a snapshot leaves it. -/
def muted (h : Hub) : Hub := h.look.2

/-- An answer that tells of no faults. -/
def Answer.muted : Answer → Answer
  | .look snapshot _ => .look snapshot .none
  | .watch answer => .watch answer.muted
  | answer => answer

/-- The faults that an answer tells of. -/
def Answer.told : Answer → FaultSet
  | .look _ told => told
  | .watch answer => answer.told
  | _ => .none

/-- An answer and the hub after it, both without what they tell. -/
def mute (p : Answer × Hub) : Answer × Hub := (p.1.muted, p.2.muted)

/-- What an operation does to the fault record, when this is its answer. -/
def Op.onFaults? (answer : Answer) : Op → Option FaultRecord.Op
  | .edge now =>
    match answer with
    | .edge answer => Watch.Op.onFaults? (.edge answer) (.edge now true)
    | _ => none
  | .look => some .takeUnreported
  | .watch op =>
    match answer with
    | .watch answer => op.onFaults? answer
    | _ => none
  | _ => none

/-- What an operation on a hub answers and does depends on nothing that there is to tell. -/
theorem apply_muted (h : Hub) (op : Op) : mute <$> h.muted.apply op = mute <$> h.apply op := by
  rcases op with _ | _ | _ | _ | _ | now | _ | op
  case edge =>
    have hsplit (k : Hub) : mute <$> k.apply (.edge now) =
        (fun p => (Answer.edge p.1,
          if p.1.outcome.opensWindow then wake { k.muted with watch := p.2 }
          else { k.muted with watch := p.2 })) <$>
          Prod.map id Watch.muted <$> k.watch.edge now k.armable := by
      simp only [apply, edge]
      rcases k.watch.edge now k.armable with e | ⟨⟨_ | _ | _ | _ | _, asked⟩, watch⟩ <;> rfl
    rw [hsplit, hsplit, ← Watch.edge_muted h.watch]
    rfl
  case watch =>
    have hsplit (k : Hub) : mute <$> k.apply (.watch op) =
        Prod.map Answer.watch (fun watch => { k.muted with watch }) <$>
          Watch.mute <$> k.watch.apply op := by
      simp only [apply]
      rcases k.watch.apply op with e | p <;> rfl
    rw [hsplit, hsplit, ← Watch.apply_muted h.watch]
    rfl
  all_goals rfl

/-- What is done to the fault record does not depend on what is told. -/
theorem onFaults?_of_muted (op : Op) (h : answer.muted = answer'.muted) :
    op.onFaults? answer = op.onFaults? answer' := by
  have hmuted (a : Answer) : op.onFaults? a.muted = op.onFaults? a := by
    rcases op with _ | _ | _ | _ | _ | now | _ | op <;> rcases a with _ | _ | _ | _ | a
    case watch.watch => exact Watch.onFaults?_muted op a
    all_goals rfl
  rw [← hmuted, h, hmuted]

/-- An operation does to the fault record what its answer says, and tells what that tells. -/
theorem faults_of_apply (happly : h.apply op = .ok (answer, k)) :
    k.watch.faults = h.watch.faults.after (op.onFaults? answer) ∧
      answer.told = h.watch.faults.toldBy (op.onFaults? answer) := by
  rcases op with _ | _ | _ | _ | _ | now | _ | op
  case edge =>
    simp only [apply, bind_eq_ok_iff, pure_eq_ok_iff, Prod.exists, Prod.mk.injEq] at happly
    obtain ⟨answer, k, hedge, rfl, rfl⟩ := happly
    obtain ⟨watch, hwatch, rfl⟩ := edge_eq_ok hedge
    have happly : h.watch.apply (.edge now h.armable) = .ok (.edge answer, watch) :=
      bind_eq_ok_iff.mpr ⟨_, hwatch, rfl⟩
    exact ⟨Watch.faults_of_apply happly, Watch.told_of_apply happly⟩
  case watch =>
    simp only [apply, bind_eq_ok_iff, pure_eq_ok_iff, Prod.exists, Prod.mk.injEq] at happly
    obtain ⟨answer, watch, hwatch, rfl, rfl⟩ := happly
    exact ⟨Watch.faults_of_apply hwatch, Watch.told_of_apply hwatch⟩
  all_goals
    cases happly
    exact ⟨rfl, rfl⟩

/-! ## Two hubs that differ in what they have to tell -/

/-- Of two hubs that are the same but for what they have to tell, the first has told more. -/
structure Ahead (h h' : Hub) : Prop where
  same : h.muted = h'.muted
  faults : h.watch.faults.Ahead h'.watch.faults

/-- A hub is no further than itself. -/
theorem Ahead.refl (h : Hub) : h.Ahead h := ⟨rfl, .refl _⟩

/-- A snapshot that one of them is asked for alone lets it get further ahead. -/
theorem Ahead.look (h : Ahead k k') : k.muted.Ahead k' := ⟨h.same, h.faults.takeUnreported⟩

/-- Both halt for the same reason, or give the same answer but for the faults told in it. -/
theorem Ahead.apply_cases (h : Ahead k k') (op : Op) :
    (∃ e, k.apply op = .error e ∧ k'.apply op = .error e) ∨
      ∃ answer l answer' l', k.apply op = .ok (answer, l) ∧ k'.apply op = .ok (answer', l') ∧
        mute (answer, l) = mute (answer', l') := by
  have hsame : mute <$> k.apply op = mute <$> k'.apply op := by
    rw [← apply_muted, h.same, apply_muted]
  rcases happly : k.apply op with e | ⟨answer, l⟩ <;>
    rcases happly' : k'.apply op with e' | ⟨answer', l'⟩ <;> rw [happly, happly'] at hsame
  · cases hsame
    exact .inl ⟨e, rfl, rfl⟩
  · cases hsame
  · cases hsame
  · exact .inr ⟨answer, l, answer', l', rfl, rfl, Except.ok.inj hsame⟩

/-- An operation performed by both leaves the first ahead, and does not let the second tell more
than it has owed more. -/
theorem Ahead.next {l l' : Hub} (h : Ahead k k') (happly : k.apply op = .ok (answer, l))
    (happly' : k'.apply op = .ok (answer', l')) (hsame : mute (answer, l) = mute (answer', l')) :
    Ahead l l' ∧ ∀ f,
      (answer'.told.has f).toNat + l'.watch.faults.owes f + k.watch.faults.owes f ≤
        (answer.told.has f).toNat + l.watch.faults.owes f + k'.watch.faults.owes f := by
  obtain ⟨hanswer, hmuted⟩ := Prod.mk.inj hsame
  obtain ⟨hfaults, htold⟩ := faults_of_apply happly
  obtain ⟨hfaults', htold'⟩ := faults_of_apply happly'
  have hop := onFaults?_of_muted op hanswer
  rw [hop] at hfaults htold
  refine ⟨⟨hmuted, ?_⟩, fun f => ?_⟩
  · rw [hfaults, hfaults']
    exact h.faults.after _
  · rw [hfaults, hfaults', htold, htold']
    exact h.faults.gap_le _ f

/-! ## Lists of operations with snapshots left out -/

/-- Whether what is seen of an operation tells of a fault. -/
def tells (f : Fault) : Except Halt (Answer × Hub) → Bool
  | .error _ => false
  | .ok (answer, _) => answer.told.has f

/-- What is seen of those calls that are not left out. -/
def keptOf {α : Type} (calls : List (Option Op)) (seen : List α) : List α :=
  (calls.zip seen).filterMap fun c => c.1.map fun _ => c.2

/-- The answer to an operation is kept. -/
@[simp] theorem keptOf_cons_some {α : Type} (op : Op) (calls : List (Option Op)) (a : α)
    (seen : List α) : keptOf (some op :: calls) (a :: seen) = a :: keptOf calls seen := rfl

/-- Of no answers none are kept. -/
theorem keptOf_nil {α : Type} (calls : List (Option Op)) : keptOf calls ([] : List α) = [] := by
  rw [keptOf, List.zip_nil_right, List.filterMap_nil]

/-- A muted hub has nothing to tell. -/
@[simp] theorem owes_muted (h : Hub) (f : Fault) : h.muted.watch.faults.owes f = 0 := by
  change (FaultSet.has .none f).toNat = 0
  simp

/-- An answer tells of a fault when the fault is among those it told of. -/
theorem countP_tells_cons_ok (f : Fault) (p : Answer × Hub)
    (seen : List (Except Halt (Answer × Hub))) :
    (.ok p :: seen).countP (tells f) = seen.countP (tells f) + (p.1.told.has f).toNat := by
  rw [List.countP_cons]
  by_cases htells : p.1.told.has f = true <;> simp [tells, htells]

/-- What is seen of two hubs, of which the one ahead is asked for more snapshots. -/
theorem Ahead.trace_eq (h : Ahead k k') (calls : List (Option Op)) :
    (keptOf calls (trace apply k (calls.map (·.getD .look)))).map (mute <$> ·) =
        (trace apply k' calls.reduceOption).map (mute <$> ·) ∧
      ∀ f, (trace apply k' calls.reduceOption).countP (tells f) + k.watch.faults.owes f ≤
        (trace apply k (calls.map (·.getD .look))).countP (tells f) + k'.watch.faults.owes f := by
  induction calls generalizing k k' with
  | nil => exact ⟨rfl, fun f => by simpa using h.faults.owes_le f⟩
  | cons call calls ih =>
    rcases call with _ | op
    · obtain ⟨hseen, htold⟩ := ih h.look
      have hlook : trace apply k ((none :: calls).map (·.getD .look)) =
          .ok (.look k.watch.snapshot k.watch.faults.unreported, k.muted) ::
            trace apply k.muted (calls.map (·.getD .look)) := rfl
      rw [hlook, List.reduceOption_cons_of_none]
      refine ⟨hseen, fun f => ?_⟩
      have hrest := htold f
      rw [owes_muted] at hrest
      rw [countP_tells_cons_ok]
      change _ + k.watch.faults.owes f ≤ _ + k.watch.faults.owes f + _
      omega
    · rw [List.map_cons, Option.getD_some, List.reduceOption_cons_of_some]
      rcases h.apply_cases op with ⟨e, happly, happly'⟩ |
        ⟨answer, l, answer', l', happly, happly', hsame⟩
      · rw [trace_cons_of_error happly, trace_cons_of_error happly', keptOf_cons_some, keptOf_nil]
        exact ⟨rfl, fun f => by simpa [tells] using h.faults.owes_le f⟩
      · obtain ⟨hnext, hgap⟩ := h.next happly happly' hsame
        obtain ⟨hseen, htold⟩ := ih hnext
        rw [trace_cons_of_ok happly, trace_cons_of_ok happly', keptOf_cons_some, List.map_cons,
          List.map_cons, hseen]
        refine ⟨congrArg (· :: _) (congrArg Except.ok hsame), fun f => ?_⟩
        rw [countP_tells_cons_ok, countP_tells_cons_ok]
        dsimp only
        have hrest := htold f
        have hstep := hgap f
        omega

/-- Up to the first snapshot that is left out nothing changes at all. -/
theorem trace_take (h : Hub) (calls : List (Option Op)) :
    (trace apply h (calls.map (·.getD .look))).take (calls.takeWhile Option.isSome).length =
      (trace apply h calls.reduceOption).take (calls.takeWhile Option.isSome).length := by
  induction calls generalizing h with
  | nil => rfl
  | cons call calls ih =>
    rcases call with _ | op
    · rfl
    · rw [List.map_cons, Option.getD_some, List.reduceOption_cons_of_some,
        List.takeWhile_cons_of_pos rfl, List.length_cons]
      rcases happly : h.apply op with e | ⟨answer, k⟩
      · rw [trace_cons_of_error happly, trace_cons_of_error happly]
      · rw [trace_cons_of_ok happly, trace_cons_of_ok happly, List.take_succ_cons,
          List.take_succ_cons, ih]

/-- **Asking changes nothing but who is told.** Take any list of operations on a hub, and leave out
any of its snapshots, the ones that are marked `none`. Up to the first that is left out, what is seen
of the others is the same as before. After it, it is the same but for the faults that are told: every
answer and every halt, every field of the snapshots that remain, and the hub after each operation,
its signal included. And no fault is told of more often than before, be it by a snapshot or to
somebody who takes what is unreported. -/
theorem looks_unobserved (h : Hub) (calls : List (Option Op)) :
    let full := trace apply h (calls.map (·.getD .look))
    let thinned := trace apply h calls.reduceOption
    let n := (calls.takeWhile Option.isSome).length
    full.take n = thinned.take n ∧
      (keptOf calls full).map (mute <$> ·) = thinned.map (mute <$> ·) ∧
      ∀ f, thinned.countP (tells f) ≤ full.countP (tells f) := by
  obtain ⟨hseen, htold⟩ := (Ahead.refl h).trace_eq calls
  exact ⟨trace_take h calls, hseen, fun f => Nat.le_of_add_le_add_right (htold f)⟩

/-- The edge's fault is told of by the first snapshot or, if that is left out, by the second, and
the handler's, which is withdrawn and comes again, twice or once. -/
example :
    let calls := [some (Op.edge 0), some (.watch (.handled (some "no"))), none,
      some (.watch (.handled none)), some (.watch (.handled (some "no"))), some .look]
    let h : Hub := { watch := Watch.new 7 10 false }
    let full := trace apply h (calls.map (·.getD .look))
    let thinned := trace apply h calls.reduceOption
    (full.countP (tells .timerUnavailable), thinned.countP (tells .timerUnavailable)) = (1, 1) ∧
      (full.countP (tells .handlerFailed), thinned.countP (tells .handlerFailed)) = (2, 1) := by
  decide

end Hub

end Settle
