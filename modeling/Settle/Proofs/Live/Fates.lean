import Settle.Proofs.Live.Core

/-!
# The fates of closed windows

A window that closes becomes the task that waits for the worker, and it has one of four fates: it
still waits, or it was taken, or the next window closed too early and it was coalesced, or the
teardown came and it was cancelled (`Fate`). Only one task waits at a time, and it is the window
that closed last. So the tasks that the worker takes are windows in the order in which they closed,
none of them twice, and those that are missing were coalesced or cancelled or still wait (`Fated`).
-/

namespace Settle.Live

/-- The report of the task that a sight shows to be taken. -/
def Sight.taken? : Sight → Option Report
  | .took (.run report) => some report
  | _ => none

/-- The reports of the tasks that were taken. -/
def takenReports (sights : List Sight) : List Report := sights.filterMap Sight.taken?

/-- What has become of a window that closed. -/
inductive Fate where
  /-- It waits for the worker. -/
  | queued
  /-- The worker has taken it. -/
  | taken
  /-- The next window closed while it waited. -/
  | coalesced
  /-- The watch was torn down while it waited. -/
  | cancelled
deriving DecidableEq

/-- Decides the fate of a window that waits. -/
def decideFate (fate : Fate) : Report × Fate → Report × Fate
  | (report, .queued) => (report, fate)
  | known => known

/-- The closed windows and their fates, after one more sight. -/
def Sight.fates (known : List (Report × Fate)) : Sight → List (Report × Fate)
  | .polled _ (.expired report) => known.map (decideFate .coalesced) ++ [(report, .queued)]
  | .took (.run _) => known.map (decideFate .taken)
  | .took .stop => known.map (decideFate .cancelled)
  | _ => known

/-- The closed windows and their fates. -/
def fates (sights : List Sight) : List (Report × Fate) := sights.foldl Sight.fates []

/-- The windows that have this fate. -/
def having (fate : Fate) (known : List (Report × Fate)) : List Report :=
  (known.filter (·.2 = fate)).map Prod.fst

variable {shown : List Sight} {c d : Core} {x : Sight} {past : List (Report × Fate)}

/-! ## One more sight -/

/-- The tasks taken up to a sight are those before it and the one it shows. -/
theorem takenReports_concat (shown : List Sight) (x : Sight) :
    takenReports (shown ++ [x]) = takenReports shown ++ x.taken?.toList :=
  filterMap_concat _ _ _

/-- A sight that shows no task taken adds none. -/
theorem takenReports_concat_of_none (h : x.taken? = none) :
    takenReports (shown ++ [x]) = takenReports shown := by
  rw [takenReports_concat, h, Option.toList_none, List.append_nil]

/-- The tasks that were taken can be told from the beats. -/
theorem takenReports_beats (sights : List Sight) :
    takenReports (beats sights) = takenReports sights := by
  refine filterMap_beats (fun x hx => ?_) sights
  cases x with
  | took job =>
    cases job with
    | run report => cases hx
    | _ => rfl
  | _ => rfl

/-- The fates up to a sight are those before it, as it changes them. -/
theorem fates_concat (shown : List Sight) (x : Sight) :
    fates (shown ++ [x]) = x.fates (fates shown) :=
  List.foldl_concat _ _ _ _

/-- The fates can be told from the beats. -/
theorem fates_beats (sights : List Sight) : fates (beats sights) = fates sights := by
  rw [fates, fates, beats, List.foldl_filter]
  congr 1
  funext known x
  split
  · rfl
  · next hx =>
    cases x with
    | polled now verdict =>
      cases verdict with
      | expired report => exact absurd rfl hx
      | _ => rfl
    | took job =>
      cases job with
      | nothing => rfl
      | _ => exact absurd rfl hx
    | _ => rfl

/-! ## The fate of a window -/

/-- Windows whose fate is decided are added to those that had that fate before. -/
theorem having_decided (fate fate' : Fate) (past : List (Report × Fate)) (reports : List Report) :
    having fate (past ++ reports.map (·, fate')) =
      having fate past ++ if fate' = fate then reports else [] := by
  rw [having, List.filter_append, List.map_append]
  refine congrArg (having fate past ++ ·) ?_
  split
  · next hsame => simp [hsame, List.filter_map, Function.comp_def]
  · next hother => simp [hother]

/-- Windows with one fate are these windows. -/
theorem map_fst_fates (fate : Fate) (reports : List Report) :
    (reports.map (·, fate)).map Prod.fst = reports := by
  rw [List.map_map]
  exact List.map_id reports

/-- The windows of one fate stand in the order in which they closed. -/
theorem having_sublist (fate : Fate) (known : List (Report × Fate)) :
    (having fate known).Sublist (known.map Prod.fst) :=
  List.filter_sublist.map _

/-- What is decided stays, and what waits is decided. -/
theorem map_decideFate (hpast : having .queued past = []) (fate : Fate) (reports : List Report) :
    (past ++ reports.map (·, Fate.queued)).map (decideFate fate) =
      past ++ reports.map (·, fate) := by
  have hsame : past.map (decideFate fate) = past := by
    rw [having, List.map_eq_nil_iff, List.filter_eq_nil_iff] at hpast
    refine (List.map_congr_left fun p hp => ?_).trans (List.map_id past)
    obtain ⟨report, known⟩ := p
    cases known with
    | queued => exact absurd rfl (hpast _ hp)
    | _ => rfl
  rw [List.map_append, hsame, List.map_map]
  rfl

/-- What is known of the closed windows: `past` are those that wait no longer. -/
structure Fated (past : List (Report × Fate)) (shown : List Sight) (c : Core) : Prop where
  all : fates shown = past ++ c.task.toList.map (·, .queued)
  closed : past.map Prod.fst ++ c.task.toList = closedReports shown
  queued : having .queued past = []
  taken : having .taken past = takenReports shown
  coalesced : (having .coalesced past).length = c.windower.tally.coalesced.toNat
  cancelled : (having .cancelled past).length = c.windower.tally.cancelled.toNat

/-- Most beats decide nothing. -/
theorem Fated.still (h : Fated past shown c) (hfates : x.fates (fates shown) = fates shown)
    (hclosed : x.closed? = none) (htaken : x.taken? = none) (htask : d.task = c.task)
    (hcoalesced : d.windower.tally.coalesced = c.windower.tally.coalesced)
    (hcancelled : d.windower.tally.cancelled = c.windower.tally.cancelled) :
    Fated past (shown ++ [x]) d where
  all := by rw [fates_concat, hfates, htask, h.all]
  closed := by
    rw [closedReports_concat, hclosed, Option.toList_none, List.append_nil, htask, h.closed]
  queued := h.queued
  taken := by rw [takenReports_concat_of_none htaken, h.taken]
  coalesced := by rw [hcoalesced, h.coalesced]
  cancelled := by rw [hcancelled, h.cancelled]

/-- A window that closes decides that the task that waits is coalesced. -/
theorem Fated.closing (h : Fated past shown c) {now : Instant} {report : Report}
    {windower : Windower} {coalesced : Count}
    (act : Windower.PollCase c.windower now (.expired report) windower)
    (replaced : coalesced.toNat = windower.tally.coalesced.toNat + c.task.toList.length) :
    Fated (past ++ c.task.toList.map (·, .coalesced)) (shown ++ [.polled now (.expired report)])
      { c with
        windower := { windower with tally := { windower.tally with coalesced } }
        task := some report } where
  all := by
    rw [fates_concat, h.all]
    exact congrArg (· ++ _) (map_decideFate h.queued _ _)
  closed := by
    rw [closedReports_concat, ← h.closed, List.map_append, map_fst_fates]
    rfl
  queued := by rw [having_decided, if_neg (by decide), List.append_nil, h.queued]
  taken := by
    rw [having_decided, if_neg (by decide), List.append_nil, h.taken,
      takenReports_concat_of_none rfl]
  coalesced := by
    rw [having_decided, if_pos rfl, List.length_append, h.coalesced, ← act.ends_eq.2.2.1]
    exact replaced.symm
  cancelled := by
    rw [having_decided, if_neg (by decide), List.append_nil, h.cancelled, ← act.ends_eq.2.2.2]

/-- The task that waits is taken. -/
theorem Fated.taking (h : Fated past shown c) {report : Report} (waits : c.task = some report) :
    Fated (past ++ [report].map (·, .taken)) (shown ++ [.took (.run report)])
      { c with task := none, progress := .taken report } where
  all := by
    rw [fates_concat, h.all, waits]
    exact (map_decideFate h.queued _ [report]).trans (List.append_nil _).symm
  closed := by
    rw [closedReports_concat, ← h.closed, waits, List.map_append, map_fst_fates]
    rfl
  queued := by rw [having_decided, if_neg (by decide), List.append_nil, h.queued]
  taken := by
    rw [having_decided, if_pos rfl, h.taken, takenReports_concat]
    rfl
  coalesced := by rw [having_decided, if_neg (by decide), List.append_nil, h.coalesced]
  cancelled := by rw [having_decided, if_neg (by decide), List.append_nil, h.cancelled]

/-- At the end the task that waits is cancelled. -/
theorem Fated.stopping (h : Fated past shown c) {cancelled : Count}
    (count : cancelled.toNat = c.windower.tally.cancelled.toNat + c.task.toList.length) :
    Fated (past ++ c.task.toList.map (·, .cancelled)) (shown ++ [.took .stop])
      { c with
        windower := { c.windower with tally := { c.windower.tally with cancelled } }
        task := none
        progress := .free } where
  all := by
    rw [fates_concat, h.all]
    exact (map_decideFate h.queued _ _).trans (List.append_nil _).symm
  closed := by
    rw [closedReports_concat, ← h.closed, List.map_append, map_fst_fates]
    rfl
  queued := by rw [having_decided, if_neg (by decide), List.append_nil, h.queued]
  taken := by
    rw [having_decided, if_neg (by decide), List.append_nil, h.taken,
      takenReports_concat_of_none rfl]
  coalesced := by rw [having_decided, if_neg (by decide), List.append_nil, h.coalesced]
  cancelled := by
    rw [having_decided, if_pos rfl, List.length_append, h.cancelled]
    exact count.symm

/-- Each beat decides the fate of a window, or of none. -/
theorem Fated.beat (h : Fated past shown c) (hbeat : Beat c x d) :
    ∃ past', Fated past' (shown ++ [x]) d := by
  cases hbeat with
  | edge act =>
    obtain ⟨-, -, hcoalesced, hcancelled⟩ := act.ends_eq
    exact ⟨past, h.still rfl rfl rfl rfl hcoalesced hcancelled⟩
  | closed act replaced => exact ⟨_, h.closing act replaced⟩
  | took waits _ => exact ⟨_, h.taking waits⟩
  | stopped _ _ count => exact ⟨_, h.stopping count⟩
  | _ => exact ⟨past, h.still rfl rfl rfl rfl rfl rfl⟩

/-! ## All fates -/

/-- What is known of the closed windows can be told from the beats. -/
theorem Fated.of_beats (h : Fated past (beats shown) c) : Fated past shown c where
  all := (fates_beats shown).symm.trans h.all
  closed := h.closed.trans (closedReports_beats shown)
  queued := h.queued
  taken := h.taken.trans (takenReports_beats shown)
  coalesced := h.coalesced
  cancelled := h.cancelled

/-- Each window that closed has one fate. -/
theorem Fated.map_fst (h : Fated past shown c) :
    (fates shown).map Prod.fst = closedReports shown := by
  rw [h.all, List.map_append, map_fst_fates, h.closed]

/-- The window that is queued is the task that waits. -/
theorem Fated.having_queued (h : Fated past shown c) :
    having .queued (fates shown) = c.task.toList := by
  rw [h.all, having_decided, if_pos rfl, h.queued, List.nil_append]

/-- The windows with a decided fate wait no longer. -/
theorem Fated.having_eq (h : Fated past shown c) (fate : Fate) (hdecided : Fate.queued ≠ fate) :
    having fate (fates shown) = having fate past := by
  rw [h.all, having_decided, if_neg hdecided, List.append_nil]

/-- The tasks that were taken are windows in the order in which they closed. -/
theorem Fated.takenReports_sublist (h : Fated past shown c) :
    (takenReports shown).Sublist (closedReports shown) := by
  rw [← h.taken, ← h.having_eq .taken nofun, ← h.map_fst]
  exact having_sublist _ _

end Settle.Live
