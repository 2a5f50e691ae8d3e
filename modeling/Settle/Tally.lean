import Settle.Word

/-!
# Tallies

What is counted about one line: its edges, what became of the windows they were grouped into, and
the shortest and longest time between two edges in a row. Every closed window ends in exactly one
of four counts (delivered, failed, coalesced, cancelled) or is the one task still queued;
`Tally.accounted` compares the two sides.
-/

namespace Settle

/-- The counts kept for one line. -/
structure Tally where
  /-- Edges accepted, whatever became of them. -/
  edges : Count := 0
  /-- Settled events delivered. -/
  delivered : Count := 0
  /-- Windows that reached their deadline. -/
  closed : Count := 0
  /-- Closed windows whose task replaced one still queued. -/
  coalesced : Count := 0
  /-- Queued tasks given up because the line was disarmed. -/
  cancelled : Count := 0
  /-- Tasks that could not read the line. -/
  failed : Count := 0
  /-- Edges for which no deadline could be armed. -/
  unarmed : Count := 0
  /-- The shortest positive gap between two edges in a row. -/
  shortestGap : Option Micros := none
  /-- The longest positive gap between two edges in a row. -/
  longestGap : Option Micros := none
deriving DecidableEq, Repr

namespace Tally

/-- The smaller of a gap and the least one so far, if there is one so far. -/
def least (gap : Micros) : Option Micros → Micros
  | none => gap
  | some g => min g gap

/-- The larger of a gap and the greatest one so far, if there is one so far. -/
def greatest (gap : Micros) : Option Micros → Micros
  | none => gap
  | some g => max g gap

/-- Takes the gap between two edges in a row into account. Two edges at one instant, or in reverse
order, have no gap. -/
def noteGap (t : Tally) (gap : Micros) : Tally :=
  if 0 < gap then
    { t with shortestGap := some (least gap t.shortestGap),
             longestGap := some (greatest gap t.longestGap) }
  else t

/-- A gap of no length is not noted. -/
@[simp] theorem noteGap_zero (t : Tally) : t.noteGap 0 = t := rfl

/-- How many tasks a queue of one place holds. -/
def queued (waiting : Bool) : Count := if waiting then 1 else 0

/-- How many closed windows are accounted for, when one task is `waiting` in the queue or none. The
sum is checked from left to right. -/
def ended (t : Tally) (waiting : Bool) : Except Halt Count :=
  [t.failed, t.coalesced, t.cancelled, queued waiting].foldlM Word.plus t.delivered

/-- Whether every closed window is accounted for. -/
def accounted (t : Tally) (waiting : Bool) : Except Halt Bool := do
  let ended ← t.ended waiting
  return ended == t.closed

end Tally

end Settle
