import Settle.Word

/-!
# Windows

A line's edges are grouped into half-open windows of one fixed length: `[opened, deadline)`. This
module holds the shapes of windowing that others see: the phase it is in, the report of a closed
window, what became of an edge, and what a timer is told when it asks.
-/

namespace Settle

/-- Where windowing stands, as shown outside. -/
inductive Phase where
  /-- No window is open. -/
  | idle
  /-- A window is open, and its one deadline is armed. -/
  | pending (opened deadline : Instant)
  /-- Torn down for good. -/
  | disarmed
deriving DecidableEq, Repr

/-- A closed window. -/
structure Report where
  /-- The instant of the window's first edge. -/
  opened : Instant
  /-- The first instant past the window. -/
  deadline : Instant
  /-- The edges that fell into the window. -/
  edges : Count
  /-- All edges counted up to this window's last one. -/
  total : Count
deriving DecidableEq, Repr

/-- The report of no window at all. -/
def Report.blank : Report := ⟨0, 0, 0, 0⟩

/-- What became of an edge. -/
inductive Outcome where
  /-- Counted, and opened a window that closes at `deadline`. -/
  | opened (deadline : Instant)
  /-- Counted in the open window. -/
  | absorbed
  /-- Counted, past the deadline of the open window; it belongs to the next one. -/
  | carried
  /-- Counted, but no deadline could be armed, so no window opened. -/
  | degraded
  /-- Not counted: windowing is torn down. -/
  | ignored
deriving DecidableEq, Repr

/-- What became of an edge, and the deadline that the timer was asked to arm for it, if it was
asked. -/
structure EdgeAnswer where
  /-- What became of the edge. -/
  outcome : Outcome
  /-- The deadline the timer was asked for. -/
  asked : Option Instant := none
deriving DecidableEq, Repr

/-- What a timer is told when it asks what is due. -/
inductive Verdict where
  /-- Windowing is torn down: stop asking. -/
  | stop
  /-- Nothing is armed: ask when woken. -/
  | idle
  /-- Nothing is due: ask again in `us` microseconds. -/
  | wait (us : Micros)
  /-- The open window has closed. -/
  | expired (report : Report)
deriving DecidableEq, Repr

end Settle
