import Settle.Json.Document
import Settle.Window

/-!
# Settled events

What a handler is given: the level of a line, read after one of its windows closed, with the
window's report and the number of the delivery.
-/

namespace Settle

/-- The printed form of a report. -/
def Report.document (r : Report) : Json.Document :=
  .object [
    ("opened_us", .number r.opened.toNat),
    ("deadline_us", .number r.deadline.toNat),
    ("edges", .number r.edges.toNat),
    ("raw_edge_count", .number r.total.toNat)]

/-- A settled level. -/
structure Event where
  /-- The id of the line. -/
  source : UInt32
  /-- The settled level; true is high. -/
  level : Bool
  /-- The number of the delivery, from 1. -/
  sequence : Count
  /-- The instant at which the level was read. -/
  settled : Instant
  /-- The window that the event closes. -/
  window : Report
deriving DecidableEq, Repr

namespace Event

/-- The time from the window's first edge to the reading. -/
def latency (e : Event) : Micros := Word.since e.settled e.window.opened

/-- The printed form of an event. -/
def document (e : Event) : Json.Document :=
  .object [
    ("source_id", .number e.source.toNat),
    ("level", .bool e.level),
    ("sequence", .number e.sequence.toNat),
    ("settled_us", .number e.settled.toNat),
    ("window", e.window.document)]

end Event

end Settle
