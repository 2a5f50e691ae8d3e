import Settle.Fault
import Settle.Json.Document
import Settle.Tally
import Settle.Text.Clip
import Settle.Window

/-!
# Snapshots

A snapshot is everything about a monitored line at one instant, for whoever asks. It is a plain
value; its printed form is an object with one member for each field.
-/

namespace Settle

/-- The printed form of a phase: an object whose first member names it. -/
def Phase.document : Phase → Json.Document
  | .idle => .object [("phase", .text "idle")]
  | .pending opened deadline =>
    .object [
      ("phase", .text "pending"),
      ("opened_us", .number opened.toNat),
      ("deadline_us", .number deadline.toNat)]
  | .disarmed => .object [("phase", .text "disarmed")]

/-- The printed form of a tally. -/
def Tally.document (t : Tally) : Json.Document :=
  .object [
    ("raw_edge_count", .number t.edges.toNat),
    ("processed_count", .number t.delivered.toNat),
    ("windows_closed", .number t.closed.toNat),
    ("coalesced_dispatches", .number t.coalesced.toNat),
    ("cancelled_dispatches", .number t.cancelled.toNat),
    ("failed_dispatches", .number t.failed.toNat),
    ("arm_failures", .number t.unarmed.toNat),
    ("min_interval_us", .numberOrNull (t.shortestGap.map UInt64.toNat)),
    ("max_interval_us", .numberOrNull (t.longestGap.map UInt64.toNat))]

/-- Everything about a monitored line at one instant. -/
structure Snapshot where
  /-- The id of the line. -/
  source : UInt32
  /-- The last settled level, or the level first read. -/
  level : Bool
  /-- The length of the line's windows. -/
  window : Micros
  /-- Where windowing stands. -/
  phase : Phase
  /-- The instant of the last accepted edge. -/
  lastEdge : Option Instant
  /-- What has been counted. -/
  tally : Tally
  /-- Whether a task is queued. -/
  queued : Bool
  /-- The faults the line has. -/
  faults : FaultSet
  /-- Whether the line has no fault. -/
  healthy : Bool
  /-- Whether the teardown has not begun. -/
  running : Bool
  /-- The beginning of the last failure's message. -/
  lastError : Text.Short
deriving DecidableEq

namespace Snapshot

/-- Whether every closed window is accounted for. -/
def accounted (s : Snapshot) : Except Halt Bool := s.tally.accounted s.queued

/-- The printed form of a snapshot. -/
def document (s : Snapshot) : Json.Document :=
  .object [
    ("source_id", .number s.source.toNat),
    ("level", .bool s.level),
    ("window_us", .number s.window.toNat),
    ("phase", s.phase.document),
    ("last_edge_us", .numberOrNull (s.lastEdge.map UInt64.toNat)),
    ("counters", s.tally.document),
    ("deferred_queued", .bool s.queued),
    ("faults", .number s.faults.bits.toNat),
    ("healthy", .bool s.healthy),
    ("running", .bool s.running),
    ("last_error", .text s.lastError.text)]

end Snapshot

end Settle
