import Settle.Event
import Settle.Fault
import Settle.Launch
import Settle.Line
import Settle.Tally

/-!
# Notices

What the library has to say while it runs. A notice is a cause with its particulars; its severity
and its wording are given here once, and nobody reads them back.
-/

namespace Settle

/-- How grave a notice is. -/
inductive Severity where
  /-- Something is broken. -/
  | error
  /-- Something went wrong. -/
  | warning
  /-- All is well. -/
  | info
deriving DecidableEq, Repr

/-- The word that a notice of this severity begins with. -/
def Severity.word : Severity → String
  | .error => "ERROR"
  | .warning => "WARN"
  | .info => "INFO"

/-- The word for a level. -/
def levelWord (level : Bool) : String := if level then "HIGH" else "LOW"

/-- The message of a failed reading. -/
def levelFailureMessage : String := "level read failed: " ++ Line.errorName

/-- Something the library has to say. -/
inductive Notice where
  /-- A line has a fault. -/
  | faultSet (source : UInt32) (fault : Fault)
  /-- A line is being monitored. -/
  | started (source : UInt32) (windowMs : UInt32) (level : Bool)
  /-- Monitoring ends; a window may still have been open. -/
  | shuttingDown (source : UInt32) (wasPending : Bool)
  /-- Monitoring has ended. -/
  | stopped (source : UInt32) (tally : Tally)
  /-- The first reading of a line failed. -/
  | firstReadFailed (source : UInt32)
  /-- A later reading of a line failed. -/
  | readFailed (source : UInt32)
  /-- The handler failed on an event. -/
  | handlingFailed (source : UInt32) (sequence : Count) (message : String)
  /-- An event was handled by being logged. -/
  | settled (event : Event)
  /-- A task was not launched. -/
  | notLaunched (task : String) (obstacle : Obstacle)
deriving DecidableEq, Repr

namespace Notice

/-- How grave a notice is. -/
def severity : Notice → Severity
  | .faultSet .. => .error
  | .started .. => .info
  | .shuttingDown .. => .info
  | .stopped .. => .info
  | .firstReadFailed .. => .warning
  | .readFailed .. => .warning
  | .handlingFailed .. => .warning
  | .settled .. => .info
  | .notLaunched .. => .error

/-- The wording of a settled event, with the text given for its latency. -/
def settledText (e : Event) (latency : String) : String :=
  s!"SETTLED | source={e.source} level={levelWord e.level} | seq={e.sequence} | " ++
    s!"edges={e.window.edges} raw={e.window.total} | latency={latency}us"

/-- The wording of what stands in the way of a task. -/
def obstacleText : Obstacle → String
  | .stackTooLarge kib => s!"stack of {kib}KB overflows"
  | .refused why => s!"failed: {why}"

/-- The wording of a notice. -/
def text : Notice → String
  | .faultSet source fault => s!"pipeline[{source}]: FAULT SET: {fault.message}"
  | .started source windowMs level =>
    s!"pipeline[{source}]: started (window={windowMs}ms, level={levelWord level})"
  | .shuttingDown source wasPending =>
    s!"pipeline[{source}]: shutting down" ++
      (if wasPending then " (pending window cancelled)" else "")
  | .stopped source tally =>
    s!"pipeline[{source}]: stopped | raw={tally.edges} processed={tally.delivered} " ++
      s!"coalesced={tally.coalesced} cancelled={tally.cancelled}"
  | .firstReadFailed source => s!"source {source}: initial level read failed: {Line.errorName}"
  | .readFailed source => s!"worker[{source}]: {levelFailureMessage}"
  | .handlingFailed source sequence message =>
    s!"worker[{source}]: event #{sequence} failed: {message}"
  | .settled event => settledText event (toString event.latency)
  | .notLaunched task obstacle => "spawn_task: '" ++ task ++ "' " ++ obstacleText obstacle

/-- A notice as a line: its severity and its wording. -/
def line (n : Notice) : String := s!"{n.severity.word} {n.text}"

/-- A notice as a line that does not tell how long an event took to settle. -/
def timelessLine : Notice → String
  | .settled event => Severity.info.word ++ " " ++ settledText event "?"
  | n => n.line

/-- The notices that tell of the faults in a set. -/
def ofFaults (source : UInt32) (s : FaultSet) : List Notice :=
  s.toList.map (.faultSet source)

end Notice

end Settle
