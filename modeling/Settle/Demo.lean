import Settle.Demo.Folder
import Settle.Live.Stage
import Settle.Settings.Form

/-!
# The demonstration

A bouncing switch on a simulated line. The switch is pressed five times; at each press its contact
bounces, so that the line changes its level five times in a row, two milliseconds apart, and each
change is reported as an edge. After a press the switch rests for three windows. When all is done
and the last window has had time to settle, the system is shut down, and its last snapshot is the
result.

The settings come from a file whose path may be given as the first argument; without one they are
the defaults.
-/

namespace Settle.Demo

open Settle.Live

/-- How often the switch is pressed. -/
def presses : Nat := 5

/-- How often the contact changes at each press. -/
def bounces : Nat := 5

/-- The time between two changes. -/
def bounceGap : Micros := 2000

/-! ## The play -/

/-- Lets time pass. The system works while it has anything to do. -/
def sleep (span : Micros) (st : Stage) : Stage :=
  match st.system? with
  | none => st
  | some s =>
    let target := Word.later s.clock span
    (st.rest target).perform (.advance target)

/-- The contact changes once. -/
def bounce (st : Stage) : Stage := sleep bounceGap (st.perform .toggle).edgeNow

/-- The switch is pressed once, with a rest after it. -/
def press (window : Micros) (st : Stage) : Stage :=
  sleep (window * 3) (bounces.repeat bounce st)

/-- The whole play on a system that has just been started. -/
def play (window : Micros) (st : Stage) : Stage :=
  let st := sleep (window * 2) (presses.repeat (press window) st)
  (st.shutdown.rest 0).look.rest 0

/-- What the demonstration comes to. -/
inductive Outcome where
  /-- The file could not be read. -/
  | unreadable (path : String) (cause : ReadFailure)
  /-- The file gives no settings that can be used. -/
  | unusable (path : String) (flaw : Flaw)
  /-- The system could not be started. -/
  | refused (refusal : Refusal)
  /-- The system stalled and showed nothing. -/
  | stalled
  /-- The play was played to its end. -/
  | finished (snapshot : Snapshot)
deriving DecidableEq

/-- Plays with the settings given. -/
def run (settings : Settings) : Outcome :=
  let founded := ({} : World).start settings {}
  match founded.result with
  | .error refusal => .refused refusal
  | .ok number =>
    let st := play settings.window
      { world := founded.world, player := { number, handler := .logging } }
    (st.snapshot.map Outcome.finished).getD .stalled

/-! ## The command -/

/-- The text of a file, if its bytes are one. -/
def textOf (bytes : ByteArray) : Except ReadFailure String :=
  match String.fromUTF8? bytes with
  | some text => .ok text
  | none => .error .notText

/-- The settings for the arguments given, when `read` gives the bytes of files. -/
def settingsFor (read : String → Except ReadFailure ByteArray) :
    List String → Except Outcome Settings
  | [] => .ok {}
  | path :: _ =>
    match read path >>= textOf with
    | .error cause => .error (.unreadable path cause)
    | .ok text => (Settings.ofText text).mapError (.unusable path)

/-- What the command comes to. -/
def command (read : String → Except ReadFailure ByteArray) (args : List String) : Outcome :=
  match settingsFor read args with
  | .error outcome => outcome
  | .ok settings => run settings

namespace Outcome

/-- What is written about a failure. -/
def errorText : Outcome → String
  | .unreadable path cause =>
    s!"Error: reading config {path}\n\nCaused by:\n    {cause.message}\n"
  | .unusable path flaw => s!"Error: {path}: {(Refusal.settings flaw).message}\n"
  | .refused refusal => s!"Error: {refusal.message}\n"
  | .stalled => ""
  | .finished _ => ""

/-- What is written as the result. -/
def resultText : Outcome → String
  | .finished snapshot => snapshot.document.prettyText ++ "\n"
  | _ => ""

/-- The number with which the command ends. -/
def exitCode : Outcome → UInt8
  | .finished _ => 0
  | _ => 1

end Outcome

end Settle.Demo
