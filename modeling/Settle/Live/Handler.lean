import Settle.Notice

/-!
# Handlers

A handler is given every delivered event and ends well or badly; how it ended badly is told in one
message. One handler logs events and always ends well. Another plays a script: for each event it
takes the next cue, which may hold it up until it is released, and which says how it ends; after
the last cue it ends well at once.
-/

namespace Settle.Live

/-- What a handler that breaks down leaves behind. -/
inductive Debris where
  /-- A text. -/
  | text (s : String)
  /-- Something that is not a text. -/
  | other
deriving DecidableEq, Repr

/-- How a handler ends. -/
inductive Ending where
  /-- Well. -/
  | success
  /-- With a failure: its message and those of its causes, outermost first. -/
  | failure (chain : List String)
  /-- By breaking down. -/
  | breakdown (debris : Debris)
deriving DecidableEq, Repr

/-- The message of a bad ending. -/
def Ending.message? : Ending → Option String
  | .success => none
  | .failure chain => some (String.intercalate ": " chain)
  | .breakdown (.text s) => some ("handler panicked: " ++ s)
  | .breakdown .other => some "handler panicked: unknown panic"

/-- What a scripted handler does with one event. -/
structure Cue where
  /-- Whether it waits to be released. -/
  hold : Bool := false
  /-- How it ends. -/
  ending : Ending := .success
deriving DecidableEq, Repr

/-- A handler. -/
inductive Handler where
  /-- It logs events. -/
  | logging
  /-- It plays the cues. -/
  | scripted (cues : List Cue)
deriving DecidableEq, Repr

namespace Handler

/-- The cue for the next event, and the handler after it. -/
def next : Handler → Cue × Handler
  | .logging => ({}, .logging)
  | .scripted [] => ({}, .scripted [])
  | .scripted (c :: cs) => (c, .scripted cs)

/-- What a handler says when it is given an event. -/
def say (e : Event) : Handler → List Notice
  | .logging => [.settled e]
  | .scripted _ => []

/-- What a handler keeps of an event it is given. -/
def keep (e : Event) : Handler → List Event
  | .logging => []
  | .scripted _ => [e]

end Handler

end Settle.Live
