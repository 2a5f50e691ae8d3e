/-!
# Refusals

Why something cannot be set up. A cause is a constructor with its particulars; the wording of each
cause is given here once. A refusal tells whether the settings were at fault or a resource was not
to be had.
-/

namespace Settle

/-- What is wrong with settings. -/
inductive Flaw where
  /-- They cannot be read. -/
  | malformed
  /-- The window has no length. -/
  | windowZero
  /-- The window is too long. -/
  | windowTooLong
  /-- A task would have too small a stack. -/
  | stackTooSmall
  /-- A task would have too large a stack. -/
  | stackTooLarge
deriving DecidableEq, Repr

/-- The wording of a flaw. -/
def Flaw.message : Flaw → String
  | .malformed => "malformed JSON"
  | .windowZero => "window_ms must be non-zero"
  | .windowTooLong => "window_ms exceeds 10s"
  | .stackTooSmall => "task stacks must be at least 4 KiB"
  | .stackTooLarge => "task stacks must be at most 8 MiB"

/-- Why a resource is not to be had. -/
inductive Shortage where
  /-- Somebody else owns this id. -/
  | sourceBusy (id : UInt32)
  /-- As many ids are owned as there can be. -/
  | registryFull
  /-- The line could not be read for the first time. -/
  | levelReadFailed
  /-- A task could not be started. -/
  | taskNotStarted (name : String)
deriving DecidableEq, Repr

/-- The wording of a shortage. -/
def Shortage.message : Shortage → String
  | .sourceBusy id => s!"source {id} already in use"
  | .registryFull => "source registry full"
  | .levelReadFailed => "initial level read failed"
  | .taskNotStarted name => "could not spawn task '" ++ name ++ "'"

/-- Why something cannot be set up. -/
inductive Refusal where
  /-- The settings are at fault. -/
  | settings (flaw : Flaw)
  /-- A resource is not to be had. -/
  | resource (shortage : Shortage)
deriving DecidableEq, Repr

namespace Refusal

/-- The wording of a refusal for what is wrong with the settings. -/
def settingsText (wrong : String) : String := s!"config: {wrong}"

/-- The wording of a refusal for a resource that is not to be had. -/
def resourceText (missing : String) : String := s!"init: {missing}"

/-- The wording of a refusal. -/
def message : Refusal → String
  | .settings flaw => settingsText flaw.message
  | .resource shortage => resourceText shortage.message

end Refusal

/-- The wording for a deadline that cannot be armed. -/
def timerOfflineMessage : String := "timer service offline"

end Settle
