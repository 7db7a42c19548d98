/-
  Log lines: what the library reports besides its results.
-/

namespace ChatScene

/-- How much a log line matters, from least to most. -/
inductive Level where
  | debug
  | info
  | warning
  | error
deriving DecidableEq, Repr

/-- The name of a level. -/
def Level.name : Level → String
  | .debug => "DEBUG"
  | .info => "INFO"
  | .warning => "WARNING"
  | .error => "ERROR"

/-- The rank of a level. -/
def Level.rank : Level → Nat
  | .debug => 0
  | .info => 1
  | .warning => 2
  | .error => 3

/-- The part of the library that reports. -/
inductive Reporter where
  | script
  | session
  | pictures
  | bus
  | settings
  | program
deriving DecidableEq, Repr

/-- The name under which a part reports. -/
def Reporter.name : Reporter → String
  | .script => "chatflow.chat.parser"
  | .session => "chatflow.chat.presenter"
  | .pictures => "chatflow.chat.pictures"
  | .bus => "chatflow.core.events"
  | .settings => "chatflow.core.config"
  | .program => "chatflow"

/-- One log line. -/
structure LogLine where
  /-- How much it matters. -/
  level : Level
  /-- Who reports. -/
  reporter : Reporter
  /-- The text. -/
  message : String
deriving DecidableEq, Repr

/-- A log line as it is written. -/
def LogLine.text (l : LogLine) : String := s!"{l.level.name} {l.reporter.name}: {l.message}\n"

/-- A result with the log lines that came before it, oldest first. -/
structure Logged (α : Type) where
  /-- The log lines. -/
  logs : List LogLine
  /-- The result. -/
  result : α

end ChatScene
