import IconRegistry.Text.Basic

/-!
What a command tells: the outcome for each icon of a batch, and the lines of its log.
-/

namespace IconRegistry

/-- What became of one icon of a batch. -/
inductive Outcome
  | added (icon : Text)
  | replaced (icon : Text)
  | removed (icon : Text)
  | skipped (icon reason : Text)
  | failed (icon reason : Text)
  deriving DecidableEq

def Outcome.icon : Outcome → Text
  | added icon | replaced icon | removed icon | skipped icon _ | failed icon _ => icon

def Outcome.message : Outcome → Text
  | added icon => "added ".toList ++ icon
  | replaced icon => "replaced ".toList ++ icon
  | removed icon => "removed ".toList ++ icon
  | skipped icon reason => "skipped ".toList ++ icon ++ ": ".toList ++ reason
  | failed icon reason => "failed ".toList ++ icon ++ ": ".toList ++ reason

/-- How much a line of the log matters. -/
inductive Severity
  | debug
  | info
  | warning
  | error
  deriving DecidableEq

def Severity.word : Severity → Text
  | debug => "DEBUG".toList
  | info => "INFO".toList
  | warning => "WARN".toList
  | error => "ERROR".toList

def Outcome.severity : Outcome → Severity
  | failed _ _ => .error
  | skipped _ _ => .warning
  | _ => .info

/-- A line of the log. -/
structure LogLine where
  severity : Severity
  message : Text
  deriving DecidableEq

def LogLine.text (line : LogLine) : Text :=
  line.severity.word ++ ' ' :: line.message

end IconRegistry
