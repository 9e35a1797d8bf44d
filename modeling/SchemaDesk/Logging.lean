import SchemaDesk.Problem.Basic
import SchemaDesk.Text.Upper

/-!
# Logging settings

Logging has a level and handlers.  The level is set by name, in any letter case; the first time that
succeeds a handler is added.
-/

namespace SchemaDesk

/-- The level of logging and the formats of its handlers. -/
structure Logging where
  level : Nat := 30
  handlers : List Text := []
  deriving DecidableEq, Repr

namespace Logging

/-- The names of levels. -/
def levels : List (Text × Nat) :=
  [("CRITICAL", 50), ("FATAL", 50), ("ERROR", 40), ("WARNING", 30), ("WARN", 30), ("INFO", 20),
    ("DEBUG", 10), ("NOTSET", 0)]

/-- The format of a line of the log. -/
def format : Text :=
  "%(asctime)s | %(levelname)s | %(name)s | %(message)s"

/-- Sets the level by its name. -/
def setLevel (l : Logging) (name : Value) : Except Failure Logging :=
  match levels.lookup (Text.upper name.text) with
  | none => .error (.problem (.unknownLogLevel name))
  | some level =>
      .ok { level, handlers := if l.handlers.isEmpty then [format] else l.handlers }

end Logging

end SchemaDesk
