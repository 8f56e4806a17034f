import StepCheck.Datum.Shown
import StepCheck.Text.Blank
import StepCheck.Text.Upper

/-!
# Logging

What the program does is logged by a logger with a level, below which nothing is logged. A level is
given by its number or by a name. Loggers below this one in the hierarchy have no level of their own
and go by the level of the nearest logger above them that has one.

* `Level.resolve` — the number of a level;
* `Logger.configure` — the logger given a handler, if it has none, and a level.
-/

namespace StepCheck

namespace Level

/-- The names of levels. -/
def names : List (Text × Int) :=
  [("CRITICAL", 50), ("FATAL", 50), ("ERROR", 40), ("WARN", 30), ("WARNING", 30), ("INFO", 20),
    ("DEBUG", 10), ("NOTSET", 0)]

/-- The text about a level of no known name. -/
def unknownMessage (level : Datum) : Text := "Unknown log level: " ++ level.written

/-- **The number of a level**, which may be a number or a name, whatever the case of the letters and
the white space around it. -/
def resolve (level : Datum) : Except Text Int :=
  match level with
  | .int i => .ok i
  | .bool b => .ok (if b then 1 else 0)
  | d =>
    match names.lookup d.shown.strip.upper with
    | some i => .ok i
    | none => .error (unknownMessage d)

end Level

/-- **A logger.** A level of 0 is none. -/
structure Logger where
  handlers : Nat := 0
  level : Int := 0
deriving DecidableEq

namespace Logger

/-- The name of the logger. -/
def name : Text := "ifcval"

/-- The form of a line of the log. -/
def format : Text := "%(asctime)s %(levelname)s [%(name)s] %(message)s"

/-- The level of the root of the hierarchy. -/
def rootLevel : Int := 30

/-- The level by which a logger below goes. -/
def effective (l : Logger) : Int := if l.level = 0 then rootLevel else l.level

/-- **The logger given a level**, and a handler if it has none. The handler comes first, so it stays
even if the level has no known name. -/
def configure (l : Logger) (level : Datum) : Logger × Except Text Int :=
  let l := { l with handlers := max 1 l.handlers }
  match Level.resolve level with
  | .ok n => ({ l with level := n }, .ok n)
  | .error e => (l, .error e)

end Logger

end StepCheck
