import Gleaner.Text.Basic

/-!
# Log records

A record is one message of a part of the program, with the weight it has. Weights are numbers, and some of
them have a name. Where records go, and which of them are shown, is decided elsewhere.
-/

namespace Gleaner.Log

/-- How much a record matters. -/
structure Level where
  rank : Int
deriving DecidableEq, Repr

namespace Level

/-- No weight at all: as a bound it holds nothing back. -/
def notSet : Level := ⟨0⟩

/-- For those who look for a fault. -/
def debug : Level := ⟨10⟩

/-- The course of a run. -/
def info : Level := ⟨20⟩

/-- Something to look at. -/
def warning : Level := ⟨30⟩

/-- Something went wrong. -/
def error : Level := ⟨40⟩

/-- Nothing goes on. -/
def critical : Level := ⟨50⟩

/-- The levels with a name. -/
def names : List (Level × String) := [
  (notSet, "NOTSET"),
  (debug, "DEBUG"),
  (info, "INFO"),
  (warning, "WARNING"),
  (error, "ERROR"),
  (critical, "CRITICAL")]

/-- The written name of a level. -/
def name (level : Level) : String :=
  ((names.find? (·.1 = level)).map (·.2)).getD s!"Level {level.rank}"

/-- The level with a given written name. -/
def ofName? (name : Text) : Option Level :=
  (names.find? (·.2 = name)).map (·.1)

end Level

/-- One message of the part of the program that `logger` names. -/
structure Record where
  level : Level
  logger : String
  message : Text
deriving DecidableEq, Repr

/-- Whether a record has weight, and is at a level or above. -/
def Record.reaches (level : Level) (r : Record) : Bool :=
  0 < r.level.rank && level.rank ≤ r.level.rank

end Gleaner.Log
