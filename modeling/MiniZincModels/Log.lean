/-!
# Log records

What a program reports beside its results.  Every record has a level; the reader
chooses from which level on records are shown.
-/

namespace MiniZincModels

/-- How important a record is, from the least to the most. -/
inductive LogLevel
  | debug
  | info
  | warning
  | error
deriving DecidableEq

def LogLevel.rank : LogLevel → Nat
  | debug => 0
  | info => 1
  | warning => 2
  | error => 3

/-- A message with its level. -/
structure LogRecord where
  level : LogLevel
  message : String
deriving DecidableEq

/-- The messages of a level or above, in order. -/
def messagesFrom (level : LogLevel) (records : List LogRecord) : List String :=
  (records.filter fun record => level.rank ≤ record.level.rank).map LogRecord.message

end MiniZincModels
