import MiniZincModels.Output.Solution

/-!
# The output of a run

A solver writes solutions one after the other, each ended by a separator line,
and marker lines which say how the run went.  Blank lines and comments are
skipped.  Lines are joined until their solution ends, so a statement may be
spread over several of them.
-/

namespace MiniZincModels

/-- How a run ended. -/
inductive SolveStatus
  /-- There is a solution, but the search was not completed. -/
  | satisfied
  /-- All solutions were found, or the last one is optimal. -/
  | complete
  | unsatisfiable
  | unbounded
  | unsatisfiableOrUnbounded
  /-- The solver stopped with neither a solution nor a proof that there is none. -/
  | unknown
  | error
deriving DecidableEq

namespace SolveStatus

def text : SolveStatus → String
  | satisfied => "satisfied"
  | complete => "complete"
  | unsatisfiable => "unsatisfiable"
  | unbounded => "unbounded"
  | unsatisfiableOrUnbounded => "unsatisfiable or unbounded"
  | unknown => "unknown"
  | error => "error"

/-- The lines which report a status. -/
def markers : List (String × SolveStatus) :=
  [("==========", complete), ("=====UNSATISFIABLE=====", unsatisfiable),
    ("=====UNBOUNDED=====", unbounded), ("=====UNSATorUNBOUNDED=====", unsatisfiableOrUnbounded),
    ("=====UNKNOWN=====", unknown), ("=====ERROR=====", error)]

/-- The status which a line reports, if it is a marker. -/
def ofMarker? (line : List Char) : Option SolveStatus :=
  (markers.find? fun marker => marker.1.toList = line).map Prod.snd

end SolveStatus

/-- What a run reported: its status and its solutions in order. -/
structure SolveResult where
  status : SolveStatus
  solutions : List Solution

namespace SolveResult

/-- The last solution, which is the best one when an objective is optimised. -/
def best? (result : SolveResult) : Option Solution :=
  result.solutions.getLast?

def isUnsatisfiable (result : SolveResult) : Bool :=
  result.status = .unsatisfiable

/-- What has been read of a stream: the last marker, the finished solutions, and the
text of the solution that is still open. -/
structure Progress where
  marker : Option SolveStatus
  solutions : List Solution
  pending : List Char

def Progress.start : Progress := ⟨none, [], []⟩

/-- Whether a line says nothing. -/
def isIdle (line : List Char) : Bool :=
  line.isEmpty || line.head? = some '%'

/-- Takes one more line, whose ends are trimmed already. -/
def Progress.takeLine (progress : Progress) (line : List Char) : Except OutputError Progress :=
  if line = solutionSeparator.toList then
    (Solution.read progress.pending).map fun solution =>
      { progress with solutions := progress.solutions ++ [solution], pending := [] }
  else
    match SolveStatus.ofMarker? line with
    | some status => .ok { progress with marker := some status }
    | none =>
      if isIdle line then .ok progress
      else .ok { progress with pending := progress.pending ++ line ++ ['\n'] }

def Progress.takeLines (progress : Progress) : List (List Char) → Except OutputError Progress
  | [] => .ok progress
  | line :: rest => do
    let progress ← progress.takeLine line
    progress.takeLines rest

/-- The result of a finished stream, in which no solution may be left open.  Without
a marker the status says whether there was a solution. -/
def Progress.finish (progress : Progress) : Except OutputError SolveResult :=
  if Text.allBlank progress.pending then
    let default := if progress.solutions.isEmpty then SolveStatus.unknown else .satisfied
    .ok ⟨progress.marker.getD default, progress.solutions⟩
  else .error .unterminated

/-- The lines of a text without the blanks at their ends. -/
def trimmedLines (text : List Char) : List (List Char) :=
  (Text.splitAt '\n' text).map Text.trim

/-- Reads the output of a run. -/
def read (text : List Char) : Except OutputError SolveResult := do
  let progress ← Progress.start.takeLines (trimmedLines text)
  progress.finish

end SolveResult

end MiniZincModels
