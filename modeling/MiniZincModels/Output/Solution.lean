import MiniZincModels.Declaration.Variable
import MiniZincModels.Output.Reader

/-!
# Solutions

A solution assigns values to names.  It is held in the order of the names, and a
name that is assigned twice keeps its last value.  The value of the objective is
reported under a name of its own, which no model can declare.
-/

namespace MiniZincModels

/-- Why solver output cannot be read. -/
inductive OutputError
  | noAssignment (statement : List Char)
  | badValue (statement : List Char) (fault : ValueFault)
  | unterminated
deriving DecidableEq

/-- The line which ends a solution. -/
def solutionSeparator : String := "----------"

def OutputError.message : OutputError → String
  | noAssignment statement => "invalid assignment '" ++ String.ofList statement ++ "'"
  | badValue statement fault =>
    "failed to parse '" ++ String.ofList statement ++ "': " ++ fault.message
  | unterminated =>
    "output after the last solution is not terminated by '" ++ solutionSeparator ++ "'"

/-- The values assigned to names, in the order of the names. -/
structure Solution where
  assignments : List (String × Value)

namespace Solution

def empty : Solution := ⟨[]⟩

/-- Assigns a value to a name in an ordered list, in place of an earlier one. -/
def assignOrdered (name : String) (value : Value) : List (String × Value) → List (String × Value)
  | [] => [(name, value)]
  | (other, old) :: rest =>
    if name < other then (name, value) :: (other, old) :: rest
    else if name = other then (name, value) :: rest
    else (other, old) :: assignOrdered name value rest

def assign (solution : Solution) (name : String) (value : Value) : Solution :=
  ⟨assignOrdered name value solution.assignments⟩

/-- The solution with the given assignments, the later ones counting. -/
def ofList (assignments : List (String × Value)) : Solution :=
  assignments.foldl (fun solution (name, value) => solution.assign name value) empty

/-- The value of a name. -/
def find? (solution : Solution) (name : String) : Option Value :=
  (solution.assignments.find? fun assignment => assignment.1 = name).map Prod.snd

/-- The value of a variable. -/
def get? (solution : Solution) (declared : Variable) : Option Value :=
  solution.find? declared.name

def intOf? (solution : Solution) (declared : Variable) : Option Int64 :=
  (solution.get? declared).bind Value.asInt?

def boolOf? (solution : Solution) (declared : Variable) : Option Bool :=
  (solution.get? declared).bind Value.asBool?

def floatOf? (solution : Solution) (declared : Variable) : Option Binary64 :=
  (solution.get? declared).bind Value.asFloat?

def setOf? (solution : Solution) (declared : Variable) : Option IntSet :=
  (solution.get? declared).bind Value.asSet?

/-- The name under which the value of the objective is reported. -/
def objectiveName : String := "_objective"

def objective? (solution : Solution) : Option Value :=
  solution.find? objectiveName

/-- The assignments in the order of their names, without the objective. -/
def toList (solution : Solution) : List (String × Value) :=
  solution.assignments.filter fun assignment => assignment.1 ≠ objectiveName

/-- Reads a statement of the form `name = value`. -/
def readAssignment (statement : List Char) : Except OutputError (String × Value) :=
  match Text.cutAt? '=' statement with
  | none => .error (.noAssignment statement)
  | some (name, value) =>
    match Value.read value with
    | .ok value => .ok (String.ofList (Text.trim name), value)
    | .error fault => .error (.badValue statement fault)

/-- The statements of a text, which semicolons separate; blank ones are skipped. -/
def statements (text : List Char) : List (List Char) :=
  ((Text.splitAt ';' text).map Text.trim).filter fun statement => !statement.isEmpty

/-- Reads all assignments of a text. -/
def read (text : List Char) : Except OutputError Solution :=
  ((statements text).mapM readAssignment).map ofList

end Solution

end MiniZincModels
