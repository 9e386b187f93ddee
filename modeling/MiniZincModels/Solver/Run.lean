import MiniZincModels.Log
import MiniZincModels.Model.Text
import MiniZincModels.Output.Stream
import MiniZincModels.Text.Quoted

/-!
# Running a solver

A model is solved by an external program that reads the text of the model and
writes solutions.  This module decides with which arguments the program is
called, and what its end and its output mean.  The call itself is a step of the
surroundings, given here by what came of it.
-/

namespace MiniZincModels

/-- How the external program is called. -/
structure SolverSettings where
  executable : String
  /-- The solver that the program is asked to use. -/
  solver : String
  /-- The time limit in milliseconds. -/
  timeLimit : Option Nat
  allSolutions : Bool
  /-- Further arguments, which are passed on as they are. -/
  arguments : List String
deriving DecidableEq

namespace SolverSettings

def default : SolverSettings :=
  ⟨"minizinc", "gecode", none, false, []⟩

instance : Inhabited SolverSettings := ⟨default⟩

/-- The arguments of a call, except for the model file, which comes last. -/
def callArguments (settings : SolverSettings) : List String :=
  ["--solver", settings.solver, "--output-mode", "dzn", "--output-objective"]
    ++ (if settings.allSolutions then ["-a"] else [])
    ++ (match settings.timeLimit with
      | some limit => ["--time-limit", toString limit]
      | none => [])
    ++ settings.arguments

/-- Whether the parts of a call can be passed to a program.  The system ends an argument
at its first NUL character, so a text that holds one cannot be passed. -/
def isPassable (settings : SolverSettings) : Bool :=
  (settings.executable :: settings.callArguments).all fun part => !part.toList.contains '\x00'

/-- A call as it is shown in the log, every part in quotes. -/
def callText (settings : SolverSettings) (modelFile : String) : String :=
  " ".intercalate
    ((settings.executable :: settings.callArguments ++ [modelFile]).map Text.quote)

end SolverSettings

/-- How a program that was started has ended. -/
structure ProcessEnd where
  output : String
  errors : String
  exitCode : Nat
deriving DecidableEq

/-- What came of an attempt to start a program.  Not all that can happen has a case here:
a program that is stopped behind its time limit or by a signal, one that is there but
cannot be started, and files that cannot be written or read are left out.  Each of these
gives an error, and changes the model no more than the cases that stand here. -/
inductive Launch
  | notFound
  | ended (process : ProcessEnd)
deriving DecidableEq

/-- Whether an attempt to start a program was successful. -/
def Launch.isSuccess : Launch → Bool
  | notFound => false
  | ended process => process.exitCode = 0

/-- Why a model was not solved, as far as the cases of a launch tell it. -/
inductive SolverError
  | model (error : ModelError)
  /-- A part of the call cannot be passed to a program. -/
  | notPassable
  | notFound (executable : String)
  | failed (exitCode : Nat) (errors : String)
  | malformed (error : OutputError)
deriving DecidableEq

def SolverError.message : SolverError → String
  | model error => "the model could not be generated: " ++ error.message
  | notPassable => "IO error while running MiniZinc, more details: nul byte found in provided data"
  | notFound executable => "the MiniZinc executable '" ++ executable ++ "' could not be found"
  | failed exitCode errors =>
    "MiniZinc exited with exit status: " ++ toString exitCode ++ ": " ++ errors
  | malformed error => "the output of MiniZinc could not be parsed: " ++ error.message

namespace SolverSettings

/-- The complaints of a program, without the blanks around them. -/
def complaints (process : ProcessEnd) : String :=
  String.ofList (Text.trim process.errors.toList)

/-- What a program reported by the time it ended.  Its output counts only if it ended
with success. -/
def outcome (process : ProcessEnd) : Except SolverError SolveResult :=
  if process.exitCode = 0 then
    match SolveResult.read process.output.toList with
    | .ok result => .ok result
    | .error error => .error (.malformed error)
  else .error (.failed process.exitCode (complaints process))

/-- The warning about the complaints of a program, if it has any. -/
def complaintRecords (process : ProcessEnd) : List LogRecord :=
  if (complaints process).isEmpty then []
  else [⟨.warning, "MiniZinc reported: " ++ complaints process⟩]

/-- The record of a run that gave a result. -/
def resultRecords : Except SolverError SolveResult → List LogRecord
  | .ok result =>
    [⟨.debug, "MiniZinc finished with status " ++ result.status.text ++ " after "
      ++ toString result.solutions.length ++ " solution(s)"⟩]
  | .error _ => []

end SolverSettings

/-- The record of a generation of text. -/
def Model.generationRecord (model : Model) : LogRecord :=
  ⟨.debug, "Generated model with " ++ toString model.vars.length ++ " variables and "
    ++ toString model.constraints.length ++ " constraints"⟩

/-- The records of asking for the current text, which is generated only if the model
changed since. -/
def Model.textRecords (model : Model) : List LogRecord :=
  if model.generated.isNone && model.objective.isSome then [model.generationRecord] else []

/-- What came of solving a model. -/
structure SolverRun where
  /-- The model, which keeps the text that was generated. -/
  model : Model
  /-- The text which the program was given, if it was started. -/
  given : Option String
  records : List LogRecord
  result : Except SolverError SolveResult

/-- Solves a model, where `launch` is what comes of starting the program on the text
of the model in the file `modelFile`.  A call that cannot be passed is refused before
the program is looked for. -/
def SolverSettings.solve (settings : SolverSettings) (model : Model) (modelFile : String)
    (launch : Launch) : SolverRun :=
  match model.currentText with
  | .error error => ⟨model, none, [], .error (.model error)⟩
  | .ok (text, kept) =>
    let call : LogRecord := ⟨.debug, "Running " ++ settings.callText modelFile⟩
    let records := model.textRecords ++ [call]
    if settings.isPassable then
      match launch with
      | .notFound => ⟨kept, none, records, .error (.notFound settings.executable)⟩
      | .ended process =>
        let result := outcome process
        ⟨kept, some text, records ++ complaintRecords process ++ resultRecords result, result⟩
    else ⟨kept, none, records, .error .notPassable⟩

end MiniZincModels
