import MiniZincModels.CommandLine.Arguments
import MiniZincModels.Solver.Run

/-!
# The program

Builds a demonstration model, writes its text, and on request has it solved and
prints the solutions.  Everything but the contact with files and other programs
is decided here.
-/

namespace MiniZincModels.CommandLine

/-- What the surroundings of the program do. -/
structure Surroundings where
  /-- Whether a file can be written. -/
  writable : String → Bool
  /-- What comes of starting a solver. -/
  launch : SolverSettings → Launch
  /-- The file through which the solver is given the model. -/
  modelFile : String

/-- The call of a solver: its arguments and the text of the model. -/
structure SolverCall where
  arguments : List String
  model : String

/-- What the program leaves behind. -/
structure Outcome where
  exitCode : Nat
  output : String
  errors : String
  /-- The file that was written, with its content. -/
  file : Option (String × String)
  call : Option SolverCall

/-- Why the program failed. -/
inductive ProgramError
  | building (failure : Failure)
  | solving (error : SolverError)

def ProgramError.message : ProgramError → String
  | building failure => "Failed to build the model, more details: " ++ failure.message
  | solving error => "Failed to solve the model, more details: " ++ error.message

def assignmentLine (assignment : String × Value) : String :=
  assignment.1 ++ " = " ++ assignment.2.text ++ ";\n"

/-- A solution with a line for every assignment, one for the objective if there is
one, and the separator. -/
def solutionText (solution : Solution) : String :=
  String.join (solution.toList.map assignmentLine)
    ++ (match solution.objective? with
      | some objective => "% objective = " ++ objective.text ++ "\n"
      | none => "")
    ++ solutionSeparator ++ "\n"

/-- All solutions and the status at the end. -/
def resultText (result : SolveResult) : String :=
  String.join (result.solutions.map solutionText) ++ "% status: " ++ result.status.text ++ "\n"

/-- The settings for the solver which the arguments ask for. -/
def solverSettings (arguments : Arguments) : SolverSettings where
  executable := arguments.executable.getD SolverSettings.default.executable
  solver := arguments.solver.getD SolverSettings.default.solver
  timeLimit := arguments.timeLimit
  allSolutions := arguments.allSolutions
  arguments := []

/-- What has happened so far. -/
structure Course where
  output : String
  records : List LogRecord
  file : Option (String × String)
  call : Option SolverCall

/-- Has the model solved and prints what came of it. -/
def solveModel (surroundings : Surroundings) (arguments : Arguments) (model : Model)
    (course : Course) : Course × Except ProgramError Unit :=
  let settings := solverSettings arguments
  let run := settings.solve model surroundings.modelFile (surroundings.launch settings)
  let course :=
    { course with
      records := course.records ++ run.records
      call := run.given.map fun text => ⟨settings.callArguments, text⟩ }
  match run.result with
  | .error error => (course, .error (.solving error))
  | .ok result => ({ course with output := course.output ++ resultText result }, .ok ())

/-- Writes the text of the model to a file or to the output. -/
def putModel (surroundings : Surroundings) (arguments : Arguments) (model : Model)
    (text : String) (course : Course) : Course × Except ProgramError Unit :=
  let course := { course with records := course.records ++ model.textRecords }
  match arguments.output with
  | none => ({ course with output := course.output ++ text }, .ok ())
  | some path =>
    if surroundings.writable path then
      let written : List LogRecord :=
        [⟨.debug, "Wrote model to " ++ path⟩, ⟨.info, "Wrote the model to " ++ path⟩]
      ({ course with records := course.records ++ written, file := some (path, text) }, .ok ())
    else (course, .error (.building (.error (.notWritten path))))

/-- Builds the model, writes it, and has it solved if the arguments ask for it. -/
def runDemonstration (surroundings : Surroundings) (arguments : Arguments) (course : Course) :
    Course × Except ProgramError Unit :=
  match arguments.demonstration.build arguments.size with
  | .error failure => (course, .error (.building failure))
  | .ok model =>
    match model.currentText with
    | .error error => (course, .error (.building (.error error)))
    | .ok (text, kept) =>
      match putModel surroundings arguments model text course with
      | (course, .error error) => (course, .error error)
      | (course, .ok ()) =>
        if arguments.solve then solveModel surroundings arguments kept course
        else (course, .ok ())

/-- The records as they are shown, each behind a percent sign. -/
def recordsText (verbose : Bool) (records : List LogRecord) : String :=
  String.join ((messagesFrom (if verbose then .debug else .warning) records).map fun message =>
    "% " ++ message ++ "\n")

/-- The whole course of the program for well-formed arguments.  A mistake of the program
ends it at once, with the bare message and a code of its own. -/
def run (surroundings : Surroundings) (arguments : Arguments) : Outcome :=
  let start : Course := ⟨"", [⟨.info, "Logging successfully configured"⟩], none, none⟩
  let (course, result) := runDemonstration surroundings arguments start
  match result with
  | .ok () =>
    ⟨0, course.output, recordsText arguments.verbose course.records, course.file, course.call⟩
  | .error (.building (.misuse mistake)) =>
    let errors := recordsText arguments.verbose course.records ++ mistake.message ++ "\n"
    ⟨101, course.output, errors, course.file, course.call⟩
  | .error error =>
    let records := course.records ++ [⟨.error, "Execution failed, error: " ++ error.message⟩]
    ⟨1, course.output, recordsText arguments.verbose records, course.file, course.call⟩

/-- A summary of how to call the program. -/
def usage : String :=
  "Usage: mzn-solver [OPTIONS] <DEMO>\n"

def versionText : String :=
  "mzn-solver 0.1.0\n"

/-- The program for any arguments; a call that breaks the rules ends with code 2. -/
def program (surroundings : Surroundings) (arguments : List String) : Outcome :=
  match readArguments? arguments with
  | none => ⟨2, "", usage, none, none⟩
  | some .help => ⟨0, usage, "", none, none⟩
  | some .version => ⟨0, versionText, "", none, none⟩
  | some (.run arguments) => run surroundings arguments

end MiniZincModels.CommandLine
