import MiniZincModels.Model.Text

/-!
# Operations on a model

A program that builds a model is a sequence of operations, each of which may
succeed or be refused.  An operation that is refused leaves the model as it was;
only an attempt to write a file that cannot be written keeps the text that was
generated for it.
-/

namespace MiniZincModels

/-- One operation on a model. -/
inductive Operation
  | addConstant (name : String) (value : ConstantValue)
  | addVariable (name : String) (definition : Definition)
  | addVariables (base : String) (definitions : List (IndexKey × Definition))
  | post (given : List Postable) (redundant : Bool)
  /-- Constraints are prepared and never posted. -/
  | abandon (given : List Postable)
  | setCriteria (criteria : Criteria) (objective : Option Expr)
  | satisfy
  | minimize (objective : Expr)
  | maximize (objective : Expr)
  | setSearch (search : Search)
  | setRestart (strategy : RestartStrategy)
  | render
  | generate
  | generatedText
  | currentText
  /-- The text is written to a file, which the file system may not allow. -/
  | write (path : String) (writable : Bool)

/-- What a successful operation gives back. -/
inductive Answer
  | done
  | newConstant (constant : Constant)
  | newVariable (declared : Variable)
  | newCollection (collection : Collection)
  | text (text : String)
  | noText
  | written (content : String)
  | warning (message : String)

namespace Model

/-- The outcome of an operation that gives an answer and a model, or is refused. -/
def settle (model : Model) (outcome : Except ModelError (Answer × Model)) :
    Model × Except ModelError Answer :=
  match outcome with
  | .ok (answer, changed) => (changed, .ok answer)
  | .error error => (model, .error error)

/-- Writes the current text to a file.  The text is kept even if the file cannot be
written. -/
def write (model : Model) (path : String) (writable : Bool) : Model × Except ModelError Answer :=
  match model.currentText with
  | .error error => (model, .error error)
  | .ok (text, kept) => (kept, if writable then .ok (.written text) else .error (.notWritten path))

/-- Carries out an operation. -/
def perform (model : Model) : Operation → Model × Except ModelError Answer
  | .addConstant name value =>
    model.settle ((model.addConstant name value).map fun (constant, changed) =>
      (.newConstant constant, changed))
  | .addVariable name definition =>
    model.settle ((model.addVariable name definition).map fun (declared, changed) =>
      (.newVariable declared, changed))
  | .addVariables base definitions =>
    model.settle ((model.addVariablesWith base definitions).map fun (collection, changed) =>
      (.newCollection collection, changed))
  | .post given redundant =>
    model.settle ((model.post given redundant).map fun changed => (.done, changed))
  | .abandon _ => (model, .ok (.warning abandonWarning))
  | .setCriteria criteria objective =>
    model.settle ((model.setCriteria criteria objective).map fun changed => (.done, changed))
  | .satisfy => (model.satisfy, .ok .done)
  | .minimize objective =>
    model.settle ((model.minimize objective).map fun changed => (.done, changed))
  | .maximize objective =>
    model.settle ((model.maximize objective).map fun changed => (.done, changed))
  | .setSearch search => (model.setSearch search, .ok .done)
  | .setRestart strategy =>
    model.settle ((model.setRestart strategy).map fun changed => (.done, changed))
  | .render => (model, model.render.map .text)
  | .generate => model.settle (model.generate.map fun (text, kept) => (.text text, kept))
  | .generatedText =>
    (model, .ok (match model.generated with
      | some text => .text text
      | none => .noText))
  | .currentText => model.settle (model.currentText.map fun (text, kept) => (.text text, kept))
  | .write path writable => model.write path writable

/-- The model after a sequence of operations, whatever each of them answers. -/
def run (model : Model) (operations : List Operation) : Model :=
  operations.foldl (fun current operation => (current.perform operation).1) model

end Model

end MiniZincModels
