import MiniZincModels.Model.Basic

/-!
# Models as text

The items of a model are written one to a line: includes in the order of their
names, then constants, variables and constraints in the order in which they were
added, and the solve item at the end.  The text is kept until the model changes.
-/

namespace MiniZincModels.Model

def includeItem (global : Global) : String :=
  "include \"" ++ global.includeFile ++ "\";"

/-- The search directive and, behind it, the restart strategy.  A strategy is never
written without a search. -/
def directivesText (model : Model) : String :=
  match model.search, model.restart with
  | none, _ => ""
  | some search, none => " :: " ++ search.text
  | some search, some strategy => " :: " ++ search.text ++ " :: " ++ strategy.text

def objectiveText (objective : Objective) : String :=
  match objective.expr with
  | none => objective.criteria.text
  | some expr => objective.criteria.text ++ " " ++ expr.text

def solveItem (model : Model) (objective : Objective) : String :=
  "solve" ++ model.directivesText ++ " " ++ objectiveText objective ++ ";"

/-- All items in the order of the text. -/
def items (model : Model) (objective : Objective) : List String :=
  model.requiredIncludes.map includeItem ++ model.constants.map Constant.declaration
    ++ model.vars.map Variable.declaration ++ model.constraints.map Constraint.text
    ++ [model.solveItem objective]

/-- The lines, each followed by a line feed. -/
def joinLines (lines : List String) : String :=
  String.join (lines.map fun line => line ++ "\n")

/-- The text of the model as it is now. -/
def render (model : Model) : Except ModelError String :=
  match model.objective with
  | none => .error .noCriteria
  | some objective => .ok (joinLines (model.items objective))

/-- Renders the model and keeps the text. -/
def generate (model : Model) : Except ModelError (String × Model) := do
  let text ← model.render
  return (text, { model with generated := some text })

/-- The kept text, or else a newly generated one. -/
def currentText (model : Model) : Except ModelError (String × Model) :=
  match model.generated with
  | some text => .ok (text, model)
  | none => model.generate

end MiniZincModels.Model
