import MiniZincModels.Constraint.Basic
import MiniZincModels.Declaration.Collection
import MiniZincModels.Declaration.Constant
import MiniZincModels.SolveItem.Restart
import MiniZincModels.SolveItem.Search

/-!
# Models under construction

A model collects declarations, constraints and the parts of the solve item.  An
operation that is refused gives an error and no model, so the caller goes on with
the one it had.  Every change drops the text that was generated before.
-/

namespace MiniZincModels

/-- What the solver is asked for, with the expression to be optimised. -/
structure Objective where
  criteria : Criteria
  expr : Option Expr

/-- A model under construction. -/
structure Model where
  constants : List Constant
  vars : List Variable
  constraints : List Constraint
  /-- The declared names. -/
  identifiers : List String
  /-- The global constraints whose definitions have to be included. -/
  globals : List Global
  objective : Option Objective
  search : Option Search
  restart : Option RestartStrategy
  /-- The text of the last generation, unless the model changed since. -/
  generated : Option String

namespace Model

/-- The model without any item. -/
def empty : Model :=
  ⟨[], [], [], [], [], none, none, none, none⟩

instance : Inhabited Model := ⟨empty⟩

/-- A name can be declared if it is an identifier that is not declared yet. -/
def checkIdentifier (model : Model) (name : String) : Except ModelError Unit :=
  if Identifier.isValid name then
    if model.identifiers.contains name then .error (.duplicateIdentifier name) else .ok ()
  else .error (.invalidIdentifier name)

/-- Declares a constant. -/
def addConstant (model : Model) (name : String) (value : ConstantValue) :
    Except ModelError (Constant × Model) := do
  model.checkIdentifier name
  let constant ← Constant.define name value
  return (constant,
    { model with
      constants := model.constants ++ [constant]
      identifiers := model.identifiers ++ [name]
      generated := none })

/-- Declares a variable. -/
def addVariable (model : Model) (name : String) (definition : Definition) :
    Except ModelError (Variable × Model) := do
  model.checkIdentifier name
  let declared ← Variable.define name definition
  return (declared,
    { model with
      vars := model.vars ++ [declared]
      identifiers := model.identifiers ++ [name]
      generated := none })

/-- The variable for a key, whose name may neither be declared nor be among those
already taken by other keys. -/
def defineIndexed (model : Model) (base : String) (taken : List String) (key : IndexKey)
    (definition : Definition) : Except ModelError Variable := do
  let name := key.variableName base
  model.checkIdentifier name
  if taken.contains name then .error (.duplicateIdentifier name)
  else Variable.define name definition

/-- Adds the variables for the remaining keys to a collection. -/
def defineAll (model : Model) (base : String) :
    List (IndexKey × Definition) → Collection → Except ModelError Collection
  | [], collection => .ok collection
  | (key, definition) :: rest, collection => do
    let taken := collection.vars.map Variable.name
    let declared ← model.defineIndexed base taken key definition
    model.defineAll base rest (collection.insert key declared)

/-- Declares one variable for every key, each with a definition of its own, or
none at all. -/
def addVariablesWith (model : Model) (base : String) (definitions : List (IndexKey × Definition)) :
    Except ModelError (Collection × Model) :=
  if Identifier.isValid base then do
    let collection ← model.defineAll base definitions Collection.empty
    return (collection,
      { model with
        vars := model.vars ++ collection.vars
        identifiers := model.identifiers ++ collection.vars.map Variable.name
        generated := none })
  else .error (.invalidIdentifier base)

/-- Declares one variable for every key, all with the same definition. -/
def addVariables (model : Model) (base : String) (keys : List IndexKey) (definition : Definition) :
    Except ModelError (Collection × Model) :=
  model.addVariablesWith base (keys.map fun key => (key, definition))

/-- Adds a global constraint to those to be included, if there is one and it is new. -/
def noteGlobal (globals : List Global) : Option Global → List Global
  | none => globals
  | some global => if globals.contains global then globals else globals ++ [global]

/-- Appends finished constraint items. -/
def register (model : Model) (constraints : List Constraint) : Model :=
  { model with
    constraints := model.constraints ++ constraints
    globals := constraints.foldl (fun globals item => noteGlobal globals item.global) model.globals
    generated := none }

/-- Posts all given constraints, marked as redundant if asked for, or none of them. -/
def post (model : Model) (given : List Postable) (redundant : Bool) :
    Except ModelError Model := do
  let constraints ← given.mapM Postable.toConstraint
  let marked := if redundant then constraints.map Constraint.markRedundant else constraints
  return model.register marked

/-- The warning about constraints that were prepared and never posted. -/
def abandonWarning : String :=
  "A constraint poster is never used, this is likely a mistake."

/-- An objective goes with the criteria if it is there exactly when it is needed, is
no set and has a spelling. -/
def checkObjective (criteria : Criteria) (expr : Option Expr) : Except ModelError Unit :=
  match criteria, expr with
  | .satisfy, some _ => .error (.objective criteria .unexpected)
  | .satisfy, none => .ok ()
  | _, none => .error (.objective criteria .absent)
  | _, some objective =>
    if !objective.kind.isScalar then .error (.objective criteria .notNumeric)
    else if !objective.isFiniteLiteral then .error (.objective criteria .notFinite)
    else .ok ()

/-- Sets what the solver is asked for, in place of what was set before. -/
def setCriteria (model : Model) (criteria : Criteria) (expr : Option Expr) :
    Except ModelError Model := do
  checkObjective criteria expr
  return { model with objective := some ⟨criteria, expr⟩, generated := none }

/-- Asks for any solution. -/
def satisfy (model : Model) : Model :=
  { model with objective := some ⟨.satisfy, none⟩, generated := none }

def minimize (model : Model) (objective : Expr) : Except ModelError Model :=
  model.setCriteria .minimize (some objective)

def maximize (model : Model) (objective : Expr) : Except ModelError Model :=
  model.setCriteria .maximize (some objective)

/-- Sets the search directive, in place of what was set before. -/
def setSearch (model : Model) (search : Search) : Model :=
  { model with search := some search, generated := none }

/-- Sets the restart strategy, for which there has to be a search directive. -/
def setRestart (model : Model) (strategy : RestartStrategy) : Except ModelError Model :=
  if model.search.isNone then .error .restartWithoutSearch
  else do
    let strategy ← strategy.validate
    return { model with restart := some strategy, generated := none }

/-- The global constraints to be included, in the order of their names. -/
def requiredIncludes (model : Model) : List Global :=
  Global.all.filter model.globals.contains

end Model

end MiniZincModels
