import MiniZincModels.Model.Operation

/-!
# Operations in place

Here every operation is a sequence of single assignments to the fields of one
model, in the order in which they are made.  A failure ends the operation and
undoes nothing, so whatever was assigned before it stays.  The programs agree
with `Model.perform`, which gives the whole outcome of an operation at once.
-/

namespace MiniZincModels

/-- A program on a model, which leaves a model and gives a value or an error. -/
structure Edit (α : Type) where
  run : Model → Model × Except ModelError α

namespace Edit

variable {α β : Type}

/-- After a failure nothing more is done, and nothing is undone. -/
instance : Monad Edit where
  pure value := ⟨fun model => (model, .ok value)⟩
  bind first next := ⟨fun model =>
    match first.run model with
    | (after, .ok value) => (next value).run after
    | (after, .error error) => (after, .error error)⟩

def look : Edit Model :=
  ⟨fun model => (model, .ok model)⟩

def check (outcome : Except ModelError α) : Edit α :=
  ⟨fun model => (model, outcome)⟩

def assign (change : Model → Model) : Edit Unit :=
  ⟨fun model => (change model, .ok ())⟩

/-! ## The assignments -/

def insertIdentifier (name : String) : Edit Unit :=
  assign fun model => { model with identifiers := model.identifiers ++ [name] }

def pushConstant (constant : Constant) : Edit Unit :=
  assign fun model => { model with constants := model.constants ++ [constant] }

def pushVariable (declared : Variable) : Edit Unit :=
  assign fun model => { model with vars := model.vars ++ [declared] }

def insertGlobal (global : Option Global) : Edit Unit :=
  assign fun model => { model with globals := Model.noteGlobal model.globals global }

def pushConstraint (constraint : Constraint) : Edit Unit :=
  assign fun model => { model with constraints := model.constraints ++ [constraint] }

def setObjective (objective : Objective) : Edit Unit :=
  assign fun model => { model with objective := some objective }

def setGenerated (generated : Option String) : Edit Unit :=
  assign fun model => { model with generated := generated }

/-! ## The operations -/

def addConstant (name : String) (value : ConstantValue) : Edit Answer := do
  let model ← look
  check (model.checkIdentifier name)
  let constant ← check (Constant.define name value)
  insertIdentifier name
  pushConstant constant
  setGenerated none
  return .newConstant constant

def addVariable (name : String) (definition : Definition) : Edit Answer := do
  let model ← look
  check (model.checkIdentifier name)
  let declared ← check (Variable.define name definition)
  insertIdentifier name
  pushVariable declared
  setGenerated none
  return .newVariable declared

/-- Defines the variables for the remaining keys one after the other. -/
def defineEach (base : String) : List (IndexKey × Definition) → Collection → Edit Collection
  | [], collection => return collection
  | (key, definition) :: rest, collection => do
    let model ← look
    let taken := collection.vars.map Variable.name
    let declared ← check (model.defineIndexed base taken key definition)
    defineEach base rest (collection.insert key declared)

def addVariables (base : String) (definitions : List (IndexKey × Definition)) : Edit Answer := do
  check (if Identifier.isValid base then .ok () else .error (.invalidIdentifier base))
  let collection ← defineEach base definitions Collection.empty
  forM (collection.vars.map Variable.name) insertIdentifier
  forM collection.vars pushVariable
  setGenerated none
  return .newCollection collection

def registerOne (constraint : Constraint) : Edit Unit := do
  insertGlobal constraint.global
  pushConstraint constraint

def post (given : List Postable) (redundant : Bool) : Edit Answer := do
  let constraints ← check (given.mapM Postable.toConstraint)
  let marked := if redundant then constraints.map Constraint.markRedundant else constraints
  forM marked registerOne
  setGenerated none
  return .done

def satisfy : Edit Answer := do
  setObjective ⟨.satisfy, none⟩
  setGenerated none
  return .done

def setCriteria (criteria : Criteria) (expr : Option Expr) : Edit Answer := do
  check (Model.checkObjective criteria expr)
  setObjective ⟨criteria, expr⟩
  setGenerated none
  return .done

def setSearch (search : Search) : Edit Answer := do
  assign fun model => { model with search := some search }
  setGenerated none
  return .done

def setRestart (strategy : RestartStrategy) : Edit Answer := do
  let model ← look
  check (if model.search.isNone then .error .restartWithoutSearch else .ok ())
  let accepted ← check strategy.validate
  assign fun model => { model with restart := some accepted }
  setGenerated none
  return .done

def generate : Edit String := do
  let model ← look
  let text ← check model.render
  setGenerated (some text)
  return text

/-- Takes the kept text out of the model and puts it back, or generates a new one. -/
def currentText : Edit String := do
  let model ← look
  setGenerated none
  match model.generated with
  | some text =>
    setGenerated (some text)
    return text
  | none => generate

def write (path : String) (writable : Bool) : Edit Answer := do
  let text ← currentText
  check (if writable then .ok (.written text) else .error (.notWritten path))

end Edit

/-- An operation as a program of single assignments. -/
def Operation.inPlace : Operation → Edit Answer
  | addConstant name value => Edit.addConstant name value
  | addVariable name definition => Edit.addVariable name definition
  | addVariables base definitions => Edit.addVariables base definitions
  | post given redundant => Edit.post given redundant
  | abandon _ => return .warning Model.abandonWarning
  | setCriteria criteria objective => Edit.setCriteria criteria objective
  | satisfy => Edit.satisfy
  | minimize objective => Edit.setCriteria .minimize (some objective)
  | maximize objective => Edit.setCriteria .maximize (some objective)
  | setSearch search => Edit.setSearch search
  | setRestart strategy => Edit.setRestart strategy
  | render => return .text (← Edit.check (← Edit.look).render)
  | generate => return .text (← Edit.generate)
  | generatedText => return (← Edit.look).generated.elim .noText .text
  | currentText => return .text (← Edit.currentText)
  | write path writable => Edit.write path writable

/-! ## Agreement with the operations as a whole -/

namespace Edit

section Run

variable {α β : Type} (model : Model)

theorem run_bind (first : Edit α) (next : α → Edit β) :
    (first >>= next).run model =
      match first.run model with
      | (after, .ok value) => (next value).run after
      | (after, .error error) => (after, .error error) := rfl

theorem run_look : look.run model = (model, .ok model) := rfl

theorem run_check (outcome : Except ModelError α) :
    (check outcome).run model = (model, outcome) := rfl

/-- Assignments made one after the other are one assignment. -/
theorem run_forM_assign (change : α → Model → Model) (values : List α) :
    (forM values fun value => assign (change value)).run model =
      (values.foldl (fun model value => change value model) model, .ok ()) := by
  induction values generalizing model with
  | nil => rfl
  | cons value values ih =>
    rw [List.forM_cons, run_bind]
    exact ih (change value model)

theorem run_forM_insertIdentifier (names : List String) :
    (forM names insertIdentifier).run model =
      ({ model with identifiers := model.identifiers ++ names }, .ok ()) := by
  refine (run_forM_assign model _ names).trans ?_
  induction names generalizing model with
  | nil => simp
  | cons name names ih => simpa using ih { model with identifiers := model.identifiers ++ [name] }

theorem run_forM_pushVariable (declared : List Variable) :
    (forM declared pushVariable).run model =
      ({ model with vars := model.vars ++ declared }, .ok ()) := by
  refine (run_forM_assign model _ declared).trans ?_
  induction declared generalizing model with
  | nil => simp
  | cons one declared ih => simpa using ih { model with vars := model.vars ++ [one] }

/-- Registering items one by one is registering them together. -/
theorem run_forM_registerOne (items : List Constraint) :
    (forM items registerOne).run model =
      ({ model.register items with generated := model.generated }, .ok ()) := by
  induction items generalizing model with
  | nil =>
    simp only [Model.register, List.append_nil, List.foldl_nil]
    rfl
  | cons item items ih =>
    have hone : (registerOne item).run model =
        ({ model.register [item] with generated := model.generated }, .ok ()) := rfl
    rw [List.forM_cons, run_bind, hone]
    dsimp only
    rw [ih]
    simp [Model.register]

theorem run_defineEach (base : String) (definitions : List (IndexKey × Definition))
    (collection : Collection) :
    (defineEach base definitions collection).run model =
      (model, model.defineAll base definitions collection) := by
  induction definitions generalizing collection with
  | nil => rfl
  | cons entry rest ih =>
    obtain ⟨key, definition⟩ := entry
    simp only [defineEach, Model.defineAll, run_bind, run_look, run_check]
    cases model.defineIndexed base (collection.vars.map Variable.name) key definition with
    | error error => rfl
    | ok declared => exact ih _

theorem run_addVariables (base : String) (definitions : List (IndexKey × Definition)) :
    (addVariables base definitions).run model =
      model.perform (.addVariables base definitions) := by
  change _ = model.settle ((model.addVariablesWith base definitions).map _)
  rw [addVariables, Model.addVariablesWith]
  cases Identifier.isValid base with
  | false => rfl
  | true =>
    simp only [run_bind, run_check, run_defineEach, if_true]
    cases model.defineAll base definitions Collection.empty with
    | error error => rfl
    | ok collection =>
      simp only [run_forM_insertIdentifier, run_forM_pushVariable]
      rfl

theorem run_post (given : List Postable) (redundant : Bool) :
    (post given redundant).run model = model.perform (.post given redundant) := by
  change _ = model.settle ((model.post given redundant).map _)
  rw [post, Model.post]
  simp only [run_bind, run_check]
  cases given.mapM Postable.toConstraint with
  | error error => rfl
  | ok items =>
    simp only [run_forM_registerOne]
    rfl

theorem run_setCriteria (criteria : Criteria) (expr : Option Expr) :
    (setCriteria criteria expr).run model = model.perform (.setCriteria criteria expr) := by
  change _ = model.settle ((model.setCriteria criteria expr).map _)
  rw [setCriteria, Model.setCriteria]
  simp only [run_bind, run_check]
  cases Model.checkObjective criteria expr <;> rfl

theorem run_generate :
    generate.run model =
      match model.generate with
      | .ok (text, kept) => (kept, .ok text)
      | .error error => (model, .error error) := by
  rw [generate, Model.generate]
  simp only [run_bind, run_look, run_check]
  cases model.render <;> rfl

theorem run_currentText :
    currentText.run model =
      match model.currentText with
      | .ok (text, kept) => (kept, .ok text)
      | .error error => (model, .error error) := by
  rw [currentText, Model.currentText]
  obtain ⟨_, _, _, _, _, _, _, _, generated⟩ := model
  cases generated with
  | some text => rfl
  | none => exact run_generate _

end Run

end Edit

/-- The single assignments of an operation make up its outcome as a whole. -/
theorem Operation.run_inPlace (operation : Operation) (model : Model) :
    operation.inPlace.run model = model.perform operation := by
  cases operation with
  | addConstant name value =>
    change _ = model.settle ((model.addConstant name value).map _)
    simp only [inPlace, Edit.addConstant, Model.addConstant, Edit.run_bind, Edit.run_look,
      Edit.run_check]
    cases model.checkIdentifier name with
    | error error => rfl
    | ok _ => cases Constant.define name value <;> rfl
  | addVariable name definition =>
    change _ = model.settle ((model.addVariable name definition).map _)
    simp only [inPlace, Edit.addVariable, Model.addVariable, Edit.run_bind, Edit.run_look,
      Edit.run_check]
    cases model.checkIdentifier name with
    | error error => rfl
    | ok _ => cases Variable.define name definition <;> rfl
  | addVariables base definitions => exact Edit.run_addVariables model base definitions
  | post given redundant => exact Edit.run_post model given redundant
  | abandon given => rfl
  | setCriteria criteria objective => exact Edit.run_setCriteria model criteria objective
  | satisfy => rfl
  | minimize objective => exact Edit.run_setCriteria model .minimize (some objective)
  | maximize objective => exact Edit.run_setCriteria model .maximize (some objective)
  | setSearch search => rfl
  | setRestart strategy =>
    change _ = model.settle ((model.setRestart strategy).map _)
    simp only [inPlace, Edit.setRestart, Model.setRestart, Edit.run_bind, Edit.run_look,
      Edit.run_check]
    cases model.search.isNone with
    | true => rfl
    | false => cases strategy.validate <;> rfl
  | render =>
    change _ = (model, model.render.map Answer.text)
    simp only [inPlace, Edit.run_bind, Edit.run_look, Edit.run_check]
    cases model.render <;> rfl
  | generate =>
    change _ = model.settle (model.generate.map _)
    simp only [inPlace, Edit.run_bind, Edit.run_generate]
    cases model.generate <;> rfl
  | generatedText =>
    simp only [inPlace, Model.perform, Edit.run_bind, Edit.run_look]
    cases model.generated <;> rfl
  | currentText =>
    change _ = model.settle (model.currentText.map _)
    simp only [inPlace, Edit.run_bind, Edit.run_currentText]
    cases model.currentText <;> rfl
  | write path writable =>
    change _ = model.write path writable
    simp only [inPlace, Edit.write, Model.write, Edit.run_bind, Edit.run_currentText]
    cases model.currentText <;> rfl

end MiniZincModels
