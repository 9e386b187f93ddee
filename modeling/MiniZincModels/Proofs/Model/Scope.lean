import MiniZincModels.Proofs.Expr.Scope
import MiniZincModels.Proofs.Model.Building
import MiniZincModels.Proofs.Model.Directives
import MiniZincModels.Proofs.Model.Framing

/-!
# Declared before used

A program gets hold of a variable or a constant through the answer to the operation that
declared it, and may put it into an expression or a search long before that is given to the
model.  A model never drops a declaration, so whatever the program does in between, every
name in the model is declared when it gets there, and its declaration stands above it in the
text.
-/

namespace MiniZincModels

namespace Answer

/-- The variables which an answer hands out. -/
def vars : Answer → List Variable
  | newVariable declared => [declared]
  | newCollection collection => collection.vars
  | _ => []

/-- The constants which an answer hands out. -/
def constants : Answer → List Constant
  | newConstant constant => [constant]
  | _ => []

end Answer

/-- All literals, and the variables and constants which the answers hand out. -/
def Vocabulary.ofAnswers (answers : List Answer) : Vocabulary where
  HasVariable declared := ∃ answer ∈ answers, declared ∈ answer.vars
  HasConstant constant := ∃ answer ∈ answers, constant ∈ answer.constants
  HasFloat _ := True
  HasRaw _ := False

theorem Vocabulary.within_ofAnswers_append (answers added : List Answer) :
    (ofAnswers answers).Within (ofAnswers (answers ++ added)) where
  vars := by
    rintro declared ⟨answer, hanswer, hmem⟩
    exact ⟨answer, List.mem_append_left added hanswer, hmem⟩
  constants := by
    rintro constant ⟨answer, hanswer, hmem⟩
    exact ⟨answer, List.mem_append_left added hanswer, hmem⟩
  floats := fun _ h => h
  raws := fun _ h => h

section Mono

variable {vocabulary larger : Vocabulary} (hwithin : vocabulary.Within larger)
include hwithin

theorem Search.BuiltFrom.mono {search : Search} (hbuilt : search.BuiltFrom vocabulary) :
    search.BuiltFrom larger := by
  induction hbuilt with
  | branching hvars hcreated =>
    exact .branching (fun declared hmem => hwithin.vars declared (hvars declared hmem)) hcreated
  | sequence _ ih => exact .sequence ih

theorem Model.BuiltFrom.mono {model : Model} (hbuilt : model.BuiltFrom vocabulary) :
    model.BuiltFrom larger where
  constraints constraint hmem :=
    (hbuilt.constraints constraint hmem).imp (Expr.Built.mono hwithin) id
  objective objective hobjective expr hexpr :=
    (hbuilt.objective objective hobjective expr hexpr).mono hwithin
  search search hsearch := Search.BuiltFrom.mono hwithin (hbuilt.search search hsearch)

end Mono

theorem Search.allVars_eq_flatMap (searches : List Search) :
    allVars searches = searches.flatMap vars := by
  induction searches with
  | nil => rfl
  | cons first rest ih => rw [allVars, ih, List.flatMap_cons]

theorem Search.BuiltFrom.hasVariable {vocabulary : Vocabulary} {search : Search}
    (hbuilt : search.BuiltFrom vocabulary) :
    ∀ declared ∈ search.vars, vocabulary.HasVariable declared := by
  induction hbuilt with
  | branching hvars hcreated =>
    obtain ⟨-, rfl⟩ := Branching.create_eq_ok.mp hcreated
    exact hvars
  | sequence _ ih =>
    intro declared hmem
    rw [vars, allVars_eq_flatMap] at hmem
    obtain ⟨search, hsearch, hdeclared⟩ := List.mem_flatMap.mp hmem
    exact ih search hsearch declared hdeclared

namespace Model

/-! ## Programs that use their own declarations -/

/-- The answer to a step, if it is an operation that succeeds. -/
def answers (model : Model) : Step → List Answer
  | .operation operation =>
    match (model.perform operation).2 with
    | .ok answer => [answer]
    | .error _ => []
  | .solve _ _ _ => []

/-- The steps use no raw text, and only variables and constants which were handed out before,
by the given answers or by the answers to earlier steps. -/
def AnswersSuffice (model : Model) (answers : List Answer) : List Step → Prop
  | [] => True
  | step :: rest =>
    step.BuiltFrom (.ofAnswers answers) ∧
      (model.advance step).AnswersSuffice (answers ++ model.answers step) rest

variable {model changed : Model} {answer : Answer} {answers : List Answer} {step : Step}

/-- The variables and constants of an answer are declared in the model. -/
def Declares (model : Model) (answer : Answer) : Prop :=
  answer.vars ⊆ model.vars ∧ answer.constants ⊆ model.constants

theorem Declares.effect (h : model.Declares answer) (heffect : Effect model step changed) :
    changed.Declares answer := by
  obtain ⟨hconstants, hvars, -⟩ := heffect.prefixes
  exact ⟨List.Subset.trans h.1 hvars.subset, List.Subset.trans h.2 hconstants.subset⟩

theorem declares_of_eq_nil (hvars : answer.vars = []) (hconstants : answer.constants = []) :
    model.Declares answer := by
  rw [Declares, hvars, hconstants]
  exact ⟨List.nil_subset _, List.nil_subset _⟩

theorem declares_of_addConstant {name : String} {value : ConstantValue} {constant : Constant}
    (h : model.addConstant name value = .ok (constant, changed)) :
    changed.Declares (.newConstant constant) := by
  obtain ⟨_, -, h⟩ := Outcome.bind_eq_ok.mp h
  obtain ⟨_, -, h⟩ := Outcome.bind_eq_ok.mp h
  cases h
  exact ⟨List.nil_subset _, List.subset_append_right _ _⟩

theorem declares_of_addVariable {name : String} {definition : Definition} {declared : Variable}
    (h : model.addVariable name definition = .ok (declared, changed)) :
    changed.Declares (.newVariable declared) := by
  obtain ⟨_, -, h⟩ := Outcome.bind_eq_ok.mp h
  obtain ⟨_, -, h⟩ := Outcome.bind_eq_ok.mp h
  cases h
  exact ⟨List.subset_append_right _ _, List.nil_subset _⟩

theorem declares_of_addVariables {base : String} {definitions : List (IndexKey × Definition)}
    {collection : Collection}
    (h : model.addVariablesWith base definitions = .ok (collection, changed)) :
    changed.Declares (.newCollection collection) := by
  rw [addVariablesWith] at h
  split at h
  · obtain ⟨_, -, h⟩ := Outcome.bind_eq_ok.mp h
    cases h
    exact ⟨List.subset_append_right _ _, List.nil_subset _⟩
  · cases h

theorem settle_declares {α : Type} {outcome : Except ModelError α} {finish : α → Answer × Model}
    (hok : (model.settle (outcome.map finish)).2 = .ok answer)
    (h : ∀ result, outcome = .ok result → (finish result).2.Declares (finish result).1) :
    (model.settle (outcome.map finish)).1.Declares answer := by
  obtain ⟨result, houtcome, hanswer, hafter⟩ := settle_eq_ok hok
  rw [← hanswer, ← hafter]
  exact h result houtcome

theorem text_of_render (hok : (model.perform .render).2 = .ok answer) :
    ∃ text, answer = .text text := by
  change model.render.map Answer.text = .ok answer at hok
  cases hrendered : model.render with
  | error error =>
    rw [hrendered] at hok
    cases hok
  | ok text =>
    rw [hrendered] at hok
    cases hok
    exact ⟨text, rfl⟩

theorem written_of_write {path : String} {writable : Bool}
    (hok : (model.perform (.write path writable)).2 = .ok answer) :
    ∃ content, answer = .written content := by
  change (model.write path writable).2 = .ok answer at hok
  rw [write] at hok
  split at hok
  · cases hok
  · obtain ⟨-, rfl⟩ := Outcome.guard_eq_ok.mp hok
    exact ⟨_, rfl⟩

/-- What an operation hands out is declared when it does so. -/
theorem perform_declares {operation : Operation}
    (hok : (model.perform operation).2 = .ok answer) :
    (model.perform operation).1.Declares answer := by
  cases operation with
  | addConstant name value => exact settle_declares hok fun _ h => declares_of_addConstant h
  | addVariable name definition => exact settle_declares hok fun _ h => declares_of_addVariable h
  | addVariables base definitions =>
    exact settle_declares hok fun _ h => declares_of_addVariables h
  | post | setCriteria | minimize | maximize | setRestart | generate | currentText =>
    exact settle_declares hok fun _ _ => declares_of_eq_nil rfl rfl
  | abandon | satisfy | setSearch =>
    cases hok
    exact declares_of_eq_nil rfl rfl
  | generatedText =>
    cases hok
    cases model.generated <;> exact declares_of_eq_nil rfl rfl
  | render =>
    obtain ⟨text, rfl⟩ := text_of_render hok
    exact declares_of_eq_nil rfl rfl
  | write path writable =>
    obtain ⟨content, rfl⟩ := written_of_write hok
    exact declares_of_eq_nil rfl rfl

/-- What the answers hand out is declared in the model, which holds only what is built from it. -/
structure Scoped (model : Model) (answers : List Answer) : Prop where
  declares : ∀ answer ∈ answers, model.Declares answer
  builtFrom : model.BuiltFrom (.ofAnswers answers)

theorem scoped_empty : Scoped empty [] where
  declares := List.forall_mem_nil _
  builtFrom := builtFrom_empty

theorem Scoped.advance (h : Scoped model answers) (built : step.BuiltFrom (.ofAnswers answers)) :
    Scoped (model.advance step) (answers ++ model.answers step) where
  declares := by
    rw [List.forall_mem_append]
    refine ⟨fun answer hmem => (h.declares answer hmem).effect (advance_effect model step), ?_⟩
    cases step with
    | solve => exact List.forall_mem_nil _
    | operation operation =>
      rw [Model.answers]
      split
      · rename_i hok
        exact List.forall_mem_singleton.mpr (perform_declares hok)
      · exact List.forall_mem_nil _
  builtFrom :=
    (h.builtFrom.effect built (advance_effect model step)).mono
      (Vocabulary.within_ofAnswers_append answers _)

theorem Scoped.after {steps : List Step} (h : Scoped model answers)
    (hsuffice : model.AnswersSuffice answers steps) :
    ∃ later, Scoped (model.after steps) later := by
  induction steps generalizing model answers with
  | nil => exact ⟨answers, h⟩
  | cons step rest ih => exact ih (h.advance hsuffice.1) hsuffice.2

/-- All literals, and what is declared in the model. -/
def vocabulary (model : Model) : Vocabulary where
  HasVariable declared := declared ∈ model.vars
  HasConstant constant := constant ∈ model.constants
  HasFloat _ := True
  HasRaw _ := False

theorem Scoped.within_vocabulary (hscoped : Scoped model answers) :
    (Vocabulary.ofAnswers answers).Within model.vocabulary where
  vars := by
    rintro declared ⟨answer, hanswer, hmem⟩
    exact (hscoped.declares answer hanswer).1 hmem
  constants := by
    rintro constant ⟨answer, hanswer, hmem⟩
    exact (hscoped.declares answer hanswer).2 hmem
  floats := fun _ h => h
  raws := fun _ h => h

/-- What a model holds is built from what it declares itself. -/
theorem Scoped.builtFrom_vocabulary (hscoped : Scoped model answers) :
    model.BuiltFrom model.vocabulary :=
  hscoped.builtFrom.mono hscoped.within_vocabulary

/-! ## Names in scope -/

def declaredNames (model : Model) : List String :=
  model.constants.map Constant.name ++ model.vars.map Variable.name

/-- A node that is a name refers to the one declaration of this name, has the kind of that
declaration, and as many indices as it has dimensions.  No node is raw text. -/
def InScope (model : Model) : Expr → Prop
  | .identifier name kind =>
    model.declaredNames.count name = 1 ∧
      ((∃ declared ∈ model.vars, declared.name = name ∧ declared.kind = kind) ∨
        ∃ constant ∈ model.constants,
          constant.name = name ∧ constant.kind = kind ∧ constant.dimensions = [])
  | .access name kind indices =>
    model.declaredNames.count name = 1 ∧
      ∃ constant ∈ model.constants, constant.name = name ∧ constant.kind = kind ∧
        1 ≤ indices.length ∧ indices.length = constant.dimensions.length
  | .raw _ => False
  | _ => True

section Names

variable (hnames : model.NamesAgree)
include hnames

theorem NamesAgree.count_declaredNames {name : String} (hmem : name ∈ model.declaredNames) :
    model.declaredNames.count name = 1 :=
  List.count_eq_one_of_mem (hnames.declared.nodup_iff.mpr hnames.nodup) hmem

theorem NamesAgree.count_var {declared : Variable} (hmem : declared ∈ model.vars) :
    model.declaredNames.count declared.name = 1 :=
  hnames.count_declaredNames (List.mem_append_right _ (List.mem_map_of_mem hmem))

theorem NamesAgree.count_constant {constant : Constant} (hmem : constant ∈ model.constants) :
    model.declaredNames.count constant.name = 1 :=
  hnames.count_declaredNames (List.mem_append_left _ (List.mem_map_of_mem hmem))

theorem NamesAgree.inScope_of_fits {expr : Expr} (hfits : Expr.Fits model.vocabulary expr) :
    model.InScope expr := by
  cases expr with
  | identifier name kind =>
    rcases hfits with ⟨declared, hmem, rfl, hkind⟩ | ⟨constant, hmem, rfl, hkind, hscalar⟩
    · exact ⟨hnames.count_var hmem, .inl ⟨declared, hmem, rfl, hkind⟩⟩
    · exact ⟨hnames.count_constant hmem, .inr ⟨constant, hmem, rfl, hkind, hscalar⟩⟩
  | access name kind indices =>
    obtain ⟨constant, hmem, rfl, hkind, hdimensions, hlength⟩ := hfits
    have hpositive : 1 ≤ indices.length := by
      rw [hlength]
      exact List.length_pos_iff.mpr hdimensions
    exact ⟨hnames.count_constant hmem, constant, hmem, rfl, hkind, hpositive, hlength⟩
  | raw text => exact hfits
  | _ => exact trivial

theorem NamesAgree.everywhere_inScope {expr : Expr}
    (hbuilt : Expr.Built model.vocabulary expr) : expr.Everywhere model.InScope := by
  have hfits := hbuilt.wellFormed.fits
  clear hbuilt
  induction hfits with
  | node here _ ih => exact .node (hnames.inScope_of_fits here) ih

end Names

theorem InScope.mem_declaredNames {node : Expr} {name : String} (hscope : model.InScope node)
    (hname : node.name? = some name) : name ∈ model.declaredNames := by
  cases node with
  | identifier | access =>
    cases hname
    exact List.one_le_count_iff.mp hscope.1.ge
  | _ => cases hname

theorem mem_declaredNames_of_mentions {expr : Expr} {name : String}
    (hscope : expr.Everywhere model.InScope) (hmentions : expr.Mentions name) :
    name ∈ model.declaredNames := by
  obtain ⟨node, hname, hnode⟩ := hmentions.exists_node hscope
  exact hnode.mem_declaredNames hname

end Model

end MiniZincModels
