import MiniZincModels.Proofs.Expr.Built
import MiniZincModels.Proofs.Model.Reachable

/-!
# Models built from a vocabulary

The expressions and searches which a program hands to a model are built from a
vocabulary of declared names and literals.  A model changes nothing in what it is
given, so all that it holds is built from the same vocabulary.
-/

namespace MiniZincModels

section Building

variable (vocabulary : Vocabulary)

/-- The searches on the variables of a vocabulary. -/
inductive Search.BuiltFrom : Search → Prop
  | branching {sort vars variableChoice valueChoice single}
      (hvars : ∀ declared ∈ vars, vocabulary.HasVariable declared)
      (hcreated : Branching.create sort vars variableChoice valueChoice = .ok single) :
      BuiltFrom (.branching single)
  | sequence {searches} (hsearches : ∀ search ∈ searches, BuiltFrom search) :
      BuiltFrom (.sequence searches)

/-- The body of a finished item is a condition; text is raw text. -/
def Postable.BuiltFrom : Postable → Prop
  | item constraint => Expr.Built vocabulary constraint.body ∧ constraint.body.kind = .bool
  | expr body => Expr.Built vocabulary body
  | text body => vocabulary.HasRaw body

/-- Everything that an operation hands to the model is built from the vocabulary. -/
def Operation.BuiltFrom : Operation → Prop
  | post given _ => ∀ item ∈ given, item.BuiltFrom vocabulary
  | setCriteria _ objective => ∀ expr ∈ objective, Expr.Built vocabulary expr
  | minimize objective => Expr.Built vocabulary objective
  | maximize objective => Expr.Built vocabulary objective
  | setSearch search => search.BuiltFrom vocabulary
  | _ => True

def Step.BuiltFrom : Step → Prop
  | operation performed => performed.BuiltFrom vocabulary
  | solve _ _ _ => True

/-- All expressions and searches which a model holds are built from the vocabulary. -/
structure Model.BuiltFrom (model : Model) : Prop where
  constraints : ∀ constraint ∈ model.constraints,
    Expr.Built vocabulary constraint.body ∧ constraint.body.kind = .bool
  objective : ∀ objective ∈ model.objective, ∀ expr ∈ objective.expr, Expr.Built vocabulary expr
  search : ∀ search ∈ model.search, search.BuiltFrom vocabulary

end Building

section Steps

variable {vocabulary : Vocabulary} {model after : Model} {step : Step}

theorem Postable.BuiltFrom.toConstraint {given : Postable} {constraint : Constraint}
    (hgiven : given.BuiltFrom vocabulary) (haccepted : given.toConstraint = .ok constraint) :
    Expr.Built vocabulary constraint.body ∧ constraint.body.kind = .bool := by
  cases given with
  | item finished =>
    cases haccepted
    exact hgiven
  | expr body =>
    obtain ⟨hkind, rfl⟩ := Outcome.guard_eq_ok.mp haccepted
    exact ⟨hgiven, hkind⟩
  | text body =>
    rw [Postable.toConstraint, ← ite_not, Outcome.guard_eq_ok] at haccepted
    obtain ⟨-, rfl⟩ := haccepted
    exact ⟨.raw hgiven, rfl⟩

/-- The constraints on one array of built elements can be posted. -/
theorem Postable.builtFrom_onArray {factory : List Expr → Except ModelError Constraint}
    {elements : List Expr} {posted : Constraint} (hfactory : factory ∈ Expr.arrayConstraints)
    (helements : ∀ element ∈ elements, Expr.Built vocabulary element)
    (hposted : factory elements = .ok posted) : BuiltFrom vocabulary (.item posted) := by
  refine ⟨.onArray hfactory helements hposted, ?_⟩
  simp only [Expr.arrayConstraints, List.mem_cons, List.not_mem_nil, or_false] at hfactory
  rcases hfactory with rfl | rfl | rfl | rfl
  all_goals
    obtain ⟨-, rfl⟩ := Constraint.onArray_eq_ok.mp hposted
    rfl

theorem Operation.BuiltFrom.criteria {operation : Operation} {criteria : Criteria}
    {objective : Option Expr} (hbuilt : operation.BuiltFrom vocabulary)
    (hasked : operation.criteria? = some (criteria, objective)) :
    ∀ expr ∈ objective, Expr.Built vocabulary expr := by
  cases operation with
  | setCriteria => cases hasked; exact hbuilt
  | satisfy => cases hasked; simp
  | minimize | maximize =>
    cases hasked
    rintro expr ⟨⟩
    exact hbuilt
  | _ => cases hasked

namespace Model

theorem builtFrom_empty : BuiltFrom vocabulary empty := by
  constructor <;> simp [empty]

theorem BuiltFrom.register (h : model.BuiltFrom vocabulary) {items : List Constraint}
    (hitems : ∀ item ∈ items, Expr.Built vocabulary item.body ∧ item.body.kind = .bool) :
    (model.register items).BuiltFrom vocabulary where
  constraints := List.forall_mem_append.mpr ⟨h.constraints, hitems⟩
  objective := h.objective
  search := h.search

theorem BuiltFrom.effect (h : model.BuiltFrom vocabulary) (hstep : step.BuiltFrom vocabulary)
    (heffect : Effect model step after) : after.BuiltFrom vocabulary := by
  cases heffect with
  | unchanged | textKept | addConstant | addVariable | addVariables | setRestart =>
    exact ⟨h.constraints, h.objective, h.search⟩
  | @post given redundant items accepted =>
    have hitems : ∀ item ∈ items, Expr.Built vocabulary item.body ∧ item.body.kind = .bool := by
      intro item hitem
      obtain ⟨origin, horigin, haccepted⟩ := Outcome.exists_of_mem_mapM accepted hitem
      exact (hstep origin horigin).toConstraint haccepted
    apply h.register
    split
    · rw [List.forall_mem_map]
      exact hitems
    · exact hitems
  | setCriteria asked fitting =>
    refine ⟨h.constraints, ?_, h.search⟩
    rintro objective ⟨⟩
    exact Operation.BuiltFrom.criteria hstep asked
  | setSearch search =>
    refine ⟨h.constraints, h.objective, ?_⟩
    rintro given ⟨⟩
    exact hstep

end Model

end Steps

/-! ## Programs without raw text -/

/-- All literals, and all names which can be declared, in this model or in another. -/
def Vocabulary.withoutRaw : Vocabulary where
  HasVariable declared := Identifier.isValid declared.name = true
  HasConstant constant := Identifier.isValid constant.name = true
  HasFloat _ := True
  HasRaw _ := False

theorem Vocabulary.hasVariable_withoutRaw {declared : Variable} :
    withoutRaw.HasVariable declared ↔ Identifier.isValid declared.name = true :=
  Iff.rfl

namespace Model

/-- The models of the programs which use no raw text. -/
abbrev ReachableWithoutRaw : Model → Prop :=
  ReachableBy fun _ step => step.BuiltFrom Vocabulary.withoutRaw

/-- A program whose operations use no raw text, whatever each of them answers. -/
theorem ReachableWithoutRaw.run {model : Model} (reached : ReachableWithoutRaw model)
    {operations : List Operation}
    (hbuilt : ∀ operation ∈ operations, operation.BuiltFrom Vocabulary.withoutRaw) :
    ReachableWithoutRaw (model.run operations) :=
  ReachableBy.run reached fun operation hmem _ => hbuilt operation hmem

theorem ReachableWithoutRaw.builtFrom {model : Model} (reached : ReachableWithoutRaw model) :
    model.BuiltFrom Vocabulary.withoutRaw := by
  apply ReachableBy.invariant builtFrom_empty _ reached
  intro before step after h hstep heffect
  exact h.effect hstep heffect

end Model

end MiniZincModels
