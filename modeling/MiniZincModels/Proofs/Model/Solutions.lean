import MiniZincModels.Model.Basic
import MiniZincModels.Proofs.Expr.Meaning

/-!
# Solutions of a model

An assignment gives an integer to every name.  It is a solution of a model if each variable
has a value from its domain and all constraints hold.  Constraints that are marked as
redundant are meant to follow from the others, so what a model asks for is said by the
others alone.
-/

namespace MiniZincModels

/-- The integers in a domain; the values of a boolean are 0 and 1.  No integer is the value
of a float or of a set. -/
def Domain.Admits : Domain → Int → Prop
  | int domain, value => ∃ number : Int64, domain.Contains number ∧ number.toInt = value
  | bool, value => value = 0 ∨ value = 1
  | float _ _, _ | intSet _, _ => False

theorem Domain.admits_interval {lower upper : Int64} {value : Int} :
    (int (.interval lower upper)).Admits value ↔ lower.toInt ≤ value ∧ value ≤ upper.toInt := by
  constructor
  · rintro ⟨number, hcontains, rfl⟩
    exact hcontains
  · rintro ⟨hlower, hupper⟩
    have hleast := lower.le_toInt
    have hgreatest := upper.toInt_lt
    have hvalue : (Int64.ofInt value).toInt = value :=
      Int64.toInt_ofInt_of_le (by omega) (by omega)
    exact ⟨Int64.ofInt value, by rw [IntDomain.Contains, hvalue]; exact ⟨hlower, hupper⟩, hvalue⟩

namespace Model

/-- What the names of the model stand for, if the variables are given values. -/
def interpretation (model : Model) (assignment : String → Int) : Interpretation :=
  ⟨model.constants, assignment⟩

/-- Every variable has a value from its domain. -/
def IsInDomains (model : Model) (assignment : String → Int) : Prop :=
  ∀ declared ∈ model.vars, declared.domain.Admits (assignment declared.name)

/-- The given constraints hold. -/
def Satisfies (model : Model) (assignment : String → Int) (constraints : List Constraint) : Prop :=
  ∀ constraint ∈ constraints, constraint.Holds (model.interpretation assignment)

section Satisfies

variable {model : Model} {assignment : String → Int} {constraint : Constraint}
  {constraints first second : List Constraint}

theorem satisfies_singleton :
    model.Satisfies assignment [constraint] ↔ constraint.Holds (model.interpretation assignment) :=
  List.forall_mem_singleton

theorem satisfies_cons :
    model.Satisfies assignment (constraint :: constraints) ↔
      constraint.Holds (model.interpretation assignment) ∧
        model.Satisfies assignment constraints :=
  List.forall_mem_cons

theorem satisfies_append :
    model.Satisfies assignment (first ++ second) ↔
      model.Satisfies assignment first ∧ model.Satisfies assignment second :=
  List.forall_mem_append

end Satisfies

/-- The constraints that are not marked as redundant. -/
def required (model : Model) : List Constraint :=
  model.constraints.filter fun constraint => !constraint.redundant

/-- The value of the expression to be optimised. -/
def objectiveValue? (model : Model) (assignment : String → Int) : Option Int := do
  let objective ← model.objective
  let expr ← objective.expr
  expr.value? (model.interpretation assignment)

/-- Some assignment within the domains satisfies the given constraints with this value of the
objective. -/
def Attains (model : Model) (constraints : List Constraint) (value : Int) : Prop :=
  ∃ assignment, model.IsInDomains assignment ∧ model.Satisfies assignment constraints ∧
    model.objectiveValue? assignment = some value

end Model

namespace Variable

/-- A variable of integers or booleans stands for what is assigned to its name. -/
theorem value?_toExpr (declared : Variable) {given : Interpretation}
    (hkind : declared.kind = .int ∨ declared.kind = .bool)
    (hfree : ∀ constant ∈ given.constants, constant.name ≠ declared.name) :
    Expr.value? given declared.toExpr = some (given.assignment declared.name) := by
  have hnone : given.constant? declared.name = none := by
    simpa [Interpretation.constant?] using hfree
  rw [toExpr, Expr.value?, if_pos hkind, Interpretation.name?, hnone]

end Variable

end MiniZincModels
