import MiniZincModels.Constraint.Library
import MiniZincModels.Proofs.Expr.Checked

/-!
# What the global constraints accept

The constraints of the library take arrays that are not empty and belong together,
and each applies its predicate to them.
-/

namespace MiniZincModels.Constraint

open MiniZincModels.Expr (IsScalar)

/-- An array of scalars that is not empty. -/
def AreScalars (elements : List Expr) : Prop :=
  elements ≠ [] ∧ ∀ element ∈ elements, element.IsScalar

/-- Two ends for every edge, and a condition for every node and edge. -/
structure Graph.IsSound (graph : Graph) : Prop where
  nodes : (∀ node ∈ graph.nodes, node.kind = .bool) ∧ graph.nodes ≠ []
  edges : (∀ edge ∈ graph.edges, edge.kind = .bool) ∧ graph.edges ≠ []
  targets_length : graph.targets.length = graph.sources.length
  edges_length : graph.edges.length = graph.sources.length

variable {global : Global} {argument : String} {elements others results : List Expr}
variable {posted : Constraint}

theorem someElements_eq_ok :
    someElements argument elements = .ok results ↔ elements ≠ [] ∧ results = elements := by
  rw [someElements, ← ite_not, Outcome.guard_eq_ok, List.isEmpty_iff]

theorem someScalars_eq_ok :
    someScalars argument elements = .ok results ↔ AreScalars elements ∧ results = elements := by
  rw [someScalars, Outcome.check_bind_eq_ok fun _ => someElements_eq_ok, Expr.scalars_eq_ok,
    AreScalars, and_assoc]

theorem checkLength_eq_ok {expected : Nat} {passed : Unit} :
    checkLength global argument expected elements = .ok passed ↔
      elements.length = expected ∧ passed = () := by
  rw [checkLength, Outcome.guard_eq_ok]

theorem onArray_eq_ok :
    onArray global elements = .ok posted ↔
      elements ≠ [] ∧ posted = ofGlobal global [.array elements] := by
  rw [onArray, Outcome.check_bind_eq_ok fun _ => someElements_eq_ok, Outcome.pure_eq_ok]

theorem among_eq_ok {total : Expr} {values : List Int64} :
    among total elements values = .ok posted ↔
      (total.IsScalar ∧ AreScalars elements) ∧
        posted = ofGlobal .among [total, .array elements, .setOf values] := by
  rw [among, Outcome.check_bind_eq_ok fun _ => Expr.scalar_eq_ok,
    Outcome.check_bind_eq_ok fun _ => someScalars_eq_ok, Outcome.pure_eq_ok, and_assoc]

theorem count_eq_ok {value total : Expr} :
    count elements value total = .ok posted ↔
      (AreScalars elements ∧ value.IsScalar ∧ total.IsScalar) ∧
        posted = ofGlobal .count [.array elements, value, total] := by
  rw [count, Outcome.check_bind_eq_ok fun _ => someScalars_eq_ok,
    Outcome.check_bind_eq_ok fun _ => Expr.scalar_eq_ok,
    Outcome.check_bind_eq_ok fun _ => Expr.scalar_eq_ok, Outcome.pure_eq_ok, and_assoc, and_assoc]

theorem onTasks_eq_ok :
    onTasks global elements others = .ok posted ↔
      (AreScalars elements ∧ AreScalars others ∧ others.length = elements.length) ∧
        posted = ofGlobal global [.array elements, .array others] := by
  rw [onTasks, Outcome.check_bind_eq_ok fun _ => someScalars_eq_ok,
    Outcome.check_bind_eq_ok fun _ => someScalars_eq_ok,
    Outcome.check_bind_eq_ok fun _ => checkLength_eq_ok, Outcome.pure_eq_ok, and_assoc, and_assoc]

theorem argSort_eq_ok :
    argSort elements others = .ok posted ↔
      (AreScalars elements ∧ AreScalars others ∧ others.length = elements.length) ∧
        posted = ofGlobal .argSort [.array elements, .array others] := by
  rw [argSort, Outcome.check_bind_eq_ok fun _ => someScalars_eq_ok,
    Outcome.check_bind_eq_ok fun _ => someScalars_eq_ok,
    Outcome.check_bind_eq_ok fun _ => checkLength_eq_ok, Outcome.pure_eq_ok, and_assoc, and_assoc]

theorem diffn_eq_ok {x y dx dy : List Expr} :
    diffn x y dx dy = .ok posted ↔
      ((AreScalars x ∧ AreScalars y ∧ AreScalars dx ∧ AreScalars dy) ∧
          y.length = x.length ∧ dx.length = x.length ∧ dy.length = x.length) ∧
        posted = ofGlobal .diffn [.array x, .array y, .array dx, .array dy] := by
  rw [diffn, Outcome.check_bind_eq_ok fun _ => someScalars_eq_ok,
    Outcome.check_bind_eq_ok fun _ => someScalars_eq_ok,
    Outcome.check_bind_eq_ok fun _ => someScalars_eq_ok,
    Outcome.check_bind_eq_ok fun _ => someScalars_eq_ok,
    Outcome.check_bind_eq_ok fun _ => checkLength_eq_ok,
    Outcome.check_bind_eq_ok fun _ => checkLength_eq_ok,
    Outcome.check_bind_eq_ok fun _ => checkLength_eq_ok, Outcome.pure_eq_ok]
  tauto

theorem checkGraph_eq_ok {graph : Graph} {passed : Unit} :
    checkGraph global graph = .ok passed ↔ graph.IsSound ∧ passed = () := by
  rw [checkGraph, Outcome.check_bind_eq_ok fun _ => Expr.someConditions_eq_ok,
    Outcome.check_bind_eq_ok fun _ => Expr.someConditions_eq_ok,
    Outcome.check_bind_eq_ok fun _ => checkLength_eq_ok, checkLength_eq_ok, List.length_map]
  constructor
  · rintro ⟨hnodes, hedges, htargets, hlength, rfl⟩
    exact ⟨⟨hnodes, hedges, htargets, hlength⟩, rfl⟩
  · rintro ⟨hsound, rfl⟩
    exact ⟨hsound.nodes, hsound.edges, hsound.targets_length, hsound.edges_length, rfl⟩

theorem connected_eq_ok {graph : Graph} :
    connected graph = .ok posted ↔
      graph.IsSound ∧ posted = ofGlobal .connected
        [intArray graph.sources, intArray graph.targets, .array graph.nodes,
          .array graph.edges] := by
  rw [connected, Outcome.check_bind_eq_ok fun _ => checkGraph_eq_ok, Outcome.pure_eq_ok]

theorem reachable_eq_ok {root : Expr} {graph : Graph} :
    reachable root graph = .ok posted ↔
      (root.IsScalar ∧ graph.IsSound) ∧ posted = ofGlobal .reachable
        [intArray graph.sources, intArray graph.targets, root, .array graph.nodes,
          .array graph.edges] := by
  rw [reachable, Outcome.check_bind_eq_ok fun _ => Expr.scalar_eq_ok,
    Outcome.check_bind_eq_ok fun _ => checkGraph_eq_ok, Outcome.pure_eq_ok, and_assoc]

end MiniZincModels.Constraint
