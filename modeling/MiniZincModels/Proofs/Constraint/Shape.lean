import MiniZincModels.Proofs.Constraint.Library

/-!
# The shapes of global constraints

All constraints of the library ask the same things of their arguments: no array is empty, arrays
that belong together have one length, nodes and edges are selected by conditions, and a scalar is a
number or condition.  The constraints on a single array also take sets, and for this they do not
look at the kinds of their elements at all.
-/

namespace MiniZincModels.Constraint

/-- The constraints of the library, applied to arguments. -/
inductive Application
  | allDifferent (elements : List Expr)
  | allEqual (elements : List Expr)
  | among (total : Expr) (elements : List Expr) (values : List Int64)
  | count (elements : List Expr) (value total : Expr)
  | increasing (elements : List Expr)
  | decreasing (elements : List Expr)
  | disjunctive (starts durations : List Expr)
  | disjunctiveStrict (starts durations : List Expr)
  | argSort (elements permutation : List Expr)
  | diffn (x y dx dy : List Expr)
  | connected (graph : Graph)
  | reachable (root : Expr) (graph : Graph)

namespace Application

/-- The constraint that the library makes of the arguments. -/
def build : Application → Except ModelError Constraint
  | allDifferent elements => Constraint.allDifferent elements
  | allEqual elements => Constraint.allEqual elements
  | among total elements values => Constraint.among total elements values
  | count elements value total => Constraint.count elements value total
  | increasing elements => Constraint.increasing elements
  | decreasing elements => Constraint.decreasing elements
  | disjunctive starts durations => Constraint.disjunctive starts durations
  | disjunctiveStrict starts durations => Constraint.disjunctiveStrict starts durations
  | argSort elements permutation => Constraint.argSort elements permutation
  | diffn x y dx dy => Constraint.diffn x y dx dy
  | connected graph => Constraint.connected graph
  | reachable root graph => Constraint.reachable root graph

def predicate : Application → Global
  | allDifferent _ => .allDifferent
  | allEqual _ => .allEqual
  | among _ _ _ => .among
  | count _ _ _ => .count
  | increasing _ => .increasing
  | decreasing _ => .decreasing
  | disjunctive _ _ => .disjunctive
  | disjunctiveStrict _ _ => .disjunctiveStrict
  | argSort _ _ => .argSort
  | diffn _ _ _ _ => .diffn
  | connected _ => .connected
  | reachable _ _ => .reachable

/-- The arguments in the order in which the predicate takes them. -/
def arguments : Application → List Expr
  | allDifferent elements | allEqual elements | increasing elements | decreasing elements =>
    [.array elements]
  | among total elements values => [total, .array elements, .setOf values]
  | count elements value total => [.array elements, value, total]
  | disjunctive starts durations | disjunctiveStrict starts durations =>
    [.array starts, .array durations]
  | argSort elements permutation => [.array elements, .array permutation]
  | diffn x y dx dy => [.array x, .array y, .array dx, .array dy]
  | connected graph =>
    [intArray graph.sources, intArray graph.targets, .array graph.nodes, .array graph.edges]
  | reachable root graph =>
    [intArray graph.sources, intArray graph.targets, root, .array graph.nodes, .array graph.edges]

/-! ## What is asked of the arguments -/

/-- The arrays of values. -/
@[simp]
def valueArrays : Application → List (List Expr)
  | allDifferent elements | allEqual elements | increasing elements | decreasing elements =>
    [elements]
  | among _ elements _ | count elements _ _ => [elements]
  | disjunctive starts durations | disjunctiveStrict starts durations => [starts, durations]
  | argSort elements permutation => [elements, permutation]
  | diffn x y dx dy => [x, y, dx, dy]
  | connected _ | reachable _ _ => []

/-- The arrays that select nodes and edges. -/
@[simp]
def conditionArrays : Application → List (List Expr)
  | connected graph | reachable _ graph => [graph.nodes, graph.edges]
  | _ => []

/-- The arguments that are single values. -/
@[simp]
def scalars : Application → List Expr
  | among total _ _ => [total]
  | count _ value total => [value, total]
  | reachable root _ => [root]
  | _ => []

/-- The lengths that have to agree. -/
@[simp]
def matchedLengths : Application → List (Nat × Nat)
  | disjunctive starts durations | disjunctiveStrict starts durations =>
    [(durations.length, starts.length)]
  | argSort elements permutation => [(permutation.length, elements.length)]
  | diffn x y dx dy => [(y.length, x.length), (dx.length, x.length), (dy.length, x.length)]
  | connected graph | reachable _ graph =>
    [(graph.targets.length, graph.sources.length), (graph.edges.length, graph.sources.length)]
  | _ => []

/-- Whether the values may be sets. -/
@[simp]
def admitsSets : Application → Bool
  | allDifferent _ | allEqual _ | increasing _ | decreasing _ => true
  | _ => false

/-- No array is empty, lengths agree, conditions are conditions, and single values are scalars. -/
@[mk_iff]
structure HasShape (application : Application) : Prop where
  filled : ∀ array ∈ application.valueArrays ++ application.conditionArrays, array ≠ []
  matched : ∀ lengths ∈ application.matchedLengths, lengths.1 = lengths.2
  conditions : ∀ array ∈ application.conditionArrays, ∀ element ∈ array, element.kind = .bool
  scalars : ∀ scalar ∈ application.scalars, scalar.kind.isScalar = true

/-- The values of an array are all scalars, or all sets if there may be sets. -/
def IsHomogeneous (application : Application) : Prop :=
  ∀ array ∈ application.valueArrays, (∀ element ∈ array, element.kind.isScalar = true) ∨
    application.admitsSets = true ∧ ∀ element ∈ array, element.kind = .intSet

/-- No value is a float literal without a spelling. -/
def HasFiniteLiterals (application : Application) : Prop :=
  (∀ scalar ∈ application.scalars, scalar.isFiniteLiteral = true) ∧
    ∀ array ∈ application.valueArrays, ∀ element ∈ array, element.isFiniteLiteral = true

/-! ## What is built -/

/-- Without sets, every array of values has to be one of scalars. -/
theorem shaped_iff_of_scalars {application : Application} (hsets : application.admitsSets = false) :
    application.HasShape ∧ (application.HasFiniteLiterals ∧ application.IsHomogeneous ∨
        application.admitsSets = true) ↔
      (∀ array ∈ application.valueArrays, AreScalars array) ∧
      (∀ scalar ∈ application.scalars, scalar.IsScalar) ∧
      (∀ array ∈ application.conditionArrays,
        (∀ element ∈ array, element.kind = .bool) ∧ array ≠ []) ∧
      ∀ lengths ∈ application.matchedLengths, lengths.1 = lengths.2 := by
  simp only [IsHomogeneous, hsets, Bool.false_eq_true, false_and, or_false]
  constructor
  · rintro ⟨hshape, ⟨hscalars, hvalues⟩, hkinds⟩
    obtain ⟨hvaluesFilled, hconditionsFilled⟩ := List.forall_mem_append.mp hshape.filled
    refine ⟨?_, ?_, ?_, hshape.matched⟩
    · intro array hmem
      exact ⟨hvaluesFilled array hmem, fun element helement =>
        ⟨hkinds array hmem element helement, hvalues array hmem element helement⟩⟩
    · intro scalar hmem
      exact ⟨hshape.scalars scalar hmem, hscalars scalar hmem⟩
    · intro array hmem
      exact ⟨hshape.conditions array hmem, hconditionsFilled array hmem⟩
  · rintro ⟨hvalues, hscalars, hconditions, hmatched⟩
    refine ⟨⟨List.forall_mem_append.mpr ⟨fun array hmem => (hvalues array hmem).1,
      fun array hmem => (hconditions array hmem).2⟩, hmatched,
      fun array hmem => (hconditions array hmem).1, fun scalar hmem => (hscalars scalar hmem).1⟩,
      ⟨?_, ?_⟩, ?_⟩
    · exact fun scalar hmem => (hscalars scalar hmem).2
    · exact fun array hmem element helement => ((hvalues array hmem).2 element helement).2
    · exact fun array hmem element helement => ((hvalues array hmem).2 element helement).1

theorem isSound_iff {graph : Graph} :
    graph.IsSound ↔
      (∀ array ∈ [graph.nodes, graph.edges],
        (∀ element ∈ array, element.kind = .bool) ∧ array ≠ []) ∧
      ∀ lengths ∈ [(graph.targets.length, graph.sources.length),
        (graph.edges.length, graph.sources.length)], lengths.1 = lengths.2 := by
  simp only [List.forall_mem_cons, List.not_mem_nil, false_implies, implies_true, and_true]
  constructor
  · intro hsound
    exact ⟨⟨hsound.nodes, hsound.edges⟩, hsound.targets_length, hsound.edges_length⟩
  · rintro ⟨⟨hnodes, hedges⟩, htargets, hlength⟩
    exact ⟨hnodes, hedges, htargets, hlength⟩

/-- A constraint is built exactly from arguments of its shape, all finite and with homogeneous
arrays; only the four constraints on a single array, which may hold sets, take any array that is
not empty.  What is built carries its own tag and applies its own predicate to the arguments. -/
theorem build_eq_ok_iff (application : Application) (posted : Constraint) :
    application.build = .ok posted ↔
      (application.HasShape ∧
        (application.HasFiniteLiterals ∧ application.IsHomogeneous ∨
          application.admitsSets = true)) ∧
      posted = ⟨.predicate application.predicate application.arguments,
        some application.predicate, none, false⟩ := by
  cases application with
  | allDifferent elements | allEqual elements | increasing elements | decreasing elements =>
    refine onArray_eq_ok.trans (and_congr_left' ?_)
    simp [hasShape_iff]
  | among total elements values =>
    refine among_eq_ok.trans (and_congr_left' ?_)
    rw [shaped_iff_of_scalars rfl]
    simp [and_comm]
  | count elements value total =>
    refine count_eq_ok.trans (and_congr_left' ?_)
    rw [shaped_iff_of_scalars rfl]
    simp
  | disjunctive starts durations | disjunctiveStrict starts durations =>
    refine onTasks_eq_ok.trans (and_congr_left' ?_)
    rw [shaped_iff_of_scalars rfl]
    simp [and_assoc]
  | argSort elements permutation =>
    refine argSort_eq_ok.trans (and_congr_left' ?_)
    rw [shaped_iff_of_scalars rfl]
    simp [and_assoc]
  | diffn x y dx dy =>
    refine diffn_eq_ok.trans (and_congr_left' ?_)
    rw [shaped_iff_of_scalars rfl]
    simp
  | connected graph =>
    refine connected_eq_ok.trans (and_congr_left' ?_)
    rw [shaped_iff_of_scalars rfl, isSound_iff]
    simp
  | reachable root graph =>
    refine reachable_eq_ok.trans (and_congr_left' ?_)
    rw [shaped_iff_of_scalars rfl, isSound_iff]
    simp

/-- An integer and a set are taken to be different from each other, although no array holds both. -/
theorem mixed_array_accepted :
    let application := allDifferent [.int 1, .setOf [1]]
    application.HasFiniteLiterals ∧ application.HasShape ∧ ¬ application.IsHomogeneous ∧
      ∃ posted, application.build = .ok posted := by
  intro application
  have hfinite : application.HasFiniteLiterals := by
    simp [application, HasFiniteLiterals, Expr.isFiniteLiteral, Expr.setOf]
  have hshape : application.HasShape := by
    simp [application, hasShape_iff]
  refine ⟨hfinite, hshape, ?_, _, rfl⟩
  simp [application, IsHomogeneous, Expr.kind, Expr.setOf, Kind.isScalar]

end Application

end MiniZincModels.Constraint
