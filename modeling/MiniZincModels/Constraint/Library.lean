import MiniZincModels.Constraint.Basic
import MiniZincModels.Expr.Logic

/-!
# The library of global constraints

One function for every global constraint.  Each checks its arguments one after
the other, then the lengths of arrays that belong together, and applies the
predicate to the arguments in their documented order.
-/

namespace MiniZincModels.Constraint

/-- Accepts a non-empty array of expressions of any kind. -/
def someElements (argument : String) (elements : List Expr) : Except ModelError (List Expr) :=
  if elements.isEmpty then .error (.noOperands argument) else .ok elements

/-- Accepts a non-empty array of scalars. -/
def someScalars (argument : String) (elements : List Expr) : Except ModelError (List Expr) := do
  let elements ← someElements argument elements
  Expr.scalars argument elements

/-- An array has to be as long as the one it belongs to. -/
def checkLength (global : Global) (argument : String) (expected : Nat) (elements : List Expr) :
    Except ModelError Unit :=
  if elements.length = expected then .ok ()
  else .error (.mismatchedLengths global argument expected elements.length)

def intArray (values : List Int64) : Expr :=
  .array (values.map .int)

/-- A global constraint on a single array of any kind. -/
def onArray (global : Global) (elements : List Expr) : Except ModelError Constraint := do
  let elements ← someElements "expressions" elements
  return ofGlobal global [.array elements]

/-- All elements take pairwise different values. -/
def allDifferent (elements : List Expr) : Except ModelError Constraint :=
  onArray .allDifferent elements

/-- All elements take the same value. -/
def allEqual (elements : List Expr) : Except ModelError Constraint :=
  onArray .allEqual elements

/-- The elements never decrease. -/
def increasing (elements : List Expr) : Except ModelError Constraint :=
  onArray .increasing elements

/-- The elements never increase. -/
def decreasing (elements : List Expr) : Except ModelError Constraint :=
  onArray .decreasing elements

/-- Exactly `total` elements take one of the listed values. -/
def among (total : Expr) (elements : List Expr) (values : List Int64) :
    Except ModelError Constraint := do
  let total ← Expr.scalar "count" total
  let elements ← someScalars "expressions" elements
  return ofGlobal .among [total, .array elements, .setOf values]

/-- A value is taken by exactly `total` elements. -/
def count (elements : List Expr) (value total : Expr) : Except ModelError Constraint := do
  let elements ← someScalars "expressions" elements
  let value ← Expr.scalar "value" value
  let total ← Expr.scalar "count" total
  return ofGlobal .count [.array elements, value, total]

/-- A scheduling constraint on tasks with a start time and a duration each. -/
def onTasks (global : Global) (starts durations : List Expr) : Except ModelError Constraint := do
  let starts ← someScalars "start_times" starts
  let durations ← someScalars "durations" durations
  checkLength global "durations" starts.length durations
  return ofGlobal global [.array starts, .array durations]

/-- The tasks do not overlap; one without duration may be scheduled at any time. -/
def disjunctive (starts durations : List Expr) : Except ModelError Constraint :=
  onTasks .disjunctive starts durations

/-- The tasks do not overlap, not even those without duration. -/
def disjunctiveStrict (starts durations : List Expr) : Except ModelError Constraint :=
  onTasks .disjunctiveStrict starts durations

/-- The permutation sorts the elements. -/
def argSort (elements permutation : List Expr) : Except ModelError Constraint := do
  let elements ← someScalars "expressions" elements
  let permutation ← someScalars "permutation" permutation
  checkLength .argSort "permutation" elements.length permutation
  return ofGlobal .argSort [.array elements, .array permutation]

/-- The rectangles with the given corners and sizes do not overlap. -/
def diffn (x y dx dy : List Expr) : Except ModelError Constraint := do
  let x ← someScalars "x" x
  let y ← someScalars "y" y
  let dx ← someScalars "dx" dx
  let dy ← someScalars "dy" dy
  checkLength .diffn "y" x.length y
  checkLength .diffn "dx" x.length dx
  checkLength .diffn "dy" x.length dy
  return ofGlobal .diffn [.array x, .array y, .array dx, .array dy]

/-- A graph whose nodes and edges are selected by conditions.  Edge `i` leads from
node `sources[i]` to node `targets[i]`, where nodes count from one. -/
structure Graph where
  sources : List Int64
  targets : List Int64
  nodes : List Expr
  edges : List Expr

/-- Accepts a graph with selectable nodes and edges and two ends for every edge. -/
def checkGraph (global : Global) (graph : Graph) : Except ModelError Unit := do
  let _ ← Expr.someConditions "nodes" graph.nodes
  let edges ← Expr.someConditions "edges" graph.edges
  checkLength global "to" graph.sources.length (graph.targets.map .int)
  checkLength global "edges" graph.sources.length edges

/-- The selected nodes are connected by selected edges. -/
def connected (graph : Graph) : Except ModelError Constraint := do
  checkGraph .connected graph
  return ofGlobal .connected
    [intArray graph.sources, intArray graph.targets, .array graph.nodes, .array graph.edges]

/-- Every selected node can be reached from the root. -/
def reachable (root : Expr) (graph : Graph) : Except ModelError Constraint := do
  let root ← Expr.scalar "root" root
  checkGraph .reachable graph
  return ofGlobal .reachable
    [intArray graph.sources, intArray graph.targets, root, .array graph.nodes, .array graph.edges]

end MiniZincModels.Constraint
