/-!
# Global constraints

The predicates of the standard library which a model can post.  Each is defined
in a file of its own name, which the model has to include.
-/

namespace MiniZincModels

/-- A global constraint, named by its predicate. -/
inductive Global
  | allDifferent
  | allEqual
  | among
  | argSort
  | connected
  | count
  | decreasing
  | diffn
  | disjunctive
  | disjunctiveStrict
  | increasing
  | reachable
deriving DecidableEq

namespace Global

/-- The name of the predicate. -/
def name : Global → String
  | allDifferent => "all_different"
  | allEqual => "all_equal"
  | among => "among"
  | argSort => "arg_sort"
  | connected => "connected"
  | count => "count"
  | decreasing => "decreasing"
  | diffn => "diffn"
  | disjunctive => "disjunctive"
  | disjunctiveStrict => "disjunctive_strict"
  | increasing => "increasing"
  | reachable => "reachable"

/-- The library file which defines the predicate. -/
def includeFile (predicate : Global) : String :=
  predicate.name ++ ".mzn"

/-- All global constraints in the order of their names, which is the order of the
include items of a model. -/
def all : List Global :=
  [allDifferent, allEqual, among, argSort, connected, count, decreasing, diffn, disjunctive,
    disjunctiveStrict, increasing, reachable]

theorem mem_all (predicate : Global) : predicate ∈ all := by
  cases predicate <;> decide

end Global

end MiniZincModels
