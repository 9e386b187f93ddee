import MiniZincModels.Kind

/-!
# Branching heuristics

A search branches on the variables of one kind.  One heuristic picks the next
variable, another the part of its domain to try first.  Sets and floats restrict
the second: the elements of a set are tried by bounds, a float domain can only
be split.
-/

namespace MiniZincModels

/-- The heuristic that picks the next variable. -/
inductive VariableChoice
  | inputOrder
  | firstFail
  | antiFirstFail
  | smallest
  | largest
  | occurrence
  | mostConstrained
  | maxRegret
  | domWDeg
deriving DecidableEq

namespace VariableChoice

def text : VariableChoice → String
  | inputOrder => "input_order"
  | firstFail => "first_fail"
  | antiFirstFail => "anti_first_fail"
  | smallest => "smallest"
  | largest => "largest"
  | occurrence => "occurrence"
  | mostConstrained => "most_constrained"
  | maxRegret => "max_regret"
  | domWDeg => "dom_w_deg"

def all : List VariableChoice :=
  [inputOrder, firstFail, antiFirstFail, smallest, largest, occurrence, mostConstrained, maxRegret,
    domWDeg]

/-- The choice with exactly the given text. -/
def ofText? (text : String) : Option VariableChoice :=
  all.find? fun choice => choice.text = text

end VariableChoice

/-- The heuristic that picks the part of a domain to try first. -/
inductive ValueChoice
  | indomainMin
  | indomainMax
  | indomainMiddle
  | indomainMedian
  | indomain
  | indomainRandom
  | indomainSplit
  | indomainReverseSplit
  | indomainInterval
deriving DecidableEq

namespace ValueChoice

def text : ValueChoice → String
  | indomainMin => "indomain_min"
  | indomainMax => "indomain_max"
  | indomainMiddle => "indomain_middle"
  | indomainMedian => "indomain_median"
  | indomain => "indomain"
  | indomainRandom => "indomain_random"
  | indomainSplit => "indomain_split"
  | indomainReverseSplit => "indomain_reverse_split"
  | indomainInterval => "indomain_interval"

def all : List ValueChoice :=
  [indomainMin, indomainMax, indomainMiddle, indomainMedian, indomain, indomainRandom,
    indomainSplit, indomainReverseSplit, indomainInterval]

/-- The choice with exactly the given text. -/
def ofText? (text : String) : Option ValueChoice :=
  all.find? fun choice => choice.text = text

/-- Whether the choice applies to domains of a kind. -/
def suits (choice : ValueChoice) : Kind → Bool
  | .int => true
  | .bool => true
  | .intSet => choice = indomainMin || choice = indomainMax
  | .float => choice = indomainSplit || choice = indomainReverseSplit

end ValueChoice

/-- The name of the search that branches on variables of a kind. -/
def Kind.searchName : Kind → String
  | .int => "int_search"
  | .bool => "bool_search"
  | .intSet => "set_search"
  | .float => "float_search"

end MiniZincModels
