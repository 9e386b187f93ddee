import MiniZincModels.Declaration.Variable

/-!
# Search directives

A search branches on variables of one kind with a heuristic for the variable and
one for the value.  Several searches can be put in sequence, to any depth.
-/

namespace MiniZincModels

/-- The sort of variables a search branches on.  Float domains are split until they
are as narrow as the precision. -/
inductive SearchKind
  | int
  | bool
  | set
  | float (precision : Binary64)
deriving DecidableEq

def SearchKind.kind : SearchKind → Kind
  | int => .int
  | bool => .bool
  | set => .intSet
  | float _ => .float

/-- A search on a list of variables. -/
structure Branching where
  sort : SearchKind
  vars : List Variable
  variableChoice : VariableChoice
  valueChoice : ValueChoice
deriving DecidableEq

namespace Branching

/-- The precision of a search on floats has to be positive. -/
def checkPrecision : SearchKind → Except ModelError Unit
  | .float precision =>
    if (Binary64.finite false Magnitude.zero).less precision then .ok ()
    else .error (.search (.precision precision))
  | _ => .ok ()

/-- The search on a non-empty list of variables of the right kind, with a choice of
values that suits it. -/
def create (sort : SearchKind) (vars : List Variable) (variableChoice : VariableChoice)
    (valueChoice : ValueChoice) : Except ModelError Branching := do
  checkPrecision sort
  if vars.isEmpty then .error (.search (.noVariables sort.kind))
  else
    match vars.find? fun declared => declared.kind ≠ sort.kind with
    | some declared => .error (.search (.wrongKind declared.name declared.kind sort.kind))
    | none =>
      if valueChoice.suits sort.kind then .ok ⟨sort, vars, variableChoice, valueChoice⟩
      else .error (.unsuitableValueChoice valueChoice sort.kind)

def precisionText : SearchKind → String
  | .float precision => precision.text ++ ", "
  | _ => ""

def text (branching : Branching) : String :=
  branching.sort.kind.searchName ++ "([" ++ ", ".intercalate (branching.vars.map Variable.name)
    ++ "], " ++ precisionText branching.sort ++ branching.variableChoice.text ++ ", "
    ++ branching.valueChoice.text ++ ")"

end Branching

/-- The search directive of a model. -/
inductive Search
  | branching (branching : Branching)
  | sequence (searches : List Search)

namespace Search

instance : Inhabited Search := ⟨sequence []⟩

/-- Searches one after the other, of which there has to be one at least. -/
def inSequence (searches : List Search) : Except ModelError Search :=
  if searches.isEmpty then .error (.search .noSearches) else .ok (sequence searches)

mutual

def text : Search → String
  | branching single => single.text
  | sequence searches => "seq_search([" ++ ", ".intercalate (texts searches) ++ "])"

def texts : List Search → List String
  | [] => []
  | first :: rest => first.text :: texts rest

end

mutual

/-- All variables a search branches on, in order. -/
def vars : Search → List Variable
  | branching single => single.vars
  | sequence searches => allVars searches

def allVars : List Search → List Variable
  | [] => []
  | first :: rest => first.vars ++ allVars rest

end

end Search

end MiniZincModels
