import MiniZincModels.Binary64.Text
import MiniZincModels.Constraint.Global
import MiniZincModels.SolveItem.Choice
import MiniZincModels.SolveItem.Criteria

/-!
# What can go wrong while a model is built

Every operation on a model refuses bad input with one of these errors.  An error
records its cause; the wording of all of them is fixed here, in one function.
-/

namespace MiniZincModels

/-- Why the definition of a variable has no domain. -/
inductive DomainFault
  | boundsAndValues
  | noDomain
  | crossedBounds
  | nonIntegerBounds
  | noValues
  | valuesForFloat
  | noFloatBounds
  | nonFiniteBounds
  | notZeroOne
deriving DecidableEq

def DomainFault.message : DomainFault → String
  | boundsAndValues => "both bounds and a domain were given"
  | noDomain => "either bounds or a domain is required"
  | crossedBounds => "the lower bound exceeds the upper bound"
  | nonIntegerBounds => "integer bounds are required"
  | noValues => "the domain is empty"
  | valuesForFloat => "float variables only accept bounds"
  | noFloatBounds => "float variables require bounds"
  | nonFiniteBounds => "float bounds have to be finite"
  | notZeroOne => "boolean variables have the domain \x7b0, 1\x7d"

/-- Why a nested array is no constant. -/
inductive ConstantFault
  | emptyArray
  | ragged
  | nonFinite
  | mixedKinds
deriving DecidableEq

def ConstantFault.message : ConstantFault → String
  | emptyArray => "arrays must not be empty"
  | ragged => "arrays must be rectangular"
  | nonFinite => "floats have to be finite"
  | mixedKinds => "all elements must have the same kind"

/-- Why a constant cannot be used with the given indices. -/
inductive IndexFault
  | unindexedArray
  | indexedScalar
  | arity (expected actual : Nat)
  | outOfBounds (index extent : Nat)
deriving DecidableEq

def IndexFault.message : IndexFault → String
  | unindexedArray => "an array constant has to be indexed"
  | indexedScalar => "a scalar constant cannot be indexed"
  | arity expected actual => s!"expected {expected} indices, got {actual}"
  | outOfBounds index extent =>
    s!"index {index} is out of bounds for a dimension of size {extent}"

/-- Why something cannot be posted as a constraint. -/
inductive ConstraintFault
  | notCondition (found : Kind)
  | blankText
deriving DecidableEq

def ConstraintFault.message : ConstraintFault → String
  | notCondition found => "an expression of kind '" ++ found.text ++ "'"
  | blankText => "empty text"

/-- Why an objective does not go with the solve criteria. -/
inductive ObjectiveFault
  | unexpected
  | absent
  | notNumeric
  | notFinite
deriving DecidableEq

def ObjectiveFault.message : ObjectiveFault → String
  | unexpected => "does not take an objective"
  | absent => "requires an objective"
  | notNumeric => "requires a numeric objective"
  | notFinite => "requires a finite objective"

/-- Why a search or restart directive is refused. -/
inductive SearchFault
  | noVariables (kind : Kind)
  | wrongKind (name : String) (found kind : Kind)
  | precision (value : Binary64)
  | noSearches
  | zeroScale
  | smallBase (value : Binary64)
deriving DecidableEq

def SearchFault.message : SearchFault → String
  | noVariables kind => kind.searchName ++ " requires at least one variable"
  | wrongKind name found kind =>
    "variable '" ++ name ++ "' of kind '" ++ found.text ++ "' cannot be used in "
      ++ kind.searchName
  | precision value => "precision " ++ value.plainText ++ " is not positive"
  | noSearches => "seq_search requires at least one search"
  | zeroScale => "the restart scale has to be positive"
  | smallBase value =>
    "the geometric restart base " ++ value.plainText ++ " has to exceed 1"

/-- An error of an operation on a model. -/
inductive ModelError
  | operandKind (argument : String) (found : Kind)
  | conditionKind (argument : String) (found : Kind)
  | noOperands (argument : String)
  | domain (name : String) (fault : DomainFault)
  | constraint (fault : ConstraintFault)
  | objective (criteria : Criteria) (fault : ObjectiveFault)
  | noCriteria
  | search (fault : SearchFault)
  | unknownVariableChoice (text : String)
  | unknownValueChoice (text : String)
  | unsuitableValueChoice (choice : ValueChoice) (kind : Kind)
  | restartWithoutSearch
  | invalidIdentifier (name : String)
  | duplicateIdentifier (name : String)
  | mismatchedLengths (predicate : Global) (argument : String) (expected actual : Nat)
  | index (name : String) (fault : IndexFault)
  | constant (name : String) (fault : ConstantFault)
  | notWritten (path : String)
deriving DecidableEq

/-- The text of an error. -/
def ModelError.message : ModelError → String
  | operandKind argument found =>
    "argument '" ++ argument ++ "' has kind '" ++ found.text
      ++ "', which is not a valid operand here"
  | conditionKind argument found =>
    "argument '" ++ argument ++ "' has kind '" ++ found.text
      ++ "', but a boolean condition is required"
  | noOperands argument => "argument '" ++ argument ++ "' requires at least one operand"
  | domain name fault => "invalid domain for variable '" ++ name ++ "': " ++ fault.message
  | constraint fault => "cannot post " ++ fault.message ++ " as a constraint"
  | objective criteria fault => "solve criteria '" ++ criteria.text ++ "' " ++ fault.message
  | noCriteria => "no solve criteria has been set"
  | search fault => "invalid search annotation: " ++ fault.message
  | unknownVariableChoice text => "'" ++ text ++ "' is not a valid variable choice"
  | unknownValueChoice text => "'" ++ text ++ "' is not a valid value choice"
  | unsuitableValueChoice choice kind =>
    "'" ++ choice.text ++ " in " ++ kind.searchName ++ "' is not a valid value choice"
  | restartWithoutSearch => "a restart strategy requires a search annotation"
  | invalidIdentifier name => "'" ++ name ++ "' is not a valid identifier"
  | duplicateIdentifier name => "identifier '" ++ name ++ "' is already declared"
  | mismatchedLengths predicate argument expected actual =>
    predicate.name ++ s!": expected '{argument}' to have {expected} elements, got {actual}"
  | index name fault => "invalid index into '" ++ name ++ "': " ++ fault.message
  | constant name fault => "invalid value for constant '" ++ name ++ "': " ++ fault.message
  | notWritten path => "failed to write model: " ++ path

end MiniZincModels
