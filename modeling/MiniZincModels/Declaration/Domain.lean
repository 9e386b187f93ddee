import MiniZincModels.Error
import MiniZincModels.IntSet
import MiniZincModels.Number

/-!
# Domains of variables

A variable is defined by its kind together with bounds or a list of values.
Resolving a definition gives the domain that is declared, or says why there is
none: a domain is never guessed, widened or narrowed.
-/

namespace MiniZincModels

/-- The domain of an integer, or of the elements of a set. -/
inductive IntDomain
  | interval (lower upper : Int64)
  | values (set : IntSet)
deriving DecidableEq

def IntDomain.text : IntDomain → String
  | interval lower upper => Text.integerText lower ++ ".." ++ Text.integerText upper
  | values set => set.text

/-- The values which a domain denotes. -/
def IntDomain.Contains : IntDomain → Int64 → Prop
  | interval lower upper, value => lower.toInt ≤ value.toInt ∧ value.toInt ≤ upper.toInt
  | values set, value => value ∈ set.elements

/-- The domain of a declared variable. -/
inductive Domain
  | int (domain : IntDomain)
  | float (lower upper : Binary64)
  | bool
  | intSet (domain : IntDomain)
deriving DecidableEq

namespace Domain

def kind : Domain → Kind
  | int _ => .int
  | float _ _ => .float
  | bool => .bool
  | intSet _ => .intSet

def text : Domain → String
  | int domain => domain.text
  | float lower upper => lower.text ++ ".." ++ upper.text
  | bool => "bool"
  | intSet domain => "set of " ++ domain.text

end Domain

/-- What is known about a variable that is still to be declared. -/
structure Definition where
  kind : Kind
  bounds : Option (Number × Number)
  values : Option (List Int64)
deriving DecidableEq

namespace Definition

/-- A definition without bounds and values. -/
def ofKind (kind : Kind) : Definition := ⟨kind, none, none⟩

def withBounds (definition : Definition) (lower upper : Number) : Definition :=
  { definition with bounds := some (lower, upper) }

def withValues (definition : Definition) (values : List Int64) : Definition :=
  { definition with values := some values }

/-- An integer variable between two bounds. -/
def ofInterval (lower upper : Int64) : Definition :=
  (ofKind .int).withBounds (.int lower) (.int upper)

/-- Exactly one of bounds and values has to be given; bounds have to be integers in
order, and there has to be a value. -/
def resolveInt (definition : Definition) : Except DomainFault IntDomain :=
  match definition.bounds, definition.values with
  | some _, some _ => .error .boundsAndValues
  | none, none => .error .noDomain
  | some (.int lower, .int upper), none =>
    if upper.toInt < lower.toInt then .error .crossedBounds else .ok (.interval lower upper)
  | some _, none => .error .nonIntegerBounds
  | none, some values =>
    if values.isEmpty then .error .noValues else .ok (.values (IntSet.ofList values))

/-- Floats have bounds and no list of values; as doubles the bounds have to be finite
and in order. -/
def resolveFloat (definition : Definition) : Except DomainFault Domain :=
  match definition.values, definition.bounds with
  | some _, _ => .error .valuesForFloat
  | none, none => .error .noFloatBounds
  | none, some (lower, upper) =>
    let lower := lower.toBinary64
    let upper := upper.toBinary64
    if !lower.isFinite || !upper.isFinite then .error .nonFiniteBounds
    else if upper.less lower then .error .crossedBounds
    else .ok (.float lower upper)

/-- A boolean needs neither bounds nor values; if it has one of them, they have to
be those of the integers 0 and 1. -/
def resolveBool (definition : Definition) : Except DomainFault Domain :=
  let fittingBounds := definition.bounds.all fun bounds => bounds = (.int 0, .int 1)
  let fittingValues := definition.values.all fun values => (IntSet.ofList values).elements = [0, 1]
  if !fittingBounds || !fittingValues then .error .notZeroOne
  else if definition.bounds.isSome && definition.values.isSome then .error .boundsAndValues
  else .ok .bool

/-- The domain which the definition describes. -/
def resolve (definition : Definition) : Except DomainFault Domain :=
  match definition.kind with
  | .int => definition.resolveInt.map Domain.int
  | .intSet => definition.resolveInt.map Domain.intSet
  | .float => definition.resolveFloat
  | .bool => definition.resolveBool

end Definition

end MiniZincModels
