import MiniZincModels.Declaration.Variable
import MiniZincModels.Proofs.Constraint.Library
import MiniZincModels.Proofs.Declaration.Constant

/-!
# Built expressions

An expression is built by the checked functions, the operators and the library of
global constraints from literals and declared names.  Whatever is built has
operands of fitting kinds at every node.
-/

namespace MiniZincModels

/-- What expressions are built from besides whole numbers, truth values and sets. -/
structure Vocabulary where
  HasVariable : Variable → Prop
  HasConstant : Constant → Prop
  HasFloat : Binary64 → Prop
  HasRaw : String → Prop

namespace Expr

/-- The checked functions of one operand. -/
def unaryFunctions : List (Expr → Except ModelError Expr) :=
  [negate, abs, not, toCondition, cardinality, setMinimum, setMaximum]

/-- The checked functions of two operands, those with an operator of their own apart. -/
def binaryFunctions : List (Expr → Expr → Except ModelError Expr) :=
  [add, sub, mul, divide, intDiv, modulo, pow, contains, intersectionCardinality]

def listFunctions : List (List Expr → Except ModelError Expr) :=
  [sum, product, minimum, maximum]

def unaryOperators : List (Expr → Except Misuse Expr) :=
  [negated, negatedCondition]

def binaryOperators : List (Expr → Expr → Except Misuse Expr) :=
  [plus, minus, times, dividedBy, remainder]

/-- The global constraints on one array. -/
def arrayConstraints : List (List Expr → Except ModelError Constraint) :=
  [Constraint.allDifferent, Constraint.allEqual, Constraint.increasing, Constraint.decreasing]

/-- The predicates of the global constraints on one array. -/
def arrayGlobals : List Global :=
  [.allDifferent, .allEqual, .increasing, .decreasing]

/-- The global constraints on tasks with a start and a duration. -/
def taskConstraints : List (List Expr → List Expr → Except ModelError Constraint) :=
  [Constraint.disjunctive, Constraint.disjunctiveStrict]

section Building

variable (vocabulary : Vocabulary)

/-- The expressions that can be built from a vocabulary. -/
inductive Built : Expr → Prop
  | int (value : Int64) : Built (.int value)
  | bool (value : Bool) : Built (.bool value)
  | setOf (values : List Int64) : Built (.setOf values)
  | float {value} (hvalue : vocabulary.HasFloat value) : Built (.float value)
  | raw {text} (htext : vocabulary.HasRaw text) : Built (.raw text)
  | ofVariable {declared} (hdeclared : vocabulary.HasVariable declared) : Built declared.toExpr
  | ofConstant {declared result} (hdeclared : vocabulary.HasConstant declared)
      (hresult : declared.toExpr = .ok result) : Built result
  | elementAt {declared indices result} (hdeclared : vocabulary.HasConstant declared)
      (hresult : declared.elementAt indices = .ok result) : Built result
  | indexBy {declared indices result} (hdeclared : vocabulary.HasConstant declared)
      (hindices : ∀ index ∈ indices, Built index)
      (hresult : declared.indexBy indices = .ok result) : Built result
  | unary {function operand result} (hfunction : function ∈ unaryFunctions)
      (hoperand : Built operand) (hresult : function operand = .ok result) : Built result
  | unaryOperator {operator operand result} (hoperator : operator ∈ unaryOperators)
      (hoperand : Built operand) (hresult : operator operand = .ok result) : Built result
  | binary {function left right result} (hfunction : function ∈ binaryFunctions)
      (hleft : Built left) (hright : Built right) (hresult : function left right = .ok result) :
      Built result
  | binaryOperator {operator left right result} (hoperator : operator ∈ binaryOperators)
      (hleft : Built left) (hright : Built right) (hresult : operator left right = .ok result) :
      Built result
  | compare {op left right result} (hleft : Built left) (hright : Built right)
      (hresult : compare op left right = .ok result) : Built result
  | compared {op left right result} (hleft : Built left) (hright : Built right)
      (hresult : compared op left right = .ok result) : Built result
  | joinTwo {op left right result} (hleft : Built left) (hright : Built right)
      (hresult : joinTwo op left right = .ok result) : Built result
  | joined {op left right result} (hleft : Built left) (hright : Built right)
      (hresult : joined op left right = .ok result) : Built result
  | listed {function operands result} (hfunction : function ∈ listFunctions)
      (hoperands : ∀ operand ∈ operands, Built operand)
      (hresult : function operands = .ok result) : Built result
  | joinAll {op operands result} (hoperands : ∀ operand ∈ operands, Built operand)
      (hresult : joinAll op operands = .ok result) : Built result
  | chain {op operands result} (hoperands : ∀ operand ∈ operands, Built operand)
      (hresult : chain op operands = .ok result) : Built result
  | ifThenElse {test thenValue elseValue result} (htest : Built test) (hthen : Built thenValue)
      (helse : Built elseValue) (hresult : ifThenElse test thenValue elseValue = .ok result) :
      Built result
  | onArray {factory elements posted} (hfactory : factory ∈ arrayConstraints)
      (helements : ∀ element ∈ elements, Built element)
      (hposted : factory elements = .ok posted) : Built posted.body
  | among {total elements values posted} (htotal : Built total)
      (helements : ∀ element ∈ elements, Built element)
      (hposted : Constraint.among total elements values = .ok posted) : Built posted.body
  | count {elements value total posted} (helements : ∀ element ∈ elements, Built element)
      (hvalue : Built value) (htotal : Built total)
      (hposted : Constraint.count elements value total = .ok posted) : Built posted.body
  | onTasks {factory starts durations posted} (hfactory : factory ∈ taskConstraints)
      (hstarts : ∀ start ∈ starts, Built start)
      (hdurations : ∀ duration ∈ durations, Built duration)
      (hposted : factory starts durations = .ok posted) : Built posted.body
  | argSort {elements permutation posted} (helements : ∀ element ∈ elements, Built element)
      (hpermutation : ∀ element ∈ permutation, Built element)
      (hposted : Constraint.argSort elements permutation = .ok posted) : Built posted.body
  | diffn {x y dx dy posted} (hx : ∀ element ∈ x, Built element)
      (hy : ∀ element ∈ y, Built element) (hdx : ∀ element ∈ dx, Built element)
      (hdy : ∀ element ∈ dy, Built element)
      (hposted : Constraint.diffn x y dx dy = .ok posted) : Built posted.body
  | connected {graph posted} (hnodes : ∀ node ∈ graph.nodes, Built node)
      (hedges : ∀ edge ∈ graph.edges, Built edge)
      (hposted : Constraint.connected graph = .ok posted) : Built posted.body
  | reachable {root graph posted} (hroot : Built root) (hnodes : ∀ node ∈ graph.nodes, Built node)
      (hedges : ∀ edge ∈ graph.edges, Built edge)
      (hposted : Constraint.reachable root graph = .ok posted) : Built posted.body

/-- The parts of the topmost node. -/
def children : Expr → List Expr
  | int _ => []
  | float _ => []
  | bool _ => []
  | intSet _ => []
  | identifier _ _ => []
  | raw _ => []
  | arithmetic _ left right => [left, right]
  | comparison _ left right => [left, right]
  | connective _ operands => operands
  | negation operand => [operand]
  | power base exponent => [base, exponent]
  | absolute operand => [operand]
  | reduction _ operands => operands
  | setMeasure _ set => [set]
  | array elements => elements
  | predicate _ arguments => arguments
  | conditional test thenValue elseValue => [test, thenValue, elseValue]
  | access _ _ indices => indices
  | membership element set => [element, set]
  | intersection left right => [left, right]

/-- A property of every node of an expression. -/
inductive Everywhere (property : Expr → Prop) : Expr → Prop
  | node {expr : Expr} (here : property expr)
      (below : ∀ child ∈ expr.children, Everywhere property child) : Everywhere property expr

def isArray : Expr → Bool
  | array _ => true
  | _ => false

/-- A leaf comes from the vocabulary, and the operands of a node have kinds that fit
their places. -/
def Fits : Expr → Prop
  | int _ => True
  | float value => vocabulary.HasFloat value
  | bool _ => True
  | intSet _ => True
  | identifier name kind =>
    (∃ declared, vocabulary.HasVariable declared ∧ declared.name = name ∧ declared.kind = kind) ∨
      ∃ declared, vocabulary.HasConstant declared ∧ declared.name = name ∧
        declared.kind = kind ∧ declared.dimensions = []
  | raw text => vocabulary.HasRaw text
  | arithmetic op left right => FitsArithmetic op left ∧ FitsArithmetic op right
  | comparison op left right => Comparable op left right
  | connective _ operands => 2 ≤ operands.length ∧ ∀ operand ∈ operands, operand.kind = .bool
  | negation operand => operand.kind = .bool
  | power base exponent => base.IsScalar ∧ exponent.IsScalar
  | absolute operand => operand.IsScalar
  | reduction _ operands => operands ≠ [] ∧ ∀ operand ∈ operands, operand.IsScalar
  | setMeasure _ set => set.kind = .intSet
  | array _ => True
  | predicate _ _ => True
  | conditional test thenValue elseValue =>
    test.kind = .bool ∧ (thenValue.kind = .intSet ↔ elseValue.kind = .intSet)
  | access name kind indices =>
    ∃ declared, vocabulary.HasConstant declared ∧ declared.name = name ∧ declared.kind = kind ∧
      declared.dimensions ≠ [] ∧ indices.length = declared.dimensions.length
  | membership element set =>
    set.kind = .intSet ∧ (element.kind = .int ∨ element.kind = .bool)
  | intersection left right => left.kind = .intSet ∧ right.kind = .intSet

/-- Arrays are arguments of predicates only. -/
def HoldsNoArray (expr : Expr) : Prop :=
  (∃ global arguments, expr = predicate global arguments) ∨
    ∀ child ∈ expr.children, child.isArray = false

/-- An expression in the place of an operand; an array stands for its elements. -/
def spread : Expr → List Expr
  | array elements => elements
  | expr => [expr]

/-- Indices have a spelling, and so have the arguments of a predicate, except for those of
a constraint on one array, which are of any kind and not looked at. -/
def Examined : Expr → Prop
  | access _ _ indices => ∀ index ∈ indices, index.isFiniteLiteral = true
  | predicate global arguments =>
    global ∈ arrayGlobals ∨
      ∀ argument ∈ arguments, ∀ part ∈ argument.spread, part.isFiniteLiteral = true
  | _ => True

/-- An expression with fitting operands at every node, which may itself be an operand. -/
structure WellFormed (expr : Expr) : Prop where
  fits : expr.Everywhere (Fits vocabulary)
  examined : expr.Everywhere Examined
  holdsNoArray : expr.Everywhere HoldsNoArray
  isArray : expr.isArray = false

end Building

section WellFormed

variable {vocabulary : Vocabulary} {expr : Expr}

theorem spread_of_isArray_eq_false (hexpr : expr.isArray = false) : expr.spread = [expr] := by
  cases expr with
  | array elements => cases hexpr
  | _ => rfl

/-- What holds everywhere in the elements of an array holds everywhere in the array. -/
theorem everywhere_of_spread {property : Expr → Prop}
    (harray : ∀ elements, expr = .array elements → property expr)
    (hparts : ∀ part ∈ expr.spread, part.Everywhere property) : expr.Everywhere property := by
  cases expr with
  | array elements => exact .node (harray elements rfl) hparts
  | _ => exact hparts _ (List.mem_singleton.mpr rfl)

theorem WellFormed.node (hfits : Fits vocabulary expr) (hexamined : Examined expr)
    (hchildren : ∀ child ∈ expr.children, WellFormed vocabulary child)
    (hexpr : expr.isArray = false) : WellFormed vocabulary expr where
  fits := .node hfits fun child hmem => (hchildren child hmem).fits
  examined := .node hexamined fun child hmem => (hchildren child hmem).examined
  holdsNoArray :=
    .node (.inr fun child hmem => (hchildren child hmem).isArray)
      fun child hmem => (hchildren child hmem).holdsNoArray
  isArray := hexpr

theorem WellFormed.predicate {global : Global} {arguments : List Expr}
    (hparts : ∀ argument ∈ arguments, ∀ part ∈ argument.spread, WellFormed vocabulary part)
    (hexamined : Examined (.predicate global arguments)) :
    WellFormed vocabulary (.predicate global arguments) where
  fits := by
    refine .node trivial fun argument hmem => everywhere_of_spread ?_ ?_
    · rintro elements rfl
      exact trivial
    · exact fun part hpart => (hparts argument hmem part hpart).fits
  examined := by
    refine .node hexamined fun argument hmem => everywhere_of_spread ?_ ?_
    · rintro elements rfl
      exact trivial
    · exact fun part hpart => (hparts argument hmem part hpart).examined
  holdsNoArray := by
    refine .node (.inl ⟨global, arguments, rfl⟩) fun argument hmem => everywhere_of_spread ?_ ?_
    · rintro elements rfl
      exact .inr fun element helement => (hparts _ hmem element helement).isArray
    · exact fun part hpart => (hparts argument hmem part hpart).holdsNoArray
  isArray := rfl

theorem WellFormed.int (value : Int64) : WellFormed vocabulary (.int value) :=
  .node trivial trivial (by simp [children]) rfl

theorem WellFormed.intSet (values : IntSet) : WellFormed vocabulary (.intSet values) :=
  .node trivial trivial (by simp [children]) rfl

/-- An argument of a predicate that was looked at. -/
def IsChecked (vocabulary : Vocabulary) (argument : Expr) : Prop :=
  ∀ part ∈ argument.spread, WellFormed vocabulary part ∧ part.isFiniteLiteral = true

theorem WellFormed.checkedPredicate {global : Global} {arguments : List Expr}
    (hchecked : ∀ argument ∈ arguments, IsChecked vocabulary argument) :
    WellFormed vocabulary (.predicate global arguments) :=
  .predicate (fun argument hmem part hpart => (hchecked argument hmem part hpart).1)
    (.inr fun argument hmem part hpart => (hchecked argument hmem part hpart).2)

theorem WellFormed.isChecked (hexpr : WellFormed vocabulary expr)
    (hfinite : expr.isFiniteLiteral = true) : IsChecked vocabulary expr := by
  rw [IsChecked, spread_of_isArray_eq_false hexpr.isArray, List.forall_mem_singleton]
  exact ⟨hexpr, hfinite⟩

section Arrays

variable {elements : List Expr} (helements : ∀ element ∈ elements, WellFormed vocabulary element)
include helements

theorem isChecked_scalars (hscalars : Constraint.AreScalars elements) :
    IsChecked vocabulary (.array elements) :=
  fun element hmem => ⟨helements element hmem, (hscalars.2 element hmem).2⟩

theorem isChecked_conditions (hkinds : ∀ element ∈ elements, element.kind = .bool) :
    IsChecked vocabulary (.array elements) :=
  fun element hmem =>
    ⟨helements element hmem, isFiniteLiteral_of_kind (by simp [hkinds element hmem])⟩

end Arrays

theorem isChecked_intArray (values : List Int64) :
    IsChecked vocabulary (Constraint.intArray values) := by
  intro element hmem
  obtain ⟨value, -, rfl⟩ := List.mem_map.mp hmem
  exact ⟨.int value, rfl⟩

end WellFormed

section Results

variable {vocabulary : Vocabulary} {operand left right result : Expr}
  {operands elements others : List Expr} {posted : Constraint}

theorem wellFormed_combine {op : ArithmeticOp} (hleft : WellFormed vocabulary left)
    (hright : WellFormed vocabulary right) (hresult : combine op left right = .ok result) :
    WellFormed vocabulary result := by
  obtain ⟨hfits, rfl⟩ := combine_eq_ok.mp hresult
  exact .node hfits trivial (by simpa [children] using ⟨hleft, hright⟩) rfl

theorem wellFormed_negate (hoperand : WellFormed vocabulary operand)
    (hresult : negate operand = .ok result) : WellFormed vocabulary result := by
  obtain ⟨hscalar, rfl⟩ := negate_eq_ok.mp hresult
  have hfits : Fits vocabulary (arithmetic .sub (.int 0) operand) :=
    ⟨⟨⟨rfl, rfl⟩, by decide⟩, ⟨hscalar, by simp⟩⟩
  exact .node hfits trivial (by simpa [children] using ⟨.int 0, hoperand⟩) rfl

theorem wellFormed_compare {op : ComparisonOp} (hleft : WellFormed vocabulary left)
    (hright : WellFormed vocabulary right) (hresult : compare op left right = .ok result) :
    WellFormed vocabulary result := by
  obtain ⟨hfits, rfl⟩ := compare_eq_ok.mp hresult
  exact .node hfits trivial (by simpa [children] using ⟨hleft, hright⟩) rfl

theorem wellFormed_negation (hoperand : WellFormed vocabulary operand)
    (hkind : operand.kind = .bool) : WellFormed vocabulary (negation operand) :=
  .node hkind trivial (by simpa [children] using hoperand) rfl

theorem wellFormed_measure {function : SetMeasure} (hoperand : WellFormed vocabulary operand)
    (hresult : measure function operand = .ok result) : WellFormed vocabulary result := by
  obtain ⟨hkind, rfl⟩ := measure_eq_ok.mp hresult
  exact .node hkind trivial (by simpa [children] using hoperand) rfl

theorem wellFormed_unary {function : Expr → Except ModelError Expr}
    (hfunction : function ∈ unaryFunctions) (hoperand : WellFormed vocabulary operand)
    (hresult : function operand = .ok result) : WellFormed vocabulary result := by
  simp only [unaryFunctions, List.mem_cons, List.not_mem_nil, or_false] at hfunction
  rcases hfunction with rfl | rfl | rfl | rfl | rfl | rfl | rfl
  · exact wellFormed_negate hoperand hresult
  · obtain ⟨hscalar, rfl⟩ := abs_eq_ok.mp hresult
    exact .node hscalar trivial (by simpa [children] using hoperand) rfl
  · obtain ⟨hkind, rfl⟩ := not_eq_ok.mp hresult
    exact wellFormed_negation hoperand hkind
  · obtain ⟨-, rfl⟩ := condition_eq_ok.mp hresult
    exact hoperand
  · exact wellFormed_measure hoperand hresult
  · exact wellFormed_measure hoperand hresult
  · exact wellFormed_measure hoperand hresult

theorem wellFormed_unaryOperator {operator : Expr → Except Misuse Expr}
    (hoperator : operator ∈ unaryOperators) (hoperand : WellFormed vocabulary operand)
    (hresult : operator operand = .ok result) : WellFormed vocabulary result := by
  simp only [unaryOperators, List.mem_cons, List.not_mem_nil, or_false] at hoperator
  rcases hoperator with rfl | rfl
  · exact wellFormed_negate hoperand (expect_eq_ok.mp hresult)
  · obtain ⟨hkind, rfl⟩ := negatedCondition_eq_ok.mp hresult
    exact wellFormed_negation hoperand hkind

theorem wellFormed_binary {function : Expr → Expr → Except ModelError Expr}
    (hfunction : function ∈ binaryFunctions) (hleft : WellFormed vocabulary left)
    (hright : WellFormed vocabulary right) (hresult : function left right = .ok result) :
    WellFormed vocabulary result := by
  simp only [binaryFunctions, List.mem_cons, List.not_mem_nil, or_false] at hfunction
  rcases hfunction with rfl | rfl | rfl | rfl | rfl | rfl | rfl | rfl | rfl
  · exact wellFormed_combine hleft hright hresult
  · exact wellFormed_combine hleft hright hresult
  · exact wellFormed_combine hleft hright hresult
  · exact wellFormed_combine hleft hright hresult
  · exact wellFormed_combine hleft hright hresult
  · exact wellFormed_combine hleft hright hresult
  · obtain ⟨hscalars, rfl⟩ := pow_eq_ok.mp hresult
    exact .node hscalars trivial (by simpa [children] using ⟨hleft, hright⟩) rfl
  · obtain ⟨hkinds, rfl⟩ := contains_eq_ok.mp hresult
    exact .node hkinds trivial (by simpa [children] using ⟨hright, hleft⟩) rfl
  · obtain ⟨hkinds, rfl⟩ := intersectionCardinality_eq_ok.mp hresult
    have hshared : WellFormed vocabulary (intersection left right) :=
      .node hkinds trivial (by simpa [children] using ⟨hleft, hright⟩) rfl
    exact .node rfl trivial (by simpa [children] using hshared) rfl

theorem wellFormed_binaryOperator {operator : Expr → Expr → Except Misuse Expr}
    (hoperator : operator ∈ binaryOperators) (hleft : WellFormed vocabulary left)
    (hright : WellFormed vocabulary right) (hresult : operator left right = .ok result) :
    WellFormed vocabulary result := by
  simp only [binaryOperators, List.mem_cons, List.not_mem_nil, or_false] at hoperator
  rcases hoperator with rfl | rfl | rfl | rfl | rfl
  all_goals exact wellFormed_combine hleft hright (expect_eq_ok.mp hresult)

theorem wellFormed_reduction {function : Reduction}
    (hoperands : ∀ operand ∈ operands, WellFormed vocabulary operand)
    (hne : operands ≠ []) (hscalars : ∀ operand ∈ operands, operand.IsScalar) :
    WellFormed vocabulary (reduction function operands) :=
  .node ⟨hne, hscalars⟩ trivial hoperands rfl

theorem wellFormed_reduceNonempty {function : Reduction}
    (hoperands : ∀ operand ∈ operands, WellFormed vocabulary operand)
    (hresult : reduceNonempty function operands = .ok result) : WellFormed vocabulary result := by
  obtain ⟨⟨hscalars, hne⟩, rfl⟩ := reduceNonempty_eq_ok.mp hresult
  exact wellFormed_reduction hoperands hne hscalars

theorem wellFormed_listed {function : List Expr → Except ModelError Expr}
    (hfunction : function ∈ listFunctions)
    (hoperands : ∀ operand ∈ operands, WellFormed vocabulary operand)
    (hresult : function operands = .ok result) : WellFormed vocabulary result := by
  simp only [listFunctions, List.mem_cons, List.not_mem_nil, or_false] at hfunction
  rcases hfunction with rfl | rfl | rfl | rfl
  · obtain ⟨hscalars, rfl⟩ := sum_eq_ok.mp hresult
    by_cases hempty : operands = []
    · rw [if_pos hempty]
      exact .int 0
    · rw [if_neg hempty]
      exact wellFormed_reduction hoperands hempty hscalars
  · exact wellFormed_reduceNonempty hoperands hresult
  · exact wellFormed_reduceNonempty hoperands hresult
  · exact wellFormed_reduceNonempty hoperands hresult

theorem wellFormed_connective {op : Connective} (hleft : WellFormed vocabulary left)
    (hright : WellFormed vocabulary right) (hkinds : left.kind = .bool ∧ right.kind = .bool) :
    WellFormed vocabulary (connective op [left, right]) :=
  .node ⟨Nat.le_refl 2, by simpa using hkinds⟩ trivial
    (by simpa [children] using ⟨hleft, hright⟩) rfl

theorem wellFormed_join {op : Connective}
    (hoperands : ∀ operand ∈ operands, WellFormed vocabulary operand)
    (hne : operands ≠ []) (hkinds : ∀ operand ∈ operands, operand.kind = .bool) :
    WellFormed vocabulary (join op operands) := by
  match operands with
  | [] => exact absurd rfl hne
  | [operand] => exact hoperands operand (by simp)
  | first :: second :: rest =>
    have hlength : 2 ≤ (first :: second :: rest).length := by simp
    exact .node ⟨hlength, hkinds⟩ trivial hoperands rfl

theorem wellFormed_chain {op : Connective} {first : Expr} {rest : List Expr}
    (hfirst : WellFormed vocabulary first) (hkind : first.kind = .bool)
    (hrest : ∀ operand ∈ rest, WellFormed vocabulary operand)
    (hkinds : ∀ operand ∈ rest, operand.kind = .bool) :
    WellFormed vocabulary
      (rest.foldl (fun left right => connective op [left, right]) first) := by
  induction rest generalizing first with
  | nil => exact hfirst
  | cons second rest ih =>
    rw [List.forall_mem_cons] at hrest hkinds
    exact ih (wellFormed_connective hfirst hrest.1 ⟨hkind, hkinds.1⟩) rfl hrest.2 hkinds.2

theorem wellFormed_indexed {declared : Constant} (hdeclared : vocabulary.HasConstant declared)
    (hdimensions : declared.dimensions ≠ [])
    (hindices : ∀ index ∈ operands, WellFormed vocabulary index)
    (hspelled : ∀ index ∈ operands, index.isFiniteLiteral = true)
    (hlength : operands.length = declared.dimensions.length) :
    WellFormed vocabulary (declared.access operands) :=
  .node ⟨declared, hdeclared, rfl, rfl, hdimensions, hlength⟩ hspelled hindices rfl

theorem wellFormed_elementAt {declared : Constant} {indices : List Nat}
    (hdeclared : vocabulary.HasConstant declared)
    (hresult : declared.elementAt indices = .ok result) : WellFormed vocabulary result := by
  obtain ⟨⟨hdimensions, position, hposition⟩, rfl⟩ := Constant.elementAt_eq_ok.mp hresult
  apply wellFormed_indexed hdeclared hdimensions
  · intro index hmem
    obtain ⟨offset, -, rfl⟩ := List.mem_map.mp hmem
    exact .int _
  · intro index hmem
    obtain ⟨offset, -, rfl⟩ := List.mem_map.mp hmem
    rfl
  · rw [List.length_map]
    exact Constant.length_of_flatPosition hposition

theorem wellFormed_indexBy {declared : Constant} (hdeclared : vocabulary.HasConstant declared)
    (hoperands : ∀ index ∈ operands, WellFormed vocabulary index)
    (hresult : declared.indexBy operands = .ok result) : WellFormed vocabulary result := by
  obtain ⟨⟨hdimensions, hkinds, hlength⟩, rfl⟩ := Constant.indexBy_eq_ok.mp hresult
  apply wellFormed_indexed hdeclared hdimensions
  · intro index hmem
    obtain ⟨offset, hoffset, rfl⟩ := List.mem_map.mp hmem
    have hsum : offset.add (.int 1) = .ok (arithmetic .add offset (.int 1)) := by
      have hindex := Constant.symbolicIndex_eq_ok.mpr ⟨hkinds offset hoffset, rfl⟩
      rwa [Constant.symbolicIndex, if_pos (hkinds offset hoffset)] at hindex
    exact wellFormed_combine (hoperands offset hoffset) (.int 1) hsum
  · intro index hmem
    obtain ⟨offset, -, rfl⟩ := List.mem_map.mp hmem
    rfl
  · rw [List.length_map]
    exact hlength

theorem wellFormed_onArray {factory : List Expr → Except ModelError Constraint}
    (hfactory : factory ∈ arrayConstraints)
    (helements : ∀ element ∈ elements, WellFormed vocabulary element)
    (hposted : factory elements = .ok posted) : WellFormed vocabulary posted.body := by
  simp only [arrayConstraints, List.mem_cons, List.not_mem_nil, or_false] at hfactory
  rcases hfactory with rfl | rfl | rfl | rfl
  all_goals
    obtain ⟨-, rfl⟩ := Constraint.onArray_eq_ok.mp hposted
    exact .predicate (by simpa [spread] using helements) (.inl (by simp [arrayGlobals]))

theorem wellFormed_onTasks
    {factory : List Expr → List Expr → Except ModelError Constraint}
    (hfactory : factory ∈ taskConstraints)
    (helements : ∀ element ∈ elements, WellFormed vocabulary element)
    (hothers : ∀ other ∈ others, WellFormed vocabulary other)
    (hposted : factory elements others = .ok posted) : WellFormed vocabulary posted.body := by
  simp only [taskConstraints, List.mem_cons, List.not_mem_nil, or_false] at hfactory
  rcases hfactory with rfl | rfl
  all_goals
    obtain ⟨⟨hfirst, hsecond, -⟩, rfl⟩ := Constraint.onTasks_eq_ok.mp hposted
    exact .checkedPredicate (by
      simpa using ⟨isChecked_scalars helements hfirst, isChecked_scalars hothers hsecond⟩)

end Results

variable {vocabulary : Vocabulary} {expr : Expr}

/-- Whatever is built has operands of fitting kinds at every node. -/
theorem Built.wellFormed (hbuilt : Built vocabulary expr) : WellFormed vocabulary expr := by
  induction hbuilt with
  | int value => exact .int value
  | bool value => exact .node trivial trivial (by simp [children]) rfl
  | setOf values => exact .intSet _
  | float hvalue => exact .node hvalue trivial (by simp [children]) rfl
  | raw htext => exact .node htext trivial (by simp [children]) rfl
  | ofVariable hdeclared =>
    exact .node (.inl ⟨_, hdeclared, rfl, rfl⟩) trivial (by simp [Variable.toExpr, children]) rfl
  | ofConstant hdeclared hresult =>
    obtain ⟨hscalar, rfl⟩ := Constant.toExpr_eq_ok.mp hresult
    exact .node (.inr ⟨_, hdeclared, rfl, rfl, hscalar⟩) trivial (by simp [children]) rfl
  | elementAt hdeclared hresult => exact wellFormed_elementAt hdeclared hresult
  | indexBy hdeclared _ hresult ihindices => exact wellFormed_indexBy hdeclared ihindices hresult
  | unary hfunction _ hresult ihoperand => exact wellFormed_unary hfunction ihoperand hresult
  | unaryOperator hoperator _ hresult ihoperand =>
    exact wellFormed_unaryOperator hoperator ihoperand hresult
  | binary hfunction _ _ hresult ihleft ihright =>
    exact wellFormed_binary hfunction ihleft ihright hresult
  | binaryOperator hoperator _ _ hresult ihleft ihright =>
    exact wellFormed_binaryOperator hoperator ihleft ihright hresult
  | compare _ _ hresult ihleft ihright => exact wellFormed_compare ihleft ihright hresult
  | compared _ _ hresult ihleft ihright =>
    exact wellFormed_compare ihleft ihright (expect_eq_ok.mp hresult)
  | joinTwo _ _ hresult ihleft ihright =>
    obtain ⟨hkinds, rfl⟩ := joinTwo_eq_ok.mp hresult
    exact wellFormed_connective ihleft ihright hkinds
  | joined _ _ hresult ihleft ihright =>
    obtain ⟨hkinds, rfl⟩ := joined_eq_ok.mp hresult
    exact wellFormed_connective ihleft ihright hkinds
  | listed hfunction _ hresult ihoperands => exact wellFormed_listed hfunction ihoperands hresult
  | joinAll _ hresult ihoperands =>
    obtain ⟨⟨hkinds, hne⟩, rfl⟩ := joinAll_eq_ok.mp hresult
    exact wellFormed_join ihoperands hne hkinds
  | chain _ hresult ihoperands =>
    obtain ⟨first, rest, rfl, hkinds, rfl⟩ := chain_eq_ok.mp hresult
    rw [List.forall_mem_cons] at ihoperands hkinds
    exact wellFormed_chain ihoperands.1 hkinds.1 ihoperands.2 hkinds.2
  | ifThenElse _ _ _ hresult ihtest ihthen ihelse =>
    obtain ⟨hkinds, rfl⟩ := ifThenElse_eq_ok.mp hresult
    exact .node hkinds trivial (by simpa [children] using ⟨ihtest, ihthen, ihelse⟩) rfl
  | onArray hfactory _ hposted ihelements => exact wellFormed_onArray hfactory ihelements hposted
  | among _ _ hposted ihtotal ihelements =>
    obtain ⟨⟨htotal, helements⟩, rfl⟩ := Constraint.among_eq_ok.mp hposted
    have hvalues : ∀ values, IsChecked vocabulary (Expr.setOf values) := fun values =>
      (WellFormed.intSet _).isChecked rfl
    exact .checkedPredicate (by
      simpa using ⟨ihtotal.isChecked htotal.2, isChecked_scalars ihelements helements, hvalues _⟩)
  | count _ _ _ hposted ihelements ihvalue ihtotal =>
    obtain ⟨⟨helements, hvalue, htotal⟩, rfl⟩ := Constraint.count_eq_ok.mp hposted
    exact .checkedPredicate (by
      simpa using ⟨isChecked_scalars ihelements helements, ihvalue.isChecked hvalue.2,
        ihtotal.isChecked htotal.2⟩)
  | onTasks hfactory _ _ hposted ihstarts ihdurations =>
    exact wellFormed_onTasks hfactory ihstarts ihdurations hposted
  | argSort _ _ hposted ihelements ihpermutation =>
    obtain ⟨⟨helements, hpermutation, -⟩, rfl⟩ := Constraint.argSort_eq_ok.mp hposted
    exact .checkedPredicate (by
      simpa using ⟨isChecked_scalars ihelements helements,
        isChecked_scalars ihpermutation hpermutation⟩)
  | diffn _ _ _ _ hposted ihx ihy ihdx ihdy =>
    obtain ⟨⟨⟨hx, hy, hdx, hdy⟩, -⟩, rfl⟩ := Constraint.diffn_eq_ok.mp hposted
    exact .checkedPredicate (by
      simpa using ⟨isChecked_scalars ihx hx, isChecked_scalars ihy hy, isChecked_scalars ihdx hdx,
        isChecked_scalars ihdy hdy⟩)
  | connected _ _ hposted ihnodes ihedges =>
    obtain ⟨hsound, rfl⟩ := Constraint.connected_eq_ok.mp hposted
    exact .checkedPredicate (by
      simpa using ⟨isChecked_intArray _, isChecked_intArray _,
        isChecked_conditions ihnodes hsound.nodes.1, isChecked_conditions ihedges hsound.edges.1⟩)
  | reachable _ _ _ hposted ihroot ihnodes ihedges =>
    obtain ⟨⟨hroot, hsound⟩, rfl⟩ := Constraint.reachable_eq_ok.mp hposted
    exact .checkedPredicate (by
      simpa using ⟨isChecked_intArray _, isChecked_intArray _, ihroot.isChecked hroot.2,
        isChecked_conditions ihnodes hsound.nodes.1, isChecked_conditions ihedges hsound.edges.1⟩)

end Expr

end MiniZincModels
