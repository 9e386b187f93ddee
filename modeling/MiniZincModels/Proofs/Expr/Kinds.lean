import MiniZincModels.Proofs.Expr.Built

/-!
# The rules for kinds

An expression has the kind that the rules of the modelling language give it from the kinds
of its operands.  The rules are stated here apart from the functions that check operands and
compute kinds: whatever is built has one kind by the rules, the computed one.
-/

namespace MiniZincModels

namespace Kind

/-- Whole numbers, for which conditions may stand as well. -/
def IsWhole (kind : Kind) : Prop :=
  kind = int ∨ kind = bool

/-- The kind of a number that is computed from numbers of the given kinds: a float if one of
them is. -/
def ofNumbers (kinds : List Kind) : Kind :=
  if float ∈ kinds then float else int

theorem isWhole_iff {kind : Kind} : kind.IsWhole ↔ kind ≠ intSet ∧ kind ≠ float := by
  cases kind <;> simp [IsWhole]

theorem arithmetic_eq (left right : Kind) : left.arithmetic right = ofNumbers [left, right] := by
  cases left <;> cases right <;> decide

theorem arithmetic_of_isWhole {left right : Kind} (hleft : left.IsWhole) (hright : right.IsWhole) :
    left.arithmetic right = int := by
  rcases hleft with rfl | rfl <;> rcases hright with rfl | rfl <;> rfl

/-- The kinds may be looked at one after the other. -/
theorem foldl_arithmetic (seen kinds : List Kind) :
    kinds.foldl arithmetic (ofNumbers seen) = ofNumbers (seen ++ kinds) := by
  induction kinds generalizing seen with
  | nil => rw [List.foldl_nil, List.append_nil]
  | cons kind kinds ih =>
    have hstep : (ofNumbers seen).arithmetic kind = ofNumbers (seen ++ [kind]) := by
      rw [arithmetic_eq]
      by_cases hseen : float ∈ seen <;> simp [ofNumbers, hseen]
    rw [List.foldl_cons, hstep, ih, List.append_assoc, List.singleton_append]

end Kind

namespace Expr

section Rules

variable (vocabulary : Vocabulary)

/-- The rules by which an expression over a vocabulary has a kind. -/
inductive HasKind : Expr → Kind → Prop
  | int (value : Int64) : HasKind (.int value) .int
  | float {value} (hvalue : vocabulary.HasFloat value) : HasKind (.float value) .float
  | bool (value : Bool) : HasKind (.bool value) .bool
  | intSet (values : IntSet) : HasKind (.intSet values) .intSet
  | raw {text} (htext : vocabulary.HasRaw text) : HasKind (.raw text) .bool
  | ofVariable {declared} (hdeclared : vocabulary.HasVariable declared) :
      HasKind (.identifier declared.name declared.kind) declared.kind
  | ofConstant {declared} (hdeclared : vocabulary.HasConstant declared)
      (hscalar : declared.dimensions = []) :
      HasKind (.identifier declared.name declared.kind) declared.kind
  | access {declared indices} (hdeclared : vocabulary.HasConstant declared)
      (harray : declared.dimensions ≠ []) (hlength : indices.length = declared.dimensions.length)
      (indexKind : Expr → Kind) (hindices : ∀ index ∈ indices, HasKind index (indexKind index)) :
      HasKind (.access declared.name declared.kind indices) declared.kind
  | arithmetic {op left right leftKind rightKind} (hop : op = .add ∨ op = .sub ∨ op = .mul)
      (hleft : HasKind left leftKind) (hright : HasKind right rightKind)
      (hnumbers : leftKind ≠ .intSet ∧ rightKind ≠ .intSet) :
      HasKind (.arithmetic op left right) (.ofNumbers [leftKind, rightKind])
  | quotient {left right leftKind rightKind} (hleft : HasKind left leftKind)
      (hright : HasKind right rightKind) (hnumbers : leftKind ≠ .intSet ∧ rightKind ≠ .intSet) :
      HasKind (.arithmetic .divide left right) .float
  | remainder {op left right leftKind rightKind} (hop : op = .intDiv ∨ op = .modulo)
      (hleft : HasKind left leftKind) (hright : HasKind right rightKind)
      (hwhole : leftKind.IsWhole ∧ rightKind.IsWhole) : HasKind (.arithmetic op left right) .int
  | power {base exponent baseKind exponentKind} (hbase : HasKind base baseKind)
      (hexponent : HasKind exponent exponentKind)
      (hnumbers : baseKind ≠ .intSet ∧ exponentKind ≠ .intSet) :
      HasKind (.power base exponent) (.ofNumbers [baseKind, exponentKind])
  | absolute {operand kind} (hoperand : HasKind operand kind) (hnumber : kind ≠ .intSet) :
      HasKind (.absolute operand) (.ofNumbers [kind])
  | reduction {function operands} (hsome : operands ≠ []) (operandKind : Expr → Kind)
      (hoperands : ∀ operand ∈ operands, HasKind operand (operandKind operand))
      (hnumbers : ∀ operand ∈ operands, operandKind operand ≠ .intSet) :
      HasKind (.reduction function operands) (.ofNumbers (operands.map operandKind))
  | comparison {op left right leftKind rightKind} (hleft : HasKind left leftKind)
      (hright : HasKind right rightKind) (hnumbers : leftKind ≠ .intSet ∧ rightKind ≠ .intSet) :
      HasKind (.comparison op left right) .bool
  | setComparison {op left right} (hop : op = .equal ∨ op = .notEqual)
      (hleft : HasKind left .intSet) (hright : HasKind right .intSet) :
      HasKind (.comparison op left right) .bool
  | connective {op operands} (hlength : 2 ≤ operands.length)
      (hoperands : ∀ operand ∈ operands, HasKind operand .bool) :
      HasKind (.connective op operands) .bool
  | negation {operand} (hoperand : HasKind operand .bool) : HasKind (.negation operand) .bool
  | setMeasure {function set} (hset : HasKind set .intSet) :
      HasKind (.setMeasure function set) .int
  | membership {element set elementKind} (helement : HasKind element elementKind)
      (hwhole : elementKind.IsWhole) (hset : HasKind set .intSet) :
      HasKind (.membership element set) .bool
  | intersection {left right} (hleft : HasKind left .intSet) (hright : HasKind right .intSet) :
      HasKind (.intersection left right) .intSet
  | choice {test thenValue elseValue kind} (htest : HasKind test .bool)
      (hkind : kind = .bool ∨ kind = .intSet) (hthen : HasKind thenValue kind)
      (helse : HasKind elseValue kind) : HasKind (.conditional test thenValue elseValue) kind
  | numericChoice {test thenValue elseValue thenKind elseKind} (htest : HasKind test .bool)
      (hthen : HasKind thenValue thenKind) (helse : HasKind elseValue elseKind)
      (hnumbers : thenKind ≠ .intSet ∧ elseKind ≠ .intSet)
      (hmixed : ¬ (thenKind = .bool ∧ elseKind = .bool)) :
      HasKind (.conditional test thenValue elseValue) (.ofNumbers [thenKind, elseKind])
  | predicate {global arguments} (partKind : Expr → Kind)
      (hparts : ∀ argument ∈ arguments, ∀ part ∈ argument.spread, HasKind part (partKind part)) :
      HasKind (.predicate global arguments) .bool

end Rules

variable {vocabulary : Vocabulary} {expr : Expr} {kind : Kind}

/-! ## The computed kind -/

theorem kind_reduction (function : Reduction) (operands : List Expr) :
    (reduction function operands).kind = .ofNumbers (operands.map Expr.kind) := by
  have hfold := Kind.foldl_arithmetic [] (operands.map Expr.kind)
  rw [Expr.kind, kinds_eq_map]
  exact hfold

theorem kind_absolute (operand : Expr) : (absolute operand).kind = .ofNumbers [operand.kind] := by
  rw [Expr.kind]
  cases operand.kind <;> decide

/-- The rules give an expression no other kind than the computed one. -/
theorem HasKind.eq_kind (h : HasKind vocabulary expr kind) : kind = expr.kind := by
  induction h with
  | arithmetic hop _ _ _ ihleft ihright =>
    rcases hop with rfl | rfl | rfl
    all_goals rw [Expr.kind, if_neg (by decide), Kind.arithmetic_eq, ihleft, ihright]
  | remainder hop _ _ hwhole ihleft ihright =>
    rw [ihleft, ihright] at hwhole
    rcases hop with rfl | rfl
    all_goals rw [Expr.kind, if_neg (by decide), Kind.arithmetic_of_isWhole hwhole.1 hwhole.2]
  | power _ _ _ ihbase ihexponent => rw [Expr.kind, Kind.arithmetic_eq, ihbase, ihexponent]
  | absolute _ _ ih => rw [kind_absolute, ih]
  | reduction _ operandKind _ _ ih => rw [kind_reduction, List.map_congr_left ih]
  | choice _ hkind _ _ _ ihthen ihelse =>
    rw [Expr.kind, ← ihthen, ← ihelse, if_pos ⟨rfl, hkind⟩]
  | numericChoice _ _ _ hnumbers hmixed _ ihthen ihelse =>
    rw [Expr.kind, ← ihthen, ← ihelse, if_neg, Kind.arithmetic_eq]
    rintro ⟨rfl, rfl | rfl⟩
    · exact hmixed ⟨rfl, rfl⟩
    · exact hnumbers.1 rfl
  | _ => rfl

theorem HasKind.computed (h : HasKind vocabulary expr kind) : HasKind vocabulary expr expr.kind :=
  h.eq_kind ▸ h

/-! ## The operands of a node -/

section Nodes

variable {left right : Expr} (hleft : HasKind vocabulary left left.kind)
  (hright : HasKind vocabulary right right.kind)
include hleft hright

theorem hasKind_arithmetic {op : ArithmeticOp}
    (hfits : FitsArithmetic op left ∧ FitsArithmetic op right) :
    HasKind vocabulary (.arithmetic op left right) (arithmetic op left right).kind := by
  obtain ⟨⟨hleftScalar, hleftWhole⟩, hrightScalar, hrightWhole⟩ := hfits
  have hnumbers : left.kind ≠ .intSet ∧ right.kind ≠ .intSet :=
    ⟨Kind.isScalar_iff.mp hleftScalar.1, Kind.isScalar_iff.mp hrightScalar.1⟩
  have hwhole : op = .intDiv ∨ op = .modulo → left.kind.IsWhole ∧ right.kind.IsWhole :=
    fun hop => ⟨Kind.isWhole_iff.mpr ⟨hnumbers.1, hleftWhole hop⟩,
      Kind.isWhole_iff.mpr ⟨hnumbers.2, hrightWhole hop⟩⟩
  cases op with
  | add | sub | mul => exact (HasKind.arithmetic (by simp) hleft hright hnumbers).computed
  | divide => exact .quotient hleft hright hnumbers
  | intDiv => exact (HasKind.remainder (.inl rfl) hleft hright (hwhole (.inl rfl))).computed
  | modulo => exact (HasKind.remainder (.inr rfl) hleft hright (hwhole (.inr rfl))).computed

theorem hasKind_comparison {op : ComparisonOp} (hfits : Comparable op left right) :
    HasKind vocabulary (.comparison op left right) .bool := by
  rcases hfits with ⟨hleftScalar, hrightScalar⟩ | ⟨hop, hleftSet, hrightSet⟩
  · exact .comparison hleft hright
      ⟨Kind.isScalar_iff.mp hleftScalar.1, Kind.isScalar_iff.mp hrightScalar.1⟩
  · rw [hleftSet] at hleft
    rw [hrightSet] at hright
    exact .setComparison hop hleft hright

theorem hasKind_conditional {test : Expr} (htest : HasKind vocabulary test .bool)
    (hsets : left.kind = .intSet ↔ right.kind = .intSet) :
    HasKind vocabulary (.conditional test left right) (conditional test left right).kind := by
  by_cases hset : left.kind = .intSet
  · rw [hset] at hleft
    rw [hsets.mp hset] at hright
    exact (HasKind.choice htest (.inr rfl) hleft hright).computed
  by_cases hbool : left.kind = .bool ∧ right.kind = .bool
  · rw [hbool.1] at hleft
    rw [hbool.2] at hright
    exact (HasKind.choice htest (.inl rfl) hleft hright).computed
  · have hnumbers : left.kind ≠ .intSet ∧ right.kind ≠ .intSet := ⟨hset, mt hsets.mpr hset⟩
    exact (HasKind.numericChoice htest hleft hright hnumbers hbool).computed

end Nodes

/-- A node with operands that fit has a kind by the rules, if the operands have one. -/
theorem hasKind_of_fits (hfits : Fits vocabulary expr)
    (hchildren : ∀ child ∈ expr.children, HasKind vocabulary child child.kind)
    (harray : expr.isArray = false)
    (hpredicate : ∀ global arguments, expr ≠ .predicate global arguments) :
    HasKind vocabulary expr expr.kind := by
  cases expr with
  | int value => exact .int value
  | float value => exact .float hfits
  | bool value => exact .bool value
  | intSet values => exact .intSet values
  | raw text => exact .raw hfits
  | identifier name kind =>
    rcases hfits with ⟨declared, hdeclared, rfl, rfl⟩ | ⟨declared, hdeclared, rfl, rfl, hscalar⟩
    · exact .ofVariable hdeclared
    · exact .ofConstant hdeclared hscalar
  | access name kind indices =>
    obtain ⟨declared, hdeclared, rfl, rfl, hdimensions, hlength⟩ := hfits
    exact .access hdeclared hdimensions hlength Expr.kind hchildren
  | array elements => cases harray
  | predicate global arguments => exact absurd rfl (hpredicate global arguments)
  | reduction function operands =>
    have hnumbers : ∀ operand ∈ operands, operand.kind ≠ .intSet :=
      fun operand hmem => Kind.isScalar_iff.mp (hfits.2 operand hmem).1
    exact (HasKind.reduction hfits.1 Expr.kind hchildren hnumbers).computed
  | connective op operands =>
    exact .connective hfits.1 fun operand hmem => hfits.2 operand hmem ▸ hchildren operand hmem
  | arithmetic op left right =>
    simp only [children, List.forall_mem_cons] at hchildren
    exact hasKind_arithmetic hchildren.1 hchildren.2.1 hfits
  | comparison op left right =>
    simp only [children, List.forall_mem_cons] at hchildren
    exact hasKind_comparison hchildren.1 hchildren.2.1 hfits
  | conditional test thenValue elseValue =>
    simp only [children, List.forall_mem_cons] at hchildren
    exact hasKind_conditional hchildren.2.1 hchildren.2.2.1 (hfits.1 ▸ hchildren.1) hfits.2
  | power base exponent =>
    simp only [children, List.forall_mem_cons] at hchildren
    exact (HasKind.power hchildren.1 hchildren.2.1
      ⟨Kind.isScalar_iff.mp hfits.1.1, Kind.isScalar_iff.mp hfits.2.1⟩).computed
  | absolute operand =>
    simp only [children, List.forall_mem_cons] at hchildren
    exact (HasKind.absolute hchildren.1 (Kind.isScalar_iff.mp hfits.1)).computed
  | negation operand =>
    simp only [children, List.forall_mem_cons] at hchildren
    exact .negation (hfits ▸ hchildren.1)
  | setMeasure function set =>
    simp only [children, List.forall_mem_cons] at hchildren
    exact .setMeasure (hfits ▸ hchildren.1)
  | membership element set =>
    simp only [children, List.forall_mem_cons] at hchildren
    exact .membership hchildren.1 hfits.2 (hfits.1 ▸ hchildren.2.1)
  | intersection left right =>
    simp only [children, List.forall_mem_cons] at hchildren
    exact .intersection (hfits.1 ▸ hchildren.1) (hfits.2 ▸ hchildren.2.1)

/-- Where all operands fit, the elements of an array, or else the expression itself, have a kind
by the rules. -/
theorem hasKind_of_everywhere_fits (hfits : expr.Everywhere (Fits vocabulary))
    (hnoArray : expr.Everywhere HoldsNoArray) :
    ∀ part ∈ expr.spread, HasKind vocabulary part part.kind := by
  induction hfits with
  | @node expr here _ ih =>
    obtain ⟨hhere, hbelow⟩ := hnoArray
    have hparts : ∀ child ∈ expr.children, ∀ part ∈ child.spread,
        HasKind vocabulary part part.kind := fun child hmem => ih child hmem (hbelow child hmem)
    by_cases hpredicate : ∃ global arguments, expr = predicate global arguments
    · obtain ⟨global, arguments, rfl⟩ := hpredicate
      exact List.forall_mem_singleton.mpr (.predicate Expr.kind hparts)
    have hchildren : ∀ child ∈ expr.children, HasKind vocabulary child child.kind := by
      intro child hmem
      have hchild := spread_of_isArray_eq_false (hhere.resolve_left hpredicate child hmem)
      exact hparts child hmem child (by rw [hchild]; exact List.mem_singleton.mpr rfl)
    cases harray : expr.isArray with
    | true =>
      cases expr with
      | array elements => exact hchildren
      | _ => cases harray
    | false =>
      rw [spread_of_isArray_eq_false harray, List.forall_mem_singleton]
      exact hasKind_of_fits here hchildren harray fun global arguments h =>
        hpredicate ⟨global, arguments, h⟩

/-- Whatever is built has just the computed kind by the rules. -/
theorem Built.hasKind_iff (hbuilt : Built vocabulary expr) :
    HasKind vocabulary expr kind ↔ kind = expr.kind := by
  have hwell := hbuilt.wellFormed
  constructor
  · exact HasKind.eq_kind
  · rintro rfl
    apply hasKind_of_everywhere_fits hwell.fits hwell.holdsNoArray
    rw [spread_of_isArray_eq_false hwell.isArray]
    exact List.mem_singleton.mpr rfl

end Expr

end MiniZincModels
