import MiniZincModels.Proofs.Expr.Built

/-!
# Finite literals

A checked function refuses an operand that is a literal without a spelling, but it looks
at the topmost node only.  That is enough where every operand is looked at.  The branches
of a choice and the elements of a constraint on one array are not, so a literal without a
spelling gets into an expression there, and nowhere else.
-/

namespace MiniZincModels.Expr

/-- Every float literal in the expression is finite. -/
def HasFiniteLiterals (expr : Expr) : Prop :=
  expr.Everywhere fun node => node.isFiniteLiteral = true

/-- The operands of a node that are taken as they are. -/
def unexamined : Expr → List Expr
  | conditional _ thenValue elseValue => [thenValue, elseValue]
  | predicate global arguments =>
    if global ∈ arrayGlobals then arguments.flatMap spread else []
  | _ => []

/-- Where no operand is looked at, there happens to be no literal without a spelling. -/
def HasFiniteUnexamined (expr : Expr) : Prop :=
  expr.Everywhere fun node => ∀ operand ∈ node.unexamined, operand.isFiniteLiteral = true

variable {vocabulary : Vocabulary} {expr : Expr}

theorem isFiniteLiteral_of_spread (h : ∀ part ∈ expr.spread, part.isFiniteLiteral = true) :
    expr.isFiniteLiteral = true := by
  cases expr with
  | float value => exact h (.float value) (List.mem_singleton.mpr rfl)
  | _ => rfl

/-! ## From the operands not looked at to all -/

theorem isFiniteLiteral_of_comparable {op : ComparisonOp} {left right : Expr}
    (h : Comparable op left right) :
    left.isFiniteLiteral = true ∧ right.isFiniteLiteral = true := by
  rcases h with ⟨hleft, hright⟩ | ⟨-, hleft, hright⟩
  · exact ⟨hleft.2, hright.2⟩
  · exact ⟨isFiniteLiteral_of_kind (by simp [hleft]), isFiniteLiteral_of_kind (by simp [hright])⟩

/-- Apart from arrays and predicates, a node with fitting operands has operands that are
finite, if those not looked at are. -/
theorem isFiniteLiteral_of_mem_children (hfits : Fits vocabulary expr) (hexamined : Examined expr)
    (hunexamined : ∀ operand ∈ expr.unexamined, operand.isFiniteLiteral = true)
    (harray : ∀ elements, expr ≠ .array elements)
    (hpredicate : ∀ global arguments, expr ≠ .predicate global arguments) :
    ∀ child ∈ expr.children, child.isFiniteLiteral = true := by
  have hcondition : ∀ operand : Expr, operand.kind = .bool → operand.isFiniteLiteral = true :=
    fun operand hkind => isFiniteLiteral_of_kind (by simp [hkind])
  have hset : ∀ operand : Expr, operand.kind = .intSet → operand.isFiniteLiteral = true :=
    fun operand hkind => isFiniteLiteral_of_kind (by simp [hkind])
  cases expr with
  | int | float | bool | intSet | identifier | raw => exact List.forall_mem_nil _
  | arithmetic op left right => simpa [children] using ⟨hfits.1.1.2, hfits.2.1.2⟩
  | comparison op left right =>
    simpa [children] using isFiniteLiteral_of_comparable hfits
  | connective op operands => exact fun operand hmem => hcondition operand (hfits.2 operand hmem)
  | negation operand => simpa [children] using hcondition operand hfits
  | power base exponent => simpa [children] using ⟨hfits.1.2, hfits.2.2⟩
  | absolute operand => simpa [children] using hfits.2
  | reduction function operands => exact fun operand hmem => (hfits.2 operand hmem).2
  | setMeasure function set => simpa [children] using hset set hfits
  | array elements => exact absurd rfl (harray elements)
  | predicate global arguments => exact absurd rfl (hpredicate global arguments)
  | conditional test thenValue elseValue =>
    rw [unexamined, List.forall_mem_cons, List.forall_mem_singleton] at hunexamined
    simpa [children] using ⟨hcondition test hfits.1, hunexamined⟩
  | access name kind indices => exact hexamined
  | membership element set =>
    have helement : element.isFiniteLiteral = true := by
      apply isFiniteLiteral_of_kind
      rcases hfits.2 with hkind | hkind <;> simp [hkind]
    simpa [children] using ⟨helement, hset set hfits.1⟩
  | intersection left right => simpa [children] using ⟨hset left hfits.1, hset right hfits.2⟩

theorem isFiniteLiteral_of_mem_arguments {global : Global} {arguments : List Expr}
    (hexamined : Examined (.predicate global arguments))
    (hunexamined : ∀ operand ∈ (predicate global arguments).unexamined,
      operand.isFiniteLiteral = true) :
    ∀ argument ∈ arguments, ∀ part ∈ argument.spread, part.isFiniteLiteral = true := by
  rcases hexamined with hglobal | hexamined
  · intro argument hmem part hpart
    apply hunexamined
    rw [unexamined, if_pos hglobal]
    exact List.mem_flatMap.mpr ⟨argument, hmem, hpart⟩
  · exact hexamined

/-- What holds of the topmost node, an array standing for its elements, goes down to the
operands. -/
theorem isFiniteLiteral_of_mem_spread (hfits : Fits vocabulary expr)
    (hexamined : Examined expr) (hholds : HoldsNoArray expr)
    (hunexamined : ∀ operand ∈ expr.unexamined, operand.isFiniteLiteral = true)
    (hexpr : ∀ part ∈ expr.spread, part.isFiniteLiteral = true) :
    ∀ child ∈ expr.children, ∀ part ∈ child.spread, part.isFiniteLiteral = true := by
  by_cases hpredicate : ∃ global arguments, expr = .predicate global arguments
  · obtain ⟨global, arguments, rfl⟩ := hpredicate
    exact isFiniteLiteral_of_mem_arguments hexamined hunexamined
  · intro child hmem
    have hchild := (hholds.resolve_left hpredicate) child hmem
    rw [spread_of_isArray_eq_false hchild, List.forall_mem_singleton]
    by_cases harray : ∃ elements, expr = .array elements
    · obtain ⟨elements, rfl⟩ := harray
      exact hexpr child hmem
    · apply isFiniteLiteral_of_mem_children hfits hexamined hunexamined _ _ child hmem
      · exact fun elements heq => harray ⟨elements, heq⟩
      · exact fun global arguments heq => hpredicate ⟨global, arguments, heq⟩

theorem hasFiniteLiterals_of_unexamined (hfits : expr.Everywhere (Fits vocabulary))
    (hexamined : expr.Everywhere Examined) (hholds : expr.Everywhere HoldsNoArray)
    (hunexamined : expr.HasFiniteUnexamined)
    (hexpr : ∀ part ∈ expr.spread, part.isFiniteLiteral = true) : expr.HasFiniteLiterals := by
  induction hfits with
  | @node expr here _ ih =>
    obtain ⟨hexaminedHere, hexaminedBelow⟩ := hexamined
    obtain ⟨hholdsHere, hholdsBelow⟩ := hholds
    obtain ⟨hunexaminedHere, hunexaminedBelow⟩ := hunexamined
    have hchildren := isFiniteLiteral_of_mem_spread here hexaminedHere hholdsHere hunexaminedHere
      hexpr
    refine .node (isFiniteLiteral_of_spread hexpr) ?_
    intro child hmem
    exact ih child hmem (hexaminedBelow child hmem) (hholdsBelow child hmem)
      (hunexaminedBelow child hmem) (hchildren child hmem)

/-! ## The other direction -/

theorem Everywhere.of_mem_spread {property : Expr → Prop} (h : expr.Everywhere property) :
    ∀ part ∈ expr.spread, part.Everywhere property := by
  cases expr with
  | array elements =>
    obtain ⟨-, hbelow⟩ := h
    exact hbelow
  | _ => exact List.forall_mem_singleton.mpr h

theorem Everywhere.leaf {property : Expr → Prop} (hleaf : expr.children = [])
    (here : property expr) : expr.Everywhere property :=
  .node here (by simp [hleaf])

theorem Everywhere.here {property : Expr → Prop} (h : expr.Everywhere property) :
    property expr := by
  obtain ⟨hhere, -⟩ := h
  exact hhere

/-- The operands not looked at are among the operands. -/
theorem Everywhere.of_mem_unexamined {property : Expr → Prop} (h : expr.Everywhere property) :
    ∀ operand ∈ expr.unexamined, property operand := by
  obtain ⟨-, hbelow⟩ := h
  intro operand hmem
  cases expr with
  | conditional test thenValue elseValue =>
    exact (hbelow operand (List.mem_cons_of_mem test hmem)).here
  | predicate global arguments =>
    rw [unexamined] at hmem
    split at hmem
    · obtain ⟨argument, hargument, hpart⟩ := List.mem_flatMap.mp hmem
      exact ((hbelow argument hargument).of_mem_spread operand hpart).here
    · cases hmem
  | _ => cases hmem

theorem HasFiniteLiterals.unexamined (h : expr.HasFiniteLiterals) : expr.HasFiniteUnexamined := by
  induction h with
  | @node expr here below ih => exact .node (Everywhere.of_mem_unexamined (.node here below)) ih

theorem not_hasFiniteLiterals {operand : Expr} (hmem : operand ∈ expr.unexamined)
    (hoperand : operand.isFiniteLiteral = false) : ¬ expr.HasFiniteLiterals := by
  intro h
  have hfinite : operand.isFiniteLiteral = true := h.of_mem_unexamined operand hmem
  rw [hoperand] at hfinite
  cases hfinite

/-- All literals of an expression are finite just when those are that were not looked at. -/
theorem WellFormed.hasFiniteLiterals_iff (hexpr : WellFormed vocabulary expr)
    (hfinite : expr.isFiniteLiteral = true) :
    expr.HasFiniteLiterals ↔ expr.HasFiniteUnexamined := by
  constructor
  · exact HasFiniteLiterals.unexamined
  · intro hunexamined
    apply hasFiniteLiterals_of_unexamined hexpr.fits hexpr.examined hexpr.holdsNoArray hunexamined
    rw [spread_of_isArray_eq_false hexpr.isArray, List.forall_mem_singleton]
    exact hfinite

end MiniZincModels.Expr
