import MiniZincModels.Expr.Operators
import MiniZincModels.Expr.Sets
import MiniZincModels.Proofs.Outcome

/-!
# What the checked functions accept

Each checked function accepts exactly the operands whose kinds fit their places,
and it builds one node on top of them.
-/

namespace MiniZincModels.Expr

/-- A number or condition that has a spelling. -/
def IsScalar (operand : Expr) : Prop :=
  operand.kind.isScalar = true ∧ operand.isFiniteLiteral = true

/-- Whole numbers for the division with remainder, any scalars otherwise. -/
def FitsArithmetic (op : ArithmeticOp) (operand : Expr) : Prop :=
  operand.IsScalar ∧ (op = .intDiv ∨ op = .modulo → operand.kind ≠ .float)

/-- Scalars are comparable in every way, sets only as equal or not. -/
def Comparable (op : ComparisonOp) (left right : Expr) : Prop :=
  left.IsScalar ∧ right.IsScalar ∨
    (op = .equal ∨ op = .notEqual) ∧ left.kind = .intSet ∧ right.kind = .intSet

/-- Only float literals may have no spelling. -/
theorem isFiniteLiteral_of_kind {operand : Expr} (hkind : operand.kind ≠ .float) :
    operand.isFiniteLiteral = true := by
  cases operand with
  | float value => exact absurd rfl hkind
  | _ => rfl

section Scalars

variable {argument : String} {operand left right result : Expr} {operands results : List Expr}

theorem scalar_eq_ok :
    scalar argument operand = .ok result ↔ operand.IsScalar ∧ result = operand := by
  rw [scalar, Outcome.guard_eq_ok, Bool.and_eq_true, IsScalar]

theorem integral_eq_ok :
    integral argument operand = .ok result ↔
      (operand.IsScalar ∧ operand.kind ≠ .float) ∧ result = operand := by
  rw [integral, Outcome.check_bind_eq_ok fun _ => scalar_eq_ok, ← ite_not, Outcome.guard_eq_ok,
    and_assoc]

theorem scalars_eq_ok :
    scalars argument operands = .ok results ↔
      (∀ operand ∈ operands, operand.IsScalar) ∧ results = operands :=
  Outcome.mapM_guard_eq_ok fun _ _ => scalar_eq_ok

theorem arithmeticOperand_eq_ok {op : ArithmeticOp} :
    arithmeticOperand op argument operand = .ok result ↔
      FitsArithmetic op operand ∧ result = operand := by
  rw [arithmeticOperand, FitsArithmetic]
  by_cases hop : op = .intDiv ∨ op = .modulo
  · simp [hop, integral_eq_ok]
  · simp [hop, scalar_eq_ok]

theorem combine_eq_ok {op : ArithmeticOp} :
    combine op left right = .ok result ↔
      (FitsArithmetic op left ∧ FitsArithmetic op right) ∧ result = arithmetic op left right := by
  rw [combine, Outcome.check_bind_eq_ok fun _ => arithmeticOperand_eq_ok,
    Outcome.check_bind_eq_ok fun _ => arithmeticOperand_eq_ok, Outcome.pure_eq_ok, and_assoc]

theorem negate_eq_ok :
    negate operand = .ok result ↔ operand.IsScalar ∧ result = arithmetic .sub (int 0) operand := by
  have hzero : FitsArithmetic .sub (int 0) := ⟨⟨rfl, rfl⟩, by decide⟩
  have hoperand : FitsArithmetic .sub operand ↔ operand.IsScalar := by simp [FitsArithmetic]
  rw [negate, Outcome.check_bind_eq_ok fun _ => scalar_eq_ok, combine_eq_ok, hoperand]
  tauto

theorem pow_eq_ok :
    pow left right = .ok result ↔
      (left.IsScalar ∧ right.IsScalar) ∧ result = power left right := by
  rw [pow, Outcome.check_bind_eq_ok fun _ => scalar_eq_ok,
    Outcome.check_bind_eq_ok fun _ => scalar_eq_ok, Outcome.pure_eq_ok, and_assoc]

theorem abs_eq_ok :
    abs operand = .ok result ↔ operand.IsScalar ∧ result = absolute operand := by
  rw [abs, Outcome.check_bind_eq_ok fun _ => scalar_eq_ok, Outcome.pure_eq_ok]

theorem compare_eq_ok {op : ComparisonOp} :
    compare op left right = .ok result ↔
      Comparable op left right ∧ result = comparison op left right := by
  rw [compare, Comparable]
  by_cases hset : (op = .equal ∨ op = .notEqual) ∧ left.kind = .intSet
  · have hscalar : ¬ left.IsScalar := by simp [IsScalar, hset.2, Kind.isScalar]
    rw [if_pos hset, Outcome.guard_eq_ok]
    simp [hset, hscalar]
  · rw [if_neg hset, Outcome.check_bind_eq_ok fun _ => scalar_eq_ok,
      Outcome.check_bind_eq_ok fun _ => scalar_eq_ok, Outcome.pure_eq_ok]
    tauto

theorem reduceNonempty_eq_ok {function : Reduction} :
    reduceNonempty function operands = .ok result ↔
      ((∀ operand ∈ operands, operand.IsScalar) ∧ operands ≠ []) ∧
        result = reduction function operands := by
  rw [reduceNonempty, Outcome.check_bind_eq_ok fun _ => scalars_eq_ok, ← ite_not,
    Outcome.guard_eq_ok, List.isEmpty_iff, and_assoc]

/-- The sum of no operands is no sum. -/
theorem sum_eq_ok :
    sum operands = .ok result ↔
      (∀ operand ∈ operands, operand.IsScalar) ∧
        result = if operands = [] then int 0 else reduction .sum operands := by
  rw [sum, Outcome.check_bind_eq_ok fun _ => scalars_eq_ok]
  cases operands <;> simp [eq_comm]

end Scalars

section Conditions

variable {argument : String} {operand left right result : Expr} {operands results : List Expr}

theorem condition_eq_ok :
    condition argument operand = .ok result ↔ operand.kind = .bool ∧ result = operand := by
  rw [condition, Outcome.guard_eq_ok]

theorem conditions_eq_ok :
    conditions argument operands = .ok results ↔
      (∀ operand ∈ operands, operand.kind = .bool) ∧ results = operands :=
  Outcome.mapM_guard_eq_ok fun _ _ => condition_eq_ok

theorem someConditions_eq_ok :
    someConditions argument operands = .ok results ↔
      ((∀ operand ∈ operands, operand.kind = .bool) ∧ operands ≠ []) ∧ results = operands := by
  rw [someConditions, Outcome.check_bind_eq_ok fun _ => conditions_eq_ok, ← ite_not,
    Outcome.guard_eq_ok, List.isEmpty_iff, and_assoc]

theorem joinTwo_eq_ok {op : Connective} :
    joinTwo op left right = .ok result ↔
      (left.kind = .bool ∧ right.kind = .bool) ∧ result = connective op [left, right] := by
  rw [joinTwo, Outcome.check_bind_eq_ok fun _ => condition_eq_ok,
    Outcome.check_bind_eq_ok fun _ => condition_eq_ok, Outcome.pure_eq_ok, and_assoc, join]
  simp

theorem joinAll_eq_ok {op : Connective} :
    joinAll op operands = .ok result ↔
      ((∀ operand ∈ operands, operand.kind = .bool) ∧ operands ≠ []) ∧
        result = join op operands := by
  rw [joinAll, Outcome.check_bind_eq_ok fun _ => someConditions_eq_ok, Outcome.pure_eq_ok]

/-- The operands in the order in which they are joined two by two. -/
theorem chain_eq_ok {op : Connective} :
    chain op operands = .ok result ↔
      ∃ first rest, operands = first :: rest ∧ (∀ operand ∈ operands, operand.kind = .bool) ∧
        result = rest.foldl (fun left right => connective op [left, right]) first := by
  rw [chain, Outcome.check_bind_eq_ok fun _ => someConditions_eq_ok]
  cases operands with
  | nil => simp
  | cons first rest => simp [Outcome.pure_eq_ok, join]

theorem not_eq_ok :
    not operand = .ok result ↔ operand.kind = .bool ∧ result = negation operand := by
  rw [not, Outcome.check_bind_eq_ok fun _ => condition_eq_ok, Outcome.pure_eq_ok]

theorem ifThenElse_eq_ok {test : Expr} :
    ifThenElse test left right = .ok result ↔
      (test.kind = .bool ∧ (left.kind = .intSet ↔ right.kind = .intSet)) ∧
        result = conditional test left right := by
  rw [ifThenElse, Outcome.check_bind_eq_ok fun _ => condition_eq_ok, and_assoc]
  cases left.kind <;> cases right.kind <;> simp [Outcome.pure_eq_ok]

end Conditions

section Sets

variable {argument : String} {operand left right element result : Expr}

theorem set_eq_ok :
    set argument operand = .ok result ↔ operand.kind = .intSet ∧ result = operand := by
  rw [set, Outcome.guard_eq_ok]

theorem measure_eq_ok {function : SetMeasure} :
    measure function operand = .ok result ↔
      operand.kind = .intSet ∧ result = setMeasure function operand := by
  rw [measure, Outcome.check_bind_eq_ok fun _ => set_eq_ok, Outcome.pure_eq_ok]

theorem contains_eq_ok :
    contains operand element = .ok result ↔
      (operand.kind = .intSet ∧ (element.kind = .int ∨ element.kind = .bool)) ∧
        result = membership element operand := by
  rw [contains, Outcome.check_bind_eq_ok fun _ => set_eq_ok, and_assoc]
  simp only [pure, Except.pure, Outcome.guard_eq_ok]

theorem intersectionCardinality_eq_ok :
    intersectionCardinality left right = .ok result ↔
      (left.kind = .intSet ∧ right.kind = .intSet) ∧
        result = setMeasure .cardinality (intersection left right) := by
  rw [intersectionCardinality, Outcome.check_bind_eq_ok fun _ => set_eq_ok,
    Outcome.check_bind_eq_ok fun _ => set_eq_ok, Outcome.pure_eq_ok, and_assoc]

end Sets

section Operators

variable {operand left right result : Expr}

theorem expect_eq_ok {α : Type} {outcome : Except ModelError α} {value : α} :
    Misuse.expect outcome = .ok value ↔ outcome = .ok value := by
  cases outcome <;> simp [Misuse.expect]

theorem joined_eq_ok {op : Connective} :
    joined op left right = .ok result ↔
      (left.kind = .bool ∧ right.kind = .bool) ∧ result = connective op [left, right] := by
  rw [joined, Outcome.check_bind_eq_ok fun _ => expect_eq_ok.trans condition_eq_ok,
    Outcome.check_bind_eq_ok fun _ => expect_eq_ok.trans condition_eq_ok, Outcome.pure_eq_ok,
    and_assoc, join]
  simp

theorem negatedCondition_eq_ok :
    negatedCondition operand = .ok result ↔ operand.kind = .bool ∧ result = negation operand := by
  rw [negatedCondition, Outcome.check_bind_eq_ok fun _ => expect_eq_ok.trans condition_eq_ok,
    Outcome.pure_eq_ok]

end Operators

end MiniZincModels.Expr
