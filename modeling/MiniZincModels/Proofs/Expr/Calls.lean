import MiniZincModels.Proofs.Expr.Kinds

/-!
# Calls of the checked functions

A checked function asks something of each of its arguments, and examines them one after the
other.  The first that is not as it should be is reported under its name and with its kind; if
all are, the function builds its node, unless it needs an operand and was given none.
-/

namespace MiniZincModels.Expr

/-- What a function asks of an argument. -/
inductive Place
  /-- A number or condition that has a spelling. -/
  | number
  | whole
  | condition
  | set

namespace Place

def Accepts : Place → Expr → Prop
  | number, operand => operand.IsScalar
  | whole, operand => operand.kind.IsWhole
  | condition, operand => operand.kind = .bool
  | set, operand => operand.kind = .intSet

instance (place : Place) (operand : Expr) : Decidable (place.Accepts operand) :=
  match place with
  | number => inferInstanceAs (Decidable (_ ∧ _))
  | whole => inferInstanceAs (Decidable (_ ∨ _))
  | condition => inferInstanceAs (Decidable (_ = _))
  | set => inferInstanceAs (Decidable (_ = _))

end Place

/-- An argument of a call, with the name that is reported if it does not fit its place. -/
structure Argument where
  name : String
  place : Place
  operand : Expr

namespace Argument

def Fits (argument : Argument) : Prop :=
  argument.place.Accepts argument.operand

instance (argument : Argument) : Decidable argument.Fits :=
  inferInstanceAs (Decidable (argument.place.Accepts argument.operand))

/-- The error which reports that the argument does not fit. -/
def refusal (argument : Argument) : ModelError :=
  match argument.place with
  | .condition => .conditionKind argument.name argument.operand.kind
  | _ => .operandKind argument.name argument.operand.kind

/-- Accepts an operand that fits its place. -/
def check (argument : Argument) : Except ModelError Expr :=
  if argument.Fits then .ok argument.operand else .error argument.refusal

end Argument

/-- The arguments are examined from the first to the last. -/
def examine (arguments : List Argument) (outcome : Except ModelError Expr) :
    Except ModelError Expr :=
  match arguments with
  | [] => outcome
  | argument :: rest => if argument.Fits then examine rest outcome else .error argument.refusal

/-- The calls of checked functions. -/
inductive Call
  | arithmetic (op : ArithmeticOp) (left right : Expr)
  | negate (operand : Expr)
  | pow (base exponent : Expr)
  | abs (operand : Expr)
  | compare (op : ComparisonOp) (left right : Expr)
  | reduce (function : Reduction) (operands : List Expr)
  | joinTwo (op : Connective) (left right : Expr)
  | joinAll (op : Connective) (operands : List Expr)
  | chain (op : Connective) (operands : List Expr)
  | not (operand : Expr)
  | toCondition (operand : Expr)
  | ifThenElse (test thenValue elseValue : Expr)
  | measure (function : SetMeasure) (operand : Expr)
  | contains (container element : Expr)
  | intersectionCardinality (left right : Expr)
  | constant (declared : Constant)
  | elementAt (declared : Constant) (indices : List Nat)
  | indexBy (declared : Constant) (indices : List Expr)

namespace Call

def run : Call → Except ModelError Expr
  | arithmetic .add left right => left.add right
  | arithmetic .sub left right => left.sub right
  | arithmetic .mul left right => left.mul right
  | arithmetic .divide left right => left.divide right
  | arithmetic .intDiv left right => left.intDiv right
  | arithmetic .modulo left right => left.modulo right
  | negate operand => operand.negate
  | pow base exponent => base.pow exponent
  | abs operand => operand.abs
  | compare op left right => Expr.compare op left right
  | reduce .sum operands => sum operands
  | reduce .product operands => product operands
  | reduce .minimum operands => minimum operands
  | reduce .maximum operands => maximum operands
  | joinTwo op left right => Expr.joinTwo op left right
  | joinAll op operands => Expr.joinAll op operands
  | chain op operands => Expr.chain op operands
  | not operand => operand.not
  | toCondition operand => operand.toCondition
  | ifThenElse test thenValue elseValue => Expr.ifThenElse test thenValue elseValue
  | measure .cardinality operand => operand.cardinality
  | measure .minimum operand => operand.setMinimum
  | measure .maximum operand => operand.setMaximum
  | contains container element => container.contains element
  | intersectionCardinality left right => left.intersectionCardinality right
  | constant declared => declared.toExpr
  | elementAt declared indices => declared.elementAt indices
  | indexBy declared indices => declared.indexBy indices

/-- What the division with remainder and the other operators ask of their operands. -/
def operandPlace : ArithmeticOp → Place
  | .intDiv | .modulo => .whole
  | _ => .number

/-- The arguments in the order in which they are examined.  Next to a set, only a set can be
compared for equality, or be the other one of two values to choose from.  The indices of a
scalar are not looked at. -/
def arguments : Call → List Argument
  | arithmetic op left right => [⟨"lhs", operandPlace op, left⟩, ⟨"rhs", operandPlace op, right⟩]
  | negate operand => [⟨"operand", .number, operand⟩]
  | pow base exponent => [⟨"base", .number, base⟩, ⟨"exponent", .number, exponent⟩]
  | abs operand => [⟨"operand", .number, operand⟩]
  | compare op left right =>
    if (op = .equal ∨ op = .notEqual) ∧ left.kind = .intSet then [⟨"rhs", .set, right⟩]
    else [⟨"lhs", .number, left⟩, ⟨"rhs", .number, right⟩]
  | reduce _ operands => operands.map fun operand => ⟨"operands", .number, operand⟩
  | joinTwo _ left right => [⟨"lhs", .condition, left⟩, ⟨"rhs", .condition, right⟩]
  | joinAll _ operands => operands.map fun operand => ⟨"operands", .condition, operand⟩
  | chain _ operands => operands.map fun operand => ⟨"operands", .condition, operand⟩
  | not operand => [⟨"operand", .condition, operand⟩]
  | toCondition operand => [⟨"condition", .condition, operand⟩]
  | ifThenElse test thenValue elseValue =>
    ⟨"condition", .condition, test⟩ ::
      if thenValue.kind = .intSet then [⟨"else_value", .set, elseValue⟩]
      else if elseValue.kind = .intSet then [⟨"then_value", .set, thenValue⟩]
      else []
  | measure _ operand => [⟨"set", .set, operand⟩]
  | contains container element => [⟨"set", .set, container⟩, ⟨"element", .whole, element⟩]
  | intersectionCardinality left right => [⟨"lhs", .set, left⟩, ⟨"rhs", .set, right⟩]
  | constant _ => []
  | elementAt _ _ => []
  | indexBy declared indices =>
    if declared.dimensions = [] then []
    else indices.map fun index => ⟨"indices", .whole, index⟩

/-- What becomes of arguments that fit.  No operands have a sum, and nothing else; an array has
one index for each dimension, and plain indices stay below its extents. -/
def outcome : Call → Except ModelError Expr
  | arithmetic op left right => .ok (.arithmetic op left right)
  | negate operand => .ok (.arithmetic .sub (.int 0) operand)
  | pow base exponent => .ok (.power base exponent)
  | abs operand => .ok (.absolute operand)
  | compare op left right => .ok (.comparison op left right)
  | reduce .sum [] => .ok (.int 0)
  | reduce _ [] => .error (.noOperands "operands")
  | reduce function operands => .ok (.reduction function operands)
  | joinTwo op left right => .ok (.connective op [left, right])
  | joinAll _ [] => .error (.noOperands "operands")
  | joinAll _ [operand] => .ok operand
  | joinAll op operands => .ok (.connective op operands)
  | chain _ [] => .error (.noOperands "operands")
  | chain op (first :: rest) =>
    .ok (rest.foldl (fun left right => .connective op [left, right]) first)
  | not operand => .ok (.negation operand)
  | toCondition operand => .ok operand
  | ifThenElse test thenValue elseValue => .ok (.conditional test thenValue elseValue)
  | measure function operand => .ok (.setMeasure function operand)
  | contains container element => .ok (.membership element container)
  | intersectionCardinality left right => .ok (.setMeasure .cardinality (.intersection left right))
  | constant declared =>
    if declared.dimensions = [] then .ok (.identifier declared.name declared.kind)
    else .error (declared.indexError .unindexedArray)
  | elementAt declared indices =>
    if declared.dimensions = [] then .error (declared.indexError .indexedScalar)
    else if indices.length ≠ declared.dimensions.length then
      .error (declared.indexError (.arity declared.dimensions.length indices.length))
    else
      match (indices.zip declared.dimensions).find? fun pair => pair.2 ≤ pair.1 with
      | some (index, extent) => .error (declared.indexError (.outOfBounds index extent))
      | none => .ok (declared.access (indices.map fun index => .int (Int64.ofNat (index + 1))))
  | indexBy declared indices =>
    if declared.dimensions = [] then .error (declared.indexError .indexedScalar)
    else if indices.length ≠ declared.dimensions.length then
      .error (declared.indexError (.arity declared.dimensions.length indices.length))
    else .ok (declared.access (indices.map fun index => .arithmetic .add index (.int 1)))

end Call

/-! ## Examining arguments -/

section Examine

variable {outcome : Except ModelError Expr} {argument : Argument}

theorem examine_of_fits {arguments : List Argument}
    (hfits : ∀ argument ∈ arguments, argument.Fits) : examine arguments outcome = outcome := by
  induction arguments with
  | nil => rfl
  | cons first rest ih =>
    rw [List.forall_mem_cons] at hfits
    rw [examine, if_pos hfits.1, ih hfits.2]

theorem examine_of_misfit {before after : List Argument}
    (hbefore : ∀ earlier ∈ before, earlier.Fits)
    (hmisfit : ¬ argument.Fits) :
    examine (before ++ argument :: after) outcome = .error argument.refusal := by
  induction before with
  | nil => rw [List.nil_append, examine, if_neg hmisfit]
  | cons first rest ih =>
    rw [List.forall_mem_cons] at hbefore
    rw [List.cons_append, examine, if_pos hbefore.1, ih hbefore.2]

/-- What is done at the end matters only if all arguments fit. -/
theorem examine_congr {other : Except ModelError Expr} {arguments : List Argument}
    (h : (∀ argument ∈ arguments, argument.Fits) → outcome = other) :
    examine arguments outcome = examine arguments other := by
  induction arguments with
  | nil => exact h (List.forall_mem_nil _)
  | cons argument rest ih =>
    rw [examine, examine]
    split
    · rename_i hargument
      exact ih fun hrest => h (List.forall_mem_cons.mpr ⟨hargument, hrest⟩)
    · rfl

theorem check_bind (next : Expr → Except ModelError Expr) :
    (argument.check >>= next) = examine [argument] (next argument.operand) := by
  rw [Argument.check, examine]
  split <;> rfl

/-- A list whose elements are all checked under one name is examined element by element. -/
theorem mapM_bind {check : Expr → Except ModelError Expr} {argument : Expr → Argument}
    {transform : Expr → Expr}
    (hcheck : ∀ expr, check expr =
      if (argument expr).Fits then .ok (transform expr) else .error (argument expr).refusal)
    (operands : List Expr) (next : List Expr → Except ModelError Expr) :
    (operands.mapM check >>= next) =
      examine (operands.map argument) (next (operands.map transform)) := by
  induction operands generalizing next with
  | nil => rfl
  | cons operand rest ih =>
    rw [List.mapM_cons, hcheck, List.map_cons, examine]
    split
    · have hrest := ih fun others => next (transform operand :: others)
      rw [List.map_cons, ← hrest]
      exact bind_assoc (rest.mapM check) (fun others => pure (transform operand :: others)) next
    · rfl

end Examine

/-! ## The checks of the functions -/

section Checks

variable (name : String) (operand : Expr) (operands : List Expr)

theorem scalar_eq_check : scalar name operand = Argument.check ⟨name, .number, operand⟩ := by
  rw [scalar]
  by_cases hscalar : operand.kind.isScalar = true ∧ operand.isFiniteLiteral = true
  · rw [if_pos (Bool.and_eq_true_iff.mpr hscalar)]
    exact (if_pos hscalar).symm
  · rw [if_neg (mt Bool.and_eq_true_iff.mp hscalar)]
    exact (if_neg hscalar).symm

/-- A set is refused because it is no number, and a float because it is not whole, but both in
the same way. -/
theorem integral_eq_check : integral name operand = Argument.check ⟨name, .whole, operand⟩ := by
  by_cases hwhole : operand.kind.IsWhole
  · obtain ⟨hset, hfloat⟩ := Kind.isWhole_iff.mp hwhole
    have hscalar : operand.IsScalar :=
      ⟨Kind.isScalar_iff.mpr hset, isFiniteLiteral_of_kind hfloat⟩
    rw [integral_eq_ok.mpr ⟨⟨hscalar, hfloat⟩, rfl⟩]
    exact (if_pos hwhole).symm
  · have hrefused : Argument.check ⟨name, .whole, operand⟩ =
        .error (.operandKind name operand.kind) := if_neg hwhole
    rw [hrefused, integral, scalar_eq_check, check_bind, examine]
    split
    · rename_i hscalar
      have hfloat : operand.kind = .float := by
        by_contra hfloat
        exact hwhole (Kind.isWhole_iff.mpr ⟨Kind.isScalar_iff.mp hscalar.1, hfloat⟩)
      rw [hfloat]
      rfl
    · rfl

theorem condition_eq_check :
    condition name operand = Argument.check ⟨name, .condition, operand⟩ :=
  rfl

theorem set_eq_check : set name operand = Argument.check ⟨name, .set, operand⟩ :=
  rfl

theorem scalars_bind (next : List Expr → Except ModelError Expr) :
    (scalars name operands >>= next) =
      examine (operands.map fun operand => ⟨name, .number, operand⟩) (next operands) := by
  have hmap := mapM_bind (scalar_eq_check name) operands next
  rwa [List.map_id'] at hmap

theorem conditions_bind (next : List Expr → Except ModelError Expr) :
    (conditions name operands >>= next) =
      examine (operands.map fun operand => ⟨name, .condition, operand⟩) (next operands) := by
  have hmap := mapM_bind (condition_eq_check name) operands next
  rwa [List.map_id'] at hmap

theorem arithmeticOperand_eq_check (op : ArithmeticOp) :
    arithmeticOperand op name operand = Argument.check ⟨name, Call.operandPlace op, operand⟩ := by
  rw [arithmeticOperand]
  cases op with
  | add | sub | mul | divide =>
    rw [if_neg (by decide)]
    exact scalar_eq_check name operand
  | intDiv | modulo =>
    rw [if_pos (by decide)]
    exact integral_eq_check name operand

end Checks

/-! ## The calls -/

section Calls

variable (left right : Expr) (operands : List Expr)

theorem combine_eq_examine (op : ArithmeticOp) :
    combine op left right = examine (Call.arithmetic op left right).arguments
      (Call.arithmetic op left right).outcome := by
  rw [combine, arithmeticOperand_eq_check, arithmeticOperand_eq_check, check_bind, check_bind]
  rfl

theorem negate_eq_examine (operand : Expr) :
    negate operand = examine (Call.negate operand).arguments (Call.negate operand).outcome := by
  rw [negate, scalar_eq_check, check_bind]
  apply examine_congr
  intro hfits
  have hscalar : operand.IsScalar :=
    hfits ⟨"operand", .number, operand⟩ (List.mem_singleton.mpr rfl)
  have hzero : FitsArithmetic .sub (int 0) := ⟨⟨rfl, rfl⟩, by decide⟩
  have hoperand : FitsArithmetic .sub operand := ⟨hscalar, by simp⟩
  exact combine_eq_ok.mpr ⟨⟨hzero, hoperand⟩, rfl⟩

theorem compare_eq_examine (op : ComparisonOp) :
    compare op left right = examine (Call.compare op left right).arguments
      (Call.compare op left right).outcome := by
  rw [compare, Call.arguments]
  split
  · rfl
  · rw [scalar_eq_check, scalar_eq_check, check_bind, check_bind]
    rfl

theorem sum_eq_examine :
    sum operands = examine (Call.reduce .sum operands).arguments
      (Call.reduce .sum operands).outcome := by
  rw [sum, scalars_bind]
  cases operands <;> rfl

theorem reduceNonempty_eq_examine {function : Reduction} (hfunction : function ≠ .sum) :
    reduceNonempty function operands = examine (Call.reduce function operands).arguments
      (Call.reduce function operands).outcome := by
  rw [reduceNonempty, scalars_bind]
  cases function with
  | sum => exact absurd rfl hfunction
  | product | minimum | maximum => cases operands <;> rfl

theorem joinTwo_eq_examine (op : Connective) :
    joinTwo op left right = examine (Call.joinTwo op left right).arguments
      (Call.joinTwo op left right).outcome := by
  rw [joinTwo, condition_eq_check, condition_eq_check, check_bind, check_bind]
  rfl

theorem joinAll_eq_examine (op : Connective) :
    joinAll op operands = examine (Call.joinAll op operands).arguments
      (Call.joinAll op operands).outcome := by
  rw [joinAll, someConditions, bind_assoc, conditions_bind]
  cases operands with
  | nil => rfl
  | cons first rest => cases rest <;> rfl

theorem chain_eq_examine (op : Connective) :
    chain op operands = examine (Call.chain op operands).arguments
      (Call.chain op operands).outcome := by
  rw [chain, someConditions, bind_assoc, conditions_bind]
  cases operands <;> rfl

theorem ifThenElse_eq_examine (test : Expr) :
    ifThenElse test left right = examine (Call.ifThenElse test left right).arguments
      (Call.ifThenElse test left right).outcome := by
  rw [ifThenElse, condition_eq_check, check_bind]
  apply congrArg (examine [⟨"condition", .condition, test⟩])
  cases hleft : left.kind <;> cases hright : right.kind
  all_goals simp [examine, Argument.Fits, Place.Accepts, Argument.refusal, Call.outcome, hleft,
    hright, pure, Except.pure]

theorem measure_eq_examine (function : SetMeasure) (operand : Expr) :
    measure function operand = examine (Call.measure function operand).arguments
      (Call.measure function operand).outcome := by
  rw [measure, set_eq_check, check_bind]
  rfl

theorem contains_eq_examine :
    contains left right = examine (Call.contains left right).arguments
      (Call.contains left right).outcome := by
  rw [contains, set_eq_check, check_bind]
  rfl

theorem constant_eq_examine (declared : Constant) :
    declared.toExpr = examine (Call.constant declared).arguments
      (Call.constant declared).outcome := by
  rw [Constant.toExpr, Call.arguments, examine, Call.outcome]
  simp only [List.isEmpty_iff]

theorem elementAt_eq_examine (declared : Constant) (indices : List Nat) :
    declared.elementAt indices = examine (Call.elementAt declared indices).arguments
      (Call.elementAt declared indices).outcome := by
  rw [Constant.elementAt, Constant.checkIndexable, Constant.flatPosition, Constant.checkArity,
    Call.arguments, examine, Call.outcome]
  by_cases hscalar : declared.dimensions = []
  · simp [hscalar, bind, Except.bind]
  by_cases hlength : indices.length = declared.dimensions.length
  · have hrank := Constant.rank_eq hlength 0
    cases hfound : (indices.zip declared.dimensions).find? fun pair => pair.2 ≤ pair.1 with
    | some pair =>
      rw [hfound] at hrank
      simp [hscalar, hlength, hrank, bind, Except.bind]
    | none =>
      rw [hfound] at hrank
      obtain ⟨reached, hreached⟩ := hrank
      simp [hscalar, hlength, hreached, bind, Except.bind, pure, Except.pure]
  · simp [hscalar, hlength, bind, Except.bind]

/-- A whole index is counted from one. -/
theorem symbolicIndex_eq (index : Expr) :
    Constant.symbolicIndex index =
      if (Argument.mk "indices" .whole index).Fits then .ok (.arithmetic .add index (.int 1))
      else .error (Argument.mk "indices" .whole index).refusal := by
  by_cases hwhole : index.kind = .int ∨ index.kind = .bool
  · rw [Constant.symbolicIndex_eq_ok.mpr ⟨hwhole, rfl⟩]
    exact (if_pos hwhole).symm
  · rw [Constant.symbolicIndex, if_neg hwhole]
    exact (if_neg hwhole).symm

theorem indexBy_eq_examine (declared : Constant) :
    declared.indexBy operands = examine (Call.indexBy declared operands).arguments
      (Call.indexBy declared operands).outcome := by
  rw [Constant.indexBy, Constant.checkIndexable, Call.arguments, Call.outcome]
  by_cases hscalar : declared.dimensions = []
  · simp [hscalar, bind, Except.bind, examine]
  · rw [if_neg hscalar, if_neg hscalar, if_neg (mt List.isEmpty_iff.mp hscalar)]
    change (operands.mapM Constant.symbolicIndex >>= _) = _
    rw [mapM_bind symbolicIndex_eq, Constant.checkArity, List.length_map]
    apply examine_congr
    intro _
    by_cases hlength : operands.length = declared.dimensions.length
    · simp [hlength, bind, Except.bind, pure, Except.pure]
    · simp [hlength, bind, Except.bind]

theorem run_eq_examine (call : Call) : call.run = examine call.arguments call.outcome := by
  cases call with
  | arithmetic op left right => cases op <;> exact combine_eq_examine left right _
  | negate operand => exact negate_eq_examine operand
  | pow base exponent =>
    rw [Call.run, pow, scalar_eq_check, scalar_eq_check, check_bind, check_bind]
    rfl
  | abs operand =>
    rw [Call.run, abs, scalar_eq_check, check_bind]
    rfl
  | compare op left right => exact compare_eq_examine left right op
  | reduce function operands =>
    cases function with
    | sum => exact sum_eq_examine operands
    | product | minimum | maximum => exact reduceNonempty_eq_examine operands (by decide)
  | joinTwo op left right => exact joinTwo_eq_examine left right op
  | joinAll op operands => exact joinAll_eq_examine operands op
  | chain op operands => exact chain_eq_examine operands op
  | not operand =>
    rw [Call.run, Expr.not, condition_eq_check, check_bind]
    rfl
  | toCondition operand => rfl
  | ifThenElse test thenValue elseValue => exact ifThenElse_eq_examine thenValue elseValue test
  | measure function operand => cases function <;> exact measure_eq_examine _ operand
  | contains container element => exact contains_eq_examine container element
  | intersectionCardinality left right =>
    rw [Call.run, intersectionCardinality, set_eq_check, set_eq_check, check_bind, check_bind]
    rfl
  | constant declared => exact constant_eq_examine declared
  | elementAt declared indices => exact elementAt_eq_examine declared indices
  | indexBy declared indices => exact indexBy_eq_examine indices declared

end Calls

/-- Whatever is built has one kind by the rules, which at every node ask for operands of fitting
kinds, and that is the computed one.  Conversely a checked function builds its node if every
argument is as it asks, unless operands, indices or an array are missing, and otherwise reports
the first argument that is not. -/
theorem kinds_of_built_and_outcomes_of_calls (vocabulary : Vocabulary) :
    (∀ expr, Built vocabulary expr → ∀ kind, HasKind vocabulary expr kind ↔ kind = expr.kind) ∧
    (∀ call : Call, (∀ argument ∈ call.arguments, argument.Fits) → call.run = call.outcome) ∧
    ∀ (call : Call) (before : List Argument) (argument : Argument) (after : List Argument),
      call.arguments = before ++ argument :: after → (∀ earlier ∈ before, earlier.Fits) →
      ¬ argument.Fits → call.run = .error argument.refusal := by
  refine ⟨fun expr hbuilt kind => hbuilt.hasKind_iff, ?_, ?_⟩
  · intro call hfits
    rw [run_eq_examine, examine_of_fits hfits]
  · intro call before argument after harguments hbefore hmisfit
    rw [run_eq_examine, harguments, examine_of_misfit hbefore hmisfit]

/-- A condition counts as a number in a sum, and a quotient makes a choice a float; a set is not
equal to a condition. -/
theorem float_of_choice_with_quotient :
    let level : Variable := ⟨"x", .int (.interval 0 9)⟩
    let vocabulary : Vocabulary := ⟨(· = level), fun _ => False, fun _ => False, fun _ => False⟩
    let test : Expr := .comparison .less level.toExpr (.int 2)
    let total : Expr := .reduction .sum [level.toExpr, test]
    let half : Expr := .arithmetic .divide level.toExpr (.int 2)
    HasKind vocabulary (.conditional test total half) .float ∧
      (Call.ifThenElse test total half).run = .ok (.conditional test total half) ∧
      (Call.compare .equal (.intSet .empty) test).run = .error (.operandKind "rhs" .bool) := by
  intro level vocabulary test total half
  obtain ⟨hkinds, haccepted, hrefused⟩ := kinds_of_built_and_outcomes_of_calls vocabulary
  have hlevel : Built vocabulary level.toExpr := .ofVariable rfl
  have hless : compare .less level.toExpr (.int 2) = .ok test := rfl
  have htest : Built vocabulary test := .compare hlevel (.int 2) hless
  have hsum : sum [level.toExpr, test] = .ok total := rfl
  have htotal : Built vocabulary total :=
    .listed (by simp [listFunctions]) (by simpa using ⟨hlevel, htest⟩) hsum
  have hdivide : divide level.toExpr (.int 2) = .ok half := rfl
  have hhalf : Built vocabulary half :=
    .binary (by simp [binaryFunctions]) hlevel (.int 2) hdivide
  have hchoice : Built vocabulary (.conditional test total half) :=
    .ifThenElse htest htotal hhalf rfl
  refine ⟨(hkinds _ hchoice .float).mpr rfl, haccepted (.ifThenElse test total half) ?_, ?_⟩
  · exact List.forall_mem_singleton.mpr rfl
  · exact hrefused _ [] ⟨"rhs", .set, test⟩ [] rfl (List.forall_mem_nil _) (by decide)

end MiniZincModels.Expr
