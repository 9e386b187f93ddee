import MiniZincModels.Expr.Operators
import MiniZincModels.Proofs.Constraint.Library
import MiniZincModels.Proofs.Declaration.Storage
import MiniZincModels.Proofs.Expr.Kinds
import MiniZincModels.Proofs.Model.Atomicity
import MiniZincModels.Proofs.Model.Indexed
import MiniZincModels.Proofs.SolveItem.Search

/-!
# Operations that succeed

A program that is known to declare new names and to use operands that fit gets through
every operation.  Here stands for each operation what it gives back, so that the model such
a program ends with can be written down step by step.
-/

namespace MiniZincModels

/-! ## Outcomes -/

namespace Outcome

variable {ε α β σ : Type}

theorem mapM_eq_ok_map {check : α → Except ε β} {transform : α → β} {values : List α}
    (h : ∀ value ∈ values, check value = .ok (transform value)) :
    values.mapM check = .ok (values.map transform) := by
  rw [mapM_eq_ok, List.forall₂_map_right_iff, List.forall₂_same]
  exact h

theorem foldlM_eq_ok_foldl {step : σ → α → Except ε σ} {next : σ → α → σ} {values : List α}
    (h : ∀ value ∈ values, ∀ state, step state value = .ok (next state value)) (state : σ) :
    values.foldlM step state = .ok (values.foldl next state) := by
  induction values generalizing state with
  | nil => rfl
  | cons value values ih =>
    rw [List.forall_mem_cons] at h
    rw [List.foldlM_cons, h.1]
    exact ih h.2 (next state value)

end Outcome

namespace Failure

variable {α β : Type}

/-- A program goes on with the value of a checked operation that succeeds. -/
@[simp]
theorem checked_ok_bind (value : α) (next : α → Except Failure β) :
    ((liftM (.ok value : Except ModelError α) : Except Failure α) >>= next) = next value :=
  rfl

@[simp]
theorem unchecked_ok_bind (value : α) (next : α → Except Failure β) :
    ((liftM (.ok value : Except Misuse α) : Except Failure α) >>= next) = next value :=
  rfl

@[simp]
theorem ok_bind (value : α) (next : α → Except Failure β) :
    ((.ok value : Except Failure α) >>= next) = next value :=
  rfl

end Failure

/-! ## Expressions -/

namespace Expr

variable {left right : Expr}

/-- An integer or a condition is a scalar with a spelling. -/
theorem isScalar_of_isWhole {operand : Expr} (hkind : operand.kind.IsWhole) : operand.IsScalar := by
  obtain ⟨hset, hfloat⟩ := Kind.isWhole_iff.mp hkind
  exact ⟨Kind.isScalar_iff.mpr hset, isFiniteLiteral_of_kind hfloat⟩

/-- Integers and conditions can be calculated with in every way. -/
theorem combine_of_isWhole (op : ArithmeticOp) (hleft : left.kind.IsWhole)
    (hright : right.kind.IsWhole) : combine op left right = .ok (arithmetic op left right) := by
  have hfits {operand : Expr} (hkind : operand.kind.IsWhole) : FitsArithmetic op operand :=
    ⟨isScalar_of_isWhole hkind, fun _ => (Kind.isWhole_iff.mp hkind).2⟩
  exact combine_eq_ok.mpr ⟨⟨hfits hleft, hfits hright⟩, rfl⟩

theorem times_of_isWhole (hleft : left.kind.IsWhole) (hright : right.kind.IsWhole) :
    left.times right = .ok (arithmetic .mul left right) :=
  congrArg Misuse.expect (combine_of_isWhole .mul hleft hright)

/-- Integers and conditions are summed up. -/
theorem sum_map_of_isWhole {α : Type} {items : List α} (hsome : items ≠ []) (operand : α → Expr)
    (hkinds : ∀ item ∈ items, (operand item).kind.IsWhole) :
    sum (items.map operand) = .ok (reduction .sum (items.map operand)) := by
  refine sum_eq_ok.mpr ⟨List.forall_mem_map.mpr fun item hmem => ?_, ?_⟩
  · exact isScalar_of_isWhole (hkinds item hmem)
  · rw [if_neg (by simpa using hsome)]

theorem isScalar_sum (operands : List Expr) : (reduction .sum operands).IsScalar := by
  refine ⟨Kind.isScalar_iff.mpr ?_, rfl⟩
  rw [kind_reduction, Kind.ofNumbers]
  split <;> decide

/-- A sum is compared with an integer or a condition. -/
theorem compared_sum (op : ComparisonOp) (operands : List Expr) (right : Expr)
    (hright : right.kind.IsWhole) :
    (reduction .sum operands).compared op right =
      .ok (comparison op (reduction .sum operands) right) :=
  congrArg Misuse.expect
    (compare_eq_ok.mpr ⟨.inl ⟨isScalar_sum operands, isScalar_of_isWhole hright⟩, rfl⟩)

end Expr

/-! ## Declarations -/

theorem Definition.resolve_ofInterval {lower upper : Int64} (h : lower.toInt ≤ upper.toInt) :
    (ofInterval lower upper).resolve = .ok (.int (.interval lower upper)) := by
  have hbounds : ¬ upper.toInt < lower.toInt := by omega
  have hresolved : (ofInterval lower upper).resolveInt = .ok (.interval lower upper) :=
    if_neg hbounds
  rw [resolve]
  exact congrArg (Except.map Domain.int) hresolved

variable {α : Type} {items : List α} {key : α → IndexKey}

/-- A list of integers is stored as it is. -/
theorem Constant.define_integers (name : String) {values : List Int64} (hsome : values ≠ []) :
    define name (.array (values.map fun value => .scalar (.int value))) =
      .ok ⟨name, .int, [values.length], values.map .int⟩ := by
  let given := ConstantValue.array (values.map fun value => .scalar (.int value))
  have hshape : given.HasShape [values.length] :=
    ConstantValue.hasShape_array.mpr
      ⟨[], by rw [List.length_map], List.forall_mem_map.mpr fun _ _ => .scalar _⟩
  have hleaves : given.leaves = values.map .int := by
    rw [ConstantValue.leaves, ConstantValue.allLeaves_eq_flatMap, List.flatMap_map,
      List.map_eq_flatMap]
    rfl
  have hpositive : 0 ∉ [values.length] := by simpa using (List.length_pos_of_ne_nil hsome).ne
  have hdimensions := hshape.dimensions_eq hpositive
  refine define_eq_ok.mpr ⟨⟨hdimensions ▸ hpositive, hdimensions ▸ hshape, ?_⟩, .int,
    values.map .int, ?_, hdimensions ▸ rfl⟩
  · rw [hleaves, List.forall_mem_map]
    exact fun _ _ => rfl
  · rw [hleaves, unify?, if_pos (by simp [Scalar.kind])]

/-- A collection that has one variable for each of some items, under the key of the item. -/
structure Collection.Covers (collection : Collection) (items : List α) (key : α → IndexKey)
    (declared : α → Variable) : Prop where
  vars : collection.vars = items.map declared
  item : ∀ item ∈ items, collection.item (key item) = .ok (declared item)

theorem Collection.Covers.exprs {collection : Collection} {declared : α → Variable}
    (h : collection.Covers items key declared) :
    collection.exprs = items.map fun item => (declared item).toExpr := by
  rw [Collection.exprs, h.vars, List.map_map]
  rfl

/-- The solver can branch on integers in any way that suits them. -/
theorem Collection.Covers.branching {collection : Collection} {declared : α → Variable}
    {valueChoice : ValueChoice} (h : collection.Covers items key declared) (hsome : items ≠ [])
    (hkinds : ∀ item ∈ items, (declared item).kind = .int) (hsuits : valueChoice.suits .int = true)
    (variableChoice : VariableChoice) :
    Branching.create .int collection.vars variableChoice valueChoice =
      .ok ⟨.int, collection.vars, variableChoice, valueChoice⟩ := by
  refine Branching.create_eq_ok.mpr ⟨⟨rfl, ?_, ?_, hsuits⟩, rfl⟩
  · rw [h.vars]
    simpa using hsome
  · rw [h.vars]
    exact List.forall_mem_map.mpr hkinds

namespace Model

variable {model : Model} {base : String} {type : IndexKey.IntegerType}

/-- The model with a constant. -/
def withConstant (model : Model) (constant : Constant) : Model :=
  { model with
    constants := model.constants ++ [constant]
    identifiers := model.identifiers ++ [constant.name]
    generated := none }

theorem addConstant_of_define (constant : Constant) {value : ConstantValue}
    (hname : Identifier.isValid constant.name = true) (hfree : constant.name ∉ model.identifiers)
    (hdefine : Constant.define constant.name value = .ok constant) :
    model.addConstant constant.name value = .ok (constant, model.withConstant constant) := by
  have hcheck : model.checkIdentifier constant.name = .ok () := by
    rw [checkIdentifier, if_pos hname, if_neg (by simpa using hfree)]
  rw [addConstant, hcheck, hdefine]
  rfl

/-- The model with the variables of a collection. -/
def withCollection (model : Model) (collection : Collection) : Model :=
  { model with
    vars := model.vars ++ collection.vars
    identifiers := model.identifiers ++ collection.vars.map Variable.name
    generated := none }

/-- Nothing is declared if the first key asks for a new variable that cannot be defined. -/
theorem addVariablesWith_of_define_error {first : IndexKey} {definition : Definition}
    {error : ModelError} (hbase : Identifier.isValid base = true)
    (hfree : first.variableName base ∉ model.identifiers)
    (hdefine : Variable.define (first.variableName base) definition = .error error)
    (rest : List (IndexKey × Definition)) :
    model.addVariablesWith base ((first, definition) :: rest) = .error error := by
  have hcheck : model.checkIdentifier (first.variableName base) = .ok () :=
    checkIdentifier_eq_ok.mpr ⟨IndexKey.isValid_variableName hbase first, hfree⟩
  have hindexed : model.defineIndexed base [] first definition = .error error := by
    rw [defineIndexed, hcheck]
    exact hdefine
  have hall : model.defineAll base ((first, definition) :: rest) .empty = .error error := by
    rw [defineAll]
    exact congrArg (· >>= _) hindexed
  rw [addVariablesWith, if_pos hbase, hall]
  rfl

/-- What is stored for the items is known, as soon as their names and domains are. -/
theorem vars_of_stores {definition : α → Definition} {name : α → String} {domain : α → Domain}
    {entries : List (IndexKey × Variable)}
    (hstored : List.Forall₂ (Stores base) (items.map fun item => (key item, definition item))
      entries)
    (hnames : ∀ item ∈ items, (key item).variableName base = name item)
    (hdomains : ∀ item ∈ items, (definition item).resolve = .ok (domain item)) :
    entries.map Prod.snd = items.map fun item => ⟨name item, domain item⟩ := by
  rw [List.forall₂_map_left_iff] at hstored
  induction hstored with
  | nil => rfl
  | @cons item entry _ _ hstores _ ih =>
    rw [List.forall_mem_cons] at hnames hdomains
    have hdomain : entry.2.domain = domain item :=
      Except.ok.inj (hstores.domain.symm.trans hdomains.1)
    have hname : entry.2.name = name item := hstores.name.trans hnames.1
    rw [List.map_cons, List.map_cons, ih hnames.2 hdomains.2, ← hname, ← hdomain]

/-- Different keys of one integer type are declared behind a valid base, if their definitions
have domains and the model has none of their names. -/
theorem exists_addVariablesWith_covers {definition : α → Definition} {name : α → String}
    {domain : α → Domain} (hbase : Identifier.isValid base = true)
    (hnodup : (items.map key).Nodup) (htypes : ∀ item ∈ items, (key item).HasType type)
    (hnames : ∀ item ∈ items, (key item).variableName base = name item)
    (hdomains : ∀ item ∈ items, (definition item).resolve = .ok (domain item))
    (hfree : ∀ item ∈ items, name item ∉ model.identifiers) :
    ∃ collection,
      model.addVariablesWith base (items.map fun item => (key item, definition item)) =
        .ok (collection, model.withCollection collection) ∧
      collection.Covers items key fun item => ⟨name item, domain item⟩ := by
  let definitions := items.map fun item => (key item, definition item)
  have hkeys : definitions.map Prod.fst = items.map key := List.map_map
  have hresolved : ∀ asked ∈ definitions, ∃ domain, asked.2.resolve = .ok domain :=
    List.forall_mem_map.mpr fun item hmem => ⟨_, hdomains item hmem⟩
  have hnodupNames : (indexedNames base definitions).Nodup :=
    nodup_names_of_hasType (hkeys ▸ hnodup) (hkeys ▸ List.forall_mem_map.mpr htypes)
  have hfresh : ∀ name ∈ indexedNames base definitions, name ∉ model.identifiers := by
    rw [indexedNames, List.forall_mem_map, List.forall_mem_map]
    exact fun item hmem => hnames item hmem ▸ hfree item hmem
  obtain ⟨⟨collection, after⟩, h⟩ :=
    exists_addVariablesWith_iff.mpr ⟨hbase, hresolved, hnodupNames, hfresh⟩
  have hafter : after = model.withCollection collection := by
    rw [addVariablesWith, if_pos hbase] at h
    obtain ⟨_, -, h⟩ := Outcome.bind_eq_ok.mp h
    cases h
    rfl
  obtain ⟨hsound, hstored, -, -⟩ := stores_of_addVariablesWith h
  refine ⟨collection, hafter ▸ h, vars_of_stores hstored hnames hdomains, fun item hmem => ?_⟩
  obtain ⟨found, hfound, hget⟩ := get?_of_stores hstored hsound (List.mem_map_of_mem hmem)
  rw [hdomains item hmem] at hfound
  cases hfound
  rw [Collection.item, hget, hnames item hmem]

/-- The same for items with a common definition. -/
theorem exists_addVariables_covers {definition : Definition} {name : α → String}
    {domain : Domain} (hbase : Identifier.isValid base = true)
    (hnodup : (items.map key).Nodup) (htypes : ∀ item ∈ items, (key item).HasType type)
    (hnames : ∀ item ∈ items, (key item).variableName base = name item)
    (hdomain : definition.resolve = .ok domain)
    (hfree : ∀ item ∈ items, name item ∉ model.identifiers) :
    ∃ collection,
      model.addVariables base (items.map key) definition =
        .ok (collection, model.withCollection collection) ∧
      collection.Covers items key fun item => ⟨name item, domain⟩ := by
  have hdefinitions : (items.map key).map (fun key => (key, definition)) =
      items.map fun item => (key item, definition) := List.map_map
  rw [addVariables, hdefinitions]
  exact exists_addVariablesWith_covers hbase hnodup htypes hnames (fun _ _ => hdomain) hfree

/-! ## Constraints -/

theorem post_item (constraint : Constraint) :
    model.post [.item constraint] false = .ok (model.register [constraint]) :=
  rfl

/-- Finished items are posted together as they are. -/
theorem post_items (constraints : List Constraint) :
    model.post (constraints.map .item) false = .ok (model.register constraints) := by
  have hitems : (constraints.map Postable.item).mapM Postable.toConstraint = .ok constraints := by
    rw [Outcome.mapM_eq_ok, List.forall₂_map_left_iff, List.forall₂_same]
    exact fun _ _ => rfl
  rw [post, hitems]
  rfl

theorem post_comparison (op : ComparisonOp) (left right : Expr) (redundant : Bool) :
    model.post [.expr (.comparison op left right)] redundant =
      .ok (model.register [⟨.comparison op left right, none, none, redundant⟩]) := by
  cases redundant <;> rfl

/-- Constraints that are posted one after the other for the elements of a list stand in its
order. -/
theorem foldlM_register {ε : Type} {step : Model → α → Except ε Model}
    {item : α → Constraint} {values : List α} (hsome : values ≠ [])
    (h : ∀ value ∈ values, ∀ current, step current value = .ok (current.register [item value])) :
    values.foldlM step model = .ok (model.register (values.map item)) := by
  rw [Outcome.foldlM_eq_ok_foldl h, ← foldl_register (by simpa using hsome), List.foldl_map]

/-! ## The objective -/

/-- The model with an objective. -/
def withObjective (model : Model) (objective : Objective) : Model :=
  { model with objective := some objective, generated := none }

theorem minimize_of_isScalar {objective : Expr} (h : objective.IsScalar) :
    model.minimize objective = .ok (model.withObjective ⟨.minimize, some objective⟩) := by
  have hcheck : checkObjective .minimize (some objective) = .ok () := by
    simp [checkObjective, h.1, h.2]
  rw [minimize, setCriteria, hcheck]
  rfl

end Model

end MiniZincModels
