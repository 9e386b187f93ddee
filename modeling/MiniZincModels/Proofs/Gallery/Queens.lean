import MiniZincModels.Gallery.Queens
import MiniZincModels.Proofs.Gallery.Grid
import MiniZincModels.Proofs.Model.Solutions

/-!
# The solutions of the queens model

The model for a board of any size is built, and its solutions are the placements of queens
that do not attack each other.
-/

namespace MiniZincModels.Gallery.Queens

variable {size : Nat}

/-- The name of the variable for the queen in a column. -/
def name (column : Nat) : String :=
  "q_" ++ toString column

/-- The queens in different columns share neither a row nor a diagonal. -/
def AreApart (size : Nat) (row : Nat → Int) : Prop :=
  ∀ left < size, ∀ right < size, left ≠ right →
    row left ≠ row right ∧ |row left - row right| ≠ |(left : Int) - right|

/-! ## The model -/

/-- The variable for the queen in a column. -/
def queen (size column : Nat) : Variable :=
  ⟨name column, .int (.interval 0 (Int64.ofNat size - 1))⟩

/-- The row of the queen in a column, moved by the number of the column. -/
def shifted (op : ArithmeticOp) (size index : Nat) : Expr :=
  .arithmetic op (queen size index).toExpr (column index)

/-- Different columns have different numbers. -/
def distinct (size : Nat) (number : Nat → Expr) : Constraint :=
  .ofGlobal .allDifferent [.array ((columns size).map number)]

/-- The queens are in different rows, and on different rising and falling diagonals. -/
def constraints (size : Nat) : List Constraint :=
  [distinct size fun index => (queen size index).toExpr,
    distinct size (shifted .add size),
    distinct size (shifted .sub size)]

theorem variableName_eq (column : Nat) : (IndexKey.single column).variableName "q" = name column :=
  IndexKey.variableName_single (by decide) column

theorem name_ne (column : Nat) : name column ≠ "n" :=
  variableName_eq column ▸ IndexKey.variableName_ne (by decide) (by decide) _

/-- The number of the last row of a board is a machine integer. -/
theorem toInt_last (hmachine : size < 2 ^ 32) :
    (Int64.ofNat size - 1).toInt = size - 1 := by
  rw [Int64.toInt_sub, Int64.toInt_ofNat_of_lt (by omega)]
  exact Int.bmod_eq_of_le (by simp; omega) (by simp; omega)

/-- The queens as the model for a board declares them. -/
theorem exists_queens (hsize : 0 < size) (hmachine : size < 2 ^ 32) {model : Model}
    (hidentifiers : model.identifiers = ["n"]) :
    ∃ queens,
      model.addVariables "q" ((columns size).map IndexKey.single)
        (.ofInterval 0 (Int64.ofNat size - 1)) = .ok (queens, model.withCollection queens) ∧
      queens.Covers (columns size) IndexKey.single (queen size) := by
  have hbounds : (0 : Int64).toInt ≤ (Int64.ofNat size - 1).toInt := by
    rw [toInt_last hmachine, Int64.toInt_zero]
    omega
  refine Model.exists_addVariables_covers (by decide)
    (List.nodup_range.map IndexKey.single_injective)
    (fun column _ => IndexKey.hasType_single column)
    (fun column _ => variableName_eq column) (Definition.resolve_ofInterval hbounds)
    fun column _ => ?_
  rw [hidentifiers, List.mem_singleton]
  exact name_ne column

theorem diagonals_eq_ok {queens : Collection} (op : ArithmeticOp)
    (hqueens : queens.Covers (columns size) IndexKey.single (queen size)) :
    diagonals queens (fun left right => Misuse.expect (Expr.combine op left right)) size =
      .ok ((columns size).map (shifted op size)) := by
  apply Outcome.mapM_eq_ok_map
  intro index hmem
  rw [hqueens.item index hmem]
  exact congrArg Misuse.expect (Expr.combine_of_isWhole op (.inl rfl) (.inl rfl))

/-- The board is built, with its size as the only constant. -/
theorem exists_build (hsize : 0 < size) (hmachine : size < 2 ^ 32) :
    ∃ model, build size = .ok model ∧
      model.constants = [⟨"n", .int, [], [.int (Int64.ofNat size)]⟩] ∧
      model.vars = (columns size).map (queen size) ∧
      model.constraints = constraints size := by
  have hsome {α : Type} (item : Nat → α) : (columns size).map item ≠ [] := by
    simpa [columns] using hsize.ne'
  let start := Model.empty.withConstant ⟨"n", .int, [], [.int (Int64.ofNat size)]⟩
  have hstart : Model.empty.addConstant "n" (.scalar (.int (Int64.ofNat size))) =
      .ok (⟨"n", .int, [], [.int (Int64.ofNat size)]⟩, start) := rfl
  have hidentifiers : start.identifiers = ["n"] := rfl
  obtain ⟨queens, hadded, hqueens⟩ := exists_queens hsize hmachine hidentifiers
  have hrising : diagonals queens Expr.plus size = .ok ((columns size).map (shifted .add size)) :=
    diagonals_eq_ok .add hqueens
  have hfalling : diagonals queens Expr.minus size = .ok ((columns size).map (shifted .sub size)) :=
    diagonals_eq_ok .sub hqueens
  have hdistinct (number : Nat → Expr) :
      Constraint.allDifferent ((columns size).map number) = .ok (distinct size number) :=
    Constraint.onArray_eq_ok.mpr ⟨hsome number, rfl⟩
  have hsearch : Branching.create .int queens.vars .firstFail .indomainMin =
      .ok ⟨.int, queens.vars, .firstFail, .indomainMin⟩ :=
    hqueens.branching (by simpa [columns] using hsize.ne') (fun _ _ => rfl) rfl .firstFail
  let posted := (((start.withCollection queens).register
    [distinct size fun index => (queen size index).toExpr]).register
    [distinct size (shifted .add size)]).register [distinct size (shifted .sub size)]
  refine ⟨(posted.setSearch (.branching ⟨.int, queens.vars, .firstFail, .indomainMin⟩)).satisfy,
    ?built, rfl, hqueens.vars, rfl⟩
  -- The collection is known only up to its variables and items, so the program is followed
  -- from one operation to the next.
  simp only [build, hstart, Failure.checked_ok_bind, hadded, hqueens.exprs, hdistinct,
    Model.post_item]
  simp only [hrising, hfalling, Failure.unchecked_ok_bind, Failure.checked_ok_bind, hdistinct,
    hsearch]
  rfl

/-! ## Its solutions -/

/-- Two queens are on one diagonal if adding or subtracting their columns gives one number. -/
theorem isApart_iff {leftRow rightRow left right : Int} :
    leftRow ≠ rightRow ∧ |leftRow - rightRow| ≠ |left - right| ↔
      leftRow ≠ rightRow ∧ leftRow + left ≠ rightRow + right ∧
        leftRow - left ≠ rightRow - right := by
  rw [Ne.eq_def |leftRow - rightRow|, abs_eq_abs]
  omega

theorem holds_distinct {given : Interpretation} {number : Nat → Expr} {value : Nat → Int}
    (h : ∀ index < size, (number index).value? given = some (value index)) :
    (distinct size number).Holds given ↔
      ∀ left < size, ∀ right < size, left ≠ right → value left ≠ value right := by
  simp only [← List.mem_range] at h ⊢
  rw [distinct, columns, Constraint.holds_allDifferent h List.nodup_range]
  simp only [ne_eq, not_imp_not]

section Meaning

variable {model : Model}
  (hconstants : model.constants = [⟨"n", .int, [], [.int (Int64.ofNat size)]⟩])
  (assignment : String → Int)
include hconstants

theorem value?_queen (index : Nat) :
    (queen size index).toExpr.value? (model.interpretation assignment) =
      some (assignment (name index)) := by
  refine Variable.value?_toExpr (queen size index) (.inl rfl) ?_
  rw [Model.interpretation, hconstants, List.forall_mem_singleton]
  exact (name_ne index).symm

theorem value?_shifted (op : ArithmeticOp) {index : Nat} (hindex : index < 2 ^ 32) :
    (shifted op size index).value? (model.interpretation assignment) =
      op.result? (assignment (name index)) index := by
  have hnumber : (column index).value? (model.interpretation assignment) = some (index : Int) :=
    congrArg some (Int64.toInt_ofNat_of_lt (by omega))
  exact Expr.value?_arithmetic (value?_queen hconstants assignment index) hnumber

/-- The constraints keep the queens apart. -/
theorem satisfies_constraints_iff (hmachine : size < 2 ^ 32) :
    model.Satisfies assignment (constraints size) ↔
      AreApart size fun column => assignment (name column) := by
  have hrow (index : Nat) (_ : index < size) := value?_queen hconstants assignment index
  have hrising (index : Nat) (h : index < size) :=
    value?_shifted hconstants assignment .add (h.trans hmachine)
  have hfalling (index : Nat) (h : index < size) :=
    value?_shifted hconstants assignment .sub (h.trans hmachine)
  simp only [Model.Satisfies, constraints, List.forall_mem_cons, List.not_mem_nil, false_imp_iff,
    implies_true, and_true, holds_distinct hrow, holds_distinct hrising, holds_distinct hfalling,
    AreApart, isApart_iff, forall_and]

end Meaning

theorem isInDomains_iff (hmachine : size < 2 ^ 32) {model : Model}
    (hvars : model.vars = (columns size).map (queen size)) (assignment : String → Int) :
    model.IsInDomains assignment ↔
      ∀ column < size, 0 ≤ assignment (name column) ∧ assignment (name column) < size := by
  rw [Model.IsInDomains, hvars, List.forall_mem_map]
  simp only [columns, List.mem_range, queen, Domain.admits_interval, toInt_last hmachine,
    Int.le_sub_one_iff]
  rfl

/-- Every board is built with one variable for each column, whose values are the rows of the
board, and the solutions of its three constraints are the placements of queens that do not
attack each other.  A size has 32 bits. -/
theorem solutions_eq_placements (hsize : 0 < size) (hmachine : size < 2 ^ 32) :
    ∃ model, build size = .ok model ∧
      model.vars.map Variable.name = (List.range size).map name ∧
      model.constraints.map Constraint.global = List.replicate 3 (some .allDifferent) ∧
      ∀ assignment,
        (model.IsInDomains assignment ↔
          ∀ column < size, 0 ≤ assignment (name column) ∧ assignment (name column) < size) ∧
        (model.Satisfies assignment model.constraints ↔
          AreApart size fun column => assignment (name column)) := by
  obtain ⟨model, hbuild, hconstants, hvars, hconstraints⟩ := exists_build hsize hmachine
  refine ⟨model, hbuild, ?names, ?globals, fun assignment => ⟨?domains, ?attacks⟩⟩
  case names =>
    rw [hvars, List.map_map]
    rfl
  case globals =>
    rw [hconstraints]
    rfl
  case domains => exact isInDomains_iff hmachine hvars assignment
  case attacks =>
    rw [hconstraints]
    exact satisfies_constraints_iff hconstants assignment hmachine

/-- On a board of four columns, the queens may stand in the rows 1, 3, 0 and 2. -/
theorem four_queens_are_placed :
    ∃ model, build 4 = .ok model ∧ ∃ assignment,
      model.IsInDomains assignment ∧ model.Satisfies assignment model.constraints := by
  obtain ⟨model, hbuild, -, -, hsolutions⟩ :=
    solutions_eq_placements (show 0 < 4 by decide) (by decide)
  let rows := [("q_0", 1), ("q_1", 3), ("q_2", 0), ("q_3", 2)]
  obtain ⟨hdomains, hattacks⟩ := hsolutions fun text => (rows.lookup text).getD 0
  refine ⟨model, hbuild, _, hdomains.mpr ?_, hattacks.mpr ?_⟩
  · decide
  · unfold AreApart
    decide

end MiniZincModels.Gallery.Queens
