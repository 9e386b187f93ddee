import MiniZincModels.Proofs.Gallery.BinPacking
import MiniZincModels.Proofs.Gallery.MagicSquare
import MiniZincModels.Proofs.Gallery.Queens
import MiniZincModels.Proofs.Gallery.Sudoku

/-!
# Exact numbers in demonstrations

Several demonstrations compute numbers from their size, in machine integers.  Here stands which
numbers a model holds, and for which sizes they are exact: for boards of queens, sudokus and
bins they are for all sizes that are not refused, for magic squares up to 65535 rows.
-/

namespace MiniZincModels.Gallery

/-- A model is built which holds exact numbers, or the program refuses the size with an error
that the caller can handle. -/
def IsExactOrRefused (result : Except Failure Model) (holdsExact : Model → Prop) : Prop :=
  match result with
  | .ok model => holdsExact model
  | .error (.error _) => True
  | .error (.misuse _) => False

variable {size items : Nat}

namespace Queens

/-- The size of the board is declared, and the last row is the one before it. -/
def HoldsExact (size : Nat) (model : Model) : Prop :=
  ∃ n last : Int64, n.toInt = size ∧ last.toInt = size - 1 ∧
    model.constants = [⟨"n", .int, [], [.int n]⟩] ∧
    ∀ declared ∈ model.vars, declared.domain = .int (.interval 0 last)

theorem isExactOrRefused (hmachine : size < 2 ^ 32) :
    IsExactOrRefused (build size) (HoldsExact size) := by
  obtain rfl | hsize := Nat.eq_zero_or_pos size
  · exact trivial
  · obtain ⟨model, hbuild, hconstants, hvars, -⟩ := exists_build hsize hmachine
    rw [hbuild]
    refine ⟨_, _, Int64.toInt_ofNat_of_lt (by omega), toInt_last hmachine, hconstants, ?_⟩
    rw [hvars]
    exact List.forall_mem_map.mpr fun _ _ => rfl

end Queens

namespace Sudoku

/-- Every cell is given, or it has the numbers up to the width of the grid. -/
def HoldsExact (size : Nat) (model : Model) : Prop :=
  ∃ width : Int64, width.toInt = size * size ∧
    ∀ declared ∈ model.vars, declared.domain = .int (.interval 1 width) ∨
      ∃ cell, size = 3 ∧ declared.domain = .int (.values (IntSet.ofList [given cell]))

/-- A number that needs the place of the sign is taken for a negative one. -/
theorem toInt_ofNat_of_wide {n : Nat} (hwide : 2 ^ 63 ≤ n) (hmachine : n < 2 ^ 64) :
    (Int64.ofNat n).toInt = n - 2 ^ 64 := by
  have hsize : (Int64.size : Int) = 2 ^ 64 := rfl
  rw [Int64.toInt_ofNat', Int.bmod_eq_emod, hsize]
  split <;> omega

/-- The upper bound of the first cell is negative, if the width is no machine integer. -/
theorem build_of_wide (hwide : 2 ^ 63 ≤ size * size) (hmachine : size * size < 2 ^ 64) :
    build size = .error (.error (.domain "cell_0_0" .crossedBounds)) := by
  have hnegative : (Int64.ofNat (size * size)).toInt < (1 : Int64).toInt := by
    rw [toInt_ofNat_of_wide hwide hmachine, Int64.toInt_one]
    omega
  have hresolve : (cellDefinition (size * size) (0, 0)).resolve = .error .crossedBounds := by
    rw [cellDefinition, if_neg (by omega)]
    exact congrArg (Except.map Domain.int) (if_pos hnegative)
  have hcheck : Grid.checkFirst "cell" (size * size) (cellDefinition (size * size) (0, 0)) =
      .error (.domain "cell_0_0" .crossedBounds) := by
    rw [Grid.checkFirst, if_neg (by omega), Variable.define, hresolve, variableName_eq]
    rfl
  rw [build, hcheck]
  rfl

/-- The width of the grid and all places in it are machine words. -/
structure FitsWords (size : Nat) : Prop where
  width : size * size < 2 ^ 64
  cells : ∀ group ∈ groups size, ∀ cell ∈ group, cell.1 < 2 ^ 64 ∧ cell.2 < 2 ^ 64

theorem fitsWords (hmachine : size < 2 ^ 32) : FitsWords size := by
  have hwidth : size * size < 2 ^ 64 := by nlinarith
  refine ⟨hwidth, fun group hgroup cell hcell => ?_⟩
  have hsize : 0 < size := Nat.pos_of_ne_zero (by rintro rfl; cases hgroup)
  obtain ⟨hrow, hcolumn⟩ := Grid.mem_cells.mp ((cells_of_mem_groups hsize hgroup).2 cell hcell)
  exact ⟨hrow.trans hwidth, hcolumn.trans hwidth⟩

theorem isExactOrRefused (hmachine : size < 2 ^ 32) :
    IsExactOrRefused (build size) (HoldsExact size) := by
  by_cases hfits : size * size < 2 ^ 63
  · obtain ⟨model, hbuild, hvars, -⟩ := exists_build hfits
    rw [hbuild]
    refine ⟨Int64.ofNat (size * size), Int64.toInt_ofNat_of_lt hfits, ?_⟩
    rw [hvars, List.forall_mem_map]
    intro cell _
    rw [entry, cellDomain]
    split
    · rename_i hgiven
      exact .inr ⟨cell, by nlinarith [hgiven.1], rfl⟩
    · exact .inl rfl
  · rw [build_of_wide (by omega) (fitsWords hmachine).width]
    exact trivial

end Sudoku

namespace BinPacking

/-- The steps from the weights of the items to the number of bins that is divided by the
capacity. -/
structure IsTotalled (items : Nat) : Prop where
  sum : ∀ count ≤ items,
    ((weights count).foldl (· + ·) 0).toInt = ∑ item ∈ Finset.range count, weightAt item
  withCapacity : ((weights items).foldl (· + ·) 0 + capacityValue).toInt =
    ∑ item ∈ Finset.range items, weightAt item + 10
  dividend : ((weights items).foldl (· + ·) 0 + capacityValue - 1).toInt =
    ∑ item ∈ Finset.range items, weightAt item + 10 - 1

/-- The number of bins is bounded by the weight of all items divided by the capacity and rounded
up. -/
def HoldsExact (items : Nat) (model : Model) : Prop :=
  ∃ bound : Int64, bound.toInt = (∑ item ∈ Finset.range items, weightAt item + 10 - 1) / 10 ∧
    model.constraints.filter Constraint.redundant =
      [⟨.comparison .greaterOrEqual (binCount items) (.int bound), none, none, true⟩]

theorem isTotalled (hmachine : items < 2 ^ 32) : IsTotalled items where
  sum count hcount := (toInt_sum_weights (hcount.trans_lt hmachine)).1
  withCapacity := toInt_add_capacity hmachine
  dividend := by
    rw [toInt_dividend hmachine, add_sub_assoc]
    rfl

theorem isExactOrRefused (hmachine : items < 2 ^ 32) :
    IsExactOrRefused (build items) (HoldsExact items) := by
  obtain rfl | hitems := Nat.eq_zero_or_pos items
  · exact trivial
  · obtain ⟨model, hbuild, -, -, hconstraints, -⟩ := exists_build hitems
    rw [hbuild]
    refine ⟨fewestBins items, ?_, filter_redundant_eq hconstraints⟩
    rw [toInt_fewestBins hmachine, add_sub_assoc]
    rfl

end BinPacking

namespace MagicSquare

/-- The sum of a line is declared, the numbers reach up to the number of cells, and all lines
of one direction sum up to the total of the numbers. -/
def HoldsExact (size : Nat) (model : Model) : Prop :=
  ∃ largest lineSum allLines : Int64, IsExact size largest lineSum allLines ∧
    model.constants = [⟨"magic_sum", .int, [], [.int lineSum]⟩] ∧
    (∀ declared ∈ model.vars, declared.domain = .int (.interval 1 largest)) ∧
    model.constraints.filter Constraint.redundant = [totalEquation size allLines]

/-- Squares of 65536 rows and more end the program, and no others do. -/
theorem overflows_iff (hmachine : size < 2 ^ 32) :
    (∃ operation, build size = .error (.misuse (.overflow operation))) ↔ 65535 < size := by
  obtain rfl | hsize := Nat.eq_zero_or_pos size
  · exact iff_of_false (by rintro ⟨operation, ⟨⟩⟩) (by decide)
  · exact build_overflows_iff hsize hmachine

theorem isExactOrRefused_iff (hmachine : size < 2 ^ 32) :
    IsExactOrRefused (build size) (HoldsExact size) ↔ size ≤ 65535 := by
  constructor
  · intro h
    by_contra hlarge
    obtain ⟨operation, hbuild⟩ := (overflows_iff hmachine).mpr (by omega)
    rw [hbuild] at h
    exact h
  · intro hle
    obtain rfl | hsize := Nat.eq_zero_or_pos size
    · exact trivial
    · obtain ⟨largest, lineSum, allLines, model, hexact, hbuild, hconstants, hvars, hconstraints⟩ :=
        exists_build hsize hmachine (not_overflow_of_le hsize hle)
      rw [hbuild]
      refine ⟨largest, lineSum, allLines, hexact, hconstants, ?_, filter_redundant_eq hconstraints⟩
      rw [hvars]
      exact List.forall_mem_map.mpr fun _ _ => rfl

end MagicSquare

/-- For all sizes of 32 bits, the numbers that are computed for boards of queens, sudokus and bins
are exact at every step, or the size is refused with an error.  For magic squares this holds of
just the sizes up to 65535: from there on a number overflows and the program ends. -/
theorem numbers_exact_or_refused (hmachine : size < 2 ^ 32) :
    ((Int64.ofNat size - 1).toInt = size - 1 ∧
      IsExactOrRefused (Queens.build size) (Queens.HoldsExact size)) ∧
    (Sudoku.FitsWords size ∧ IsExactOrRefused (Sudoku.build size) (Sudoku.HoldsExact size)) ∧
    (BinPacking.IsTotalled size ∧
      IsExactOrRefused (BinPacking.build size) (BinPacking.HoldsExact size)) ∧
    (IsExactOrRefused (MagicSquare.build size) (MagicSquare.HoldsExact size) ↔ size ≤ 65535) ∧
    ((∃ operation, MagicSquare.build size = .error (.misuse (.overflow operation))) ↔
      65535 < size) :=
  ⟨⟨Queens.toInt_last hmachine, Queens.isExactOrRefused hmachine⟩,
    ⟨Sudoku.fitsWords hmachine, Sudoku.isExactOrRefused hmachine⟩,
    ⟨BinPacking.isTotalled hmachine, BinPacking.isExactOrRefused hmachine⟩,
    MagicSquare.isExactOrRefused_iff hmachine, MagicSquare.overflows_iff hmachine⟩

/-- The largest size of 32 bits for a sudoku, and the two sizes at the limit for a magic square. -/
theorem numbers_exact_or_refused_at_limits :
    Sudoku.FitsWords 4294967295 ∧
      IsExactOrRefused (Sudoku.build 4294967295) (Sudoku.HoldsExact 4294967295) ∧
      IsExactOrRefused (MagicSquare.build 65535) (MagicSquare.HoldsExact 65535) ∧
      ∃ operation, MagicSquare.build 65536 = .error (.misuse (.overflow operation)) := by
  obtain ⟨-, ⟨hwords, hsudoku⟩, -⟩ :=
    numbers_exact_or_refused (show 4294967295 < 2 ^ 32 by decide)
  obtain ⟨-, -, -, hlast, -⟩ := numbers_exact_or_refused (show 65535 < 2 ^ 32 by decide)
  obtain ⟨-, -, -, -, hfirst⟩ := numbers_exact_or_refused (show 65536 < 2 ^ 32 by decide)
  refine ⟨hwords, hsudoku, ?_, ?_⟩
  · rw [hlast]
  · rw [hfirst]
    decide

/-- For a square of 2097152 rows already the sum of a line overflows, and the program ends before
anything is declared. -/
theorem large_square_overflows :
    MagicSquare.build 2097152 = .error (.misuse (.overflow .product)) ∧
      ¬ ∀ size < 2 ^ 32,
        IsExactOrRefused (MagicSquare.build size) (MagicSquare.HoldsExact size) := by
  have hbuild : MagicSquare.build 2097152 = .error (.misuse (.overflow .product)) := rfl
  refine ⟨hbuild, fun h => ?_⟩
  have hlarge := h 2097152 (by decide)
  rw [hbuild] at hlarge
  exact hlarge

end MiniZincModels.Gallery
