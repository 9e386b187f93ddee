import Mathlib.Algebra.BigOperators.Intervals
import Mathlib.Tactic.IntervalCases
import Mathlib.Tactic.Ring
import MiniZincModels.Gallery.MagicSquare
import MiniZincModels.Proofs.Gallery.Grid
import MiniZincModels.Proofs.Model.Solutions
import MiniZincModels.Proofs.Outcome
import MiniZincModels.Proofs.Text.Numeral

/-!
# The solutions of the magic square model

If the numbers that are computed for a size fit into machine integers, the model for that
size is built, and its solutions are the magic squares.  The sum of the lines need not be
given: numbers that fill a square leave a single choice for it.
-/

namespace MiniZincModels.Gallery

/-! ## Computed numbers -/

namespace Count

variable {left right result : Int64}

theorem add_eq_ok : add left right = .ok result ↔ result.toInt = left.toInt + right.toInt := by
  rw [add, ← Text.toInt64?_eq_some]
  split <;> simp_all

theorem multiply_eq_ok :
    multiply left right = .ok result ↔ result.toInt = left.toInt * right.toInt := by
  rw [multiply, ← Text.toInt64?_eq_some]
  split <;> simp_all

theorem exists_add (hleast : -2 ^ 63 ≤ left.toInt + right.toInt)
    (hgreatest : left.toInt + right.toInt < 2 ^ 63) : ∃ result, add left right = .ok result :=
  ⟨Int64.ofInt _, add_eq_ok.mpr (Int64.toInt_ofInt_of_le hleast hgreatest)⟩

theorem exists_multiply (hleast : -2 ^ 63 ≤ left.toInt * right.toInt)
    (hgreatest : left.toInt * right.toInt < 2 ^ 63) :
    ∃ result, multiply left right = .ok result :=
  ⟨Int64.ofInt _, multiply_eq_ok.mpr (Int64.toInt_ofInt_of_le hleast hgreatest)⟩

theorem eq_overflow_of_add {mistake : Misuse} (h : add left right = .error mistake) :
    mistake = .overflow .sum := by
  rw [add] at h
  split at h <;> simp_all

theorem eq_overflow_of_multiply {mistake : Misuse} (h : multiply left right = .error mistake) :
    mistake = .overflow .product := by
  rw [multiply] at h
  split at h <;> simp_all

end Count

namespace MagicSquare

variable {size : Nat} {square : Nat → Nat → Int} {total : Int}

theorem eq_overflow_of_magicSum {n : Int64} {mistake : Misuse} (h : magicSum n = .error mistake) :
    ∃ operation, mistake = .overflow operation := by
  rw [magicSum, Outcome.bind_eq_error] at h
  obtain h | ⟨largest, -, h⟩ := h
  · exact ⟨_, Count.eq_overflow_of_multiply h⟩
  rw [Outcome.bind_eq_error] at h
  obtain h | ⟨next, -, h⟩ := h
  · exact ⟨_, Count.eq_overflow_of_add h⟩
  rw [Outcome.bind_eq_error] at h
  obtain h | ⟨doubled, -, h⟩ := h
  · exact ⟨_, Count.eq_overflow_of_multiply h⟩
  · cases h

theorem exists_magicSum {n : Int64} (hn : 0 ≤ n.toInt) (hfits : n.toInt ≤ 65535) :
    ∃ result, magicSum n = .ok result := by
  have hsquare : 0 ≤ n.toInt * n.toInt ∧ n.toInt * n.toInt ≤ 65535 * 65535 :=
    ⟨mul_nonneg hn hn, mul_le_mul hfits hfits hn (by decide)⟩
  obtain ⟨largest, hlargest⟩ : ∃ largest, Count.multiply n n = .ok largest :=
    Count.exists_multiply (by omega) (by omega)
  have hexact : largest.toInt = n.toInt * n.toInt := Count.multiply_eq_ok.mp hlargest
  have hone : (1 : Int64).toInt = 1 := rfl
  obtain ⟨next, hnext⟩ : ∃ next, Count.add largest 1 = .ok next :=
    Count.exists_add (by omega) (by omega)
  have hsucc : next.toInt = n.toInt * n.toInt + 1 := by
    rw [Count.add_eq_ok.mp hnext, hexact, hone]
  have hproduct : 0 ≤ n.toInt * next.toInt ∧
      n.toInt * next.toInt ≤ 65535 * (65535 * 65535 + 1) := by
    rw [hsucc]
    exact ⟨mul_nonneg hn (by omega), mul_le_mul hfits (by omega) (by omega) (by decide)⟩
  obtain ⟨doubled, hdoubled⟩ : ∃ doubled, Count.multiply n next = .ok doubled :=
    Count.exists_multiply (by omega) (by omega)
  exact ⟨doubled / 2, Outcome.bind_eq_ok.mpr ⟨largest, hlargest,
    Outcome.bind_eq_ok.mpr ⟨next, hnext, Outcome.bind_eq_ok.mpr ⟨doubled, hdoubled, rfl⟩⟩⟩⟩

/-- A magic sum that is given is the exact one. -/
theorem toInt_of_magicSum {n result : Int64} (hn : 0 ≤ n.toInt) (h : magicSum n = .ok result) :
    result.toInt = n.toInt * (n.toInt * n.toInt + 1) / 2 := by
  rw [magicSum, Outcome.bind_eq_ok] at h
  obtain ⟨largest, hlargest, h⟩ := h
  obtain ⟨next, hnext, h⟩ := Outcome.bind_eq_ok.mp h
  obtain ⟨doubled, hdoubled, h⟩ := Outcome.bind_eq_ok.mp h
  cases h
  have hexact : doubled.toInt = n.toInt * (n.toInt * n.toInt + 1) := by
    rw [Count.multiply_eq_ok.mp hdoubled, Count.add_eq_ok.mp hnext,
      Count.multiply_eq_ok.mp hlargest]
    rfl
  have hpositive : 0 ≤ n.toInt * (n.toInt * n.toInt + 1) := by positivity
  rw [Int64.toInt_div_of_ne_right _ _ (by decide), hexact]
  exact Int.tdiv_eq_ediv_of_nonneg hpositive

/-! ## Magic squares -/

/-- All lines of a square have one sum. -/
structure HasLineSum (size : Nat) (square : Nat → Nat → Int) (total : Int) : Prop where
  rows : ∀ row < size, ∑ column ∈ Finset.range size, square row column = total
  columns : ∀ column < size, ∑ row ∈ Finset.range size, square row column = total
  diagonal : ∑ i ∈ Finset.range size, square i i = total
  antidiagonal : ∑ i ∈ Finset.range size, square i (size - 1 - i) = total

/-- The cells of a square hold different numbers from 1 on, without a gap. -/
structure IsFilled (size : Nat) (square : Nat → Nat → Int) : Prop where
  bounds : ∀ row < size, ∀ column < size,
    1 ≤ square row column ∧ square row column ≤ (size : Int) ^ 2
  distinct : ∀ row < size, ∀ column < size, ∀ otherRow < size, ∀ otherColumn < size,
    square row column = square otherRow otherColumn → row = otherRow ∧ column = otherColumn

/-- The numbers from 1 on fill a square so that all lines have one sum. -/
structure IsMagic (size : Nat) (square : Nat → Nat → Int) : Prop extends
    IsFilled size square where
  sums : ∃ total, HasLineSum size square total

/-- The sum of all cells, row by row. -/
theorem HasLineSum.sum_eq (h : HasLineSum size square total) :
    ∑ row ∈ Finset.range size, ∑ column ∈ Finset.range size, square row column =
      size * total := by
  rw [Finset.sum_congr rfl fun row hrow => h.rows row (Finset.mem_range.mp hrow)]
  simp

/-- The sum of the numbers from 1 on. -/
theorem sum_succ_mul_two (count : Nat) :
    (∑ i ∈ Finset.range count, ((i : Int) + 1)) * 2 = count * (count + 1) := by
  induction count with
  | zero => rfl
  | succ count ih =>
    rw [Finset.sum_range_succ, add_mul, ih]
    push_cast
    ring

/-- All cells of a square. -/
def positions (size : Nat) : Finset Cell :=
  Finset.range size ×ˢ Finset.range size

theorem IsFilled.injOn (h : IsFilled size square) :
    Set.InjOn (fun cell : Cell => square cell.1 cell.2) (positions size) := by
  rintro ⟨row, column⟩ hcell ⟨otherRow, otherColumn⟩ hother heq
  simp only [positions, Finset.coe_product, Finset.coe_range, Set.mem_prod, Set.mem_Iio]
    at hcell hother
  obtain ⟨rfl, rfl⟩ := h.distinct _ hcell.1 _ hcell.2 _ hother.1 _ hother.2 heq
  rfl

theorem succ_injective : Function.Injective fun i : Nat => (i : Int) + 1 := fun i j hij => by
  simpa using hij

/-- The numbers in a filled square are those from 1 on: as many different ones as there are
cannot leave one out. -/
theorem IsFilled.image_eq (h : IsFilled size square) :
    (positions size).image (fun cell => square cell.1 cell.2) =
      (Finset.range (size ^ 2)).image fun i : Nat => (i : Int) + 1 := by
  apply Finset.eq_of_subset_of_card_le
  · intro value hvalue
    obtain ⟨⟨row, column⟩, hcell, rfl⟩ := Finset.mem_image.mp hvalue
    simp only [positions, Finset.mem_product, Finset.mem_range] at hcell
    have hbounds := h.bounds row hcell.1 column hcell.2
    refine Finset.mem_image.mpr ⟨(square row column - 1).toNat, ?_, ?_⟩
    · rw [Finset.mem_range]
      zify
      omega
    · dsimp only
      omega
  · rw [Finset.card_image_of_injective _ succ_injective, Finset.card_image_of_injOn h.injOn,
      positions, Finset.card_product, Finset.card_range, Finset.card_range, pow_two]

/-- The sum of the numbers in a filled square is known. -/
theorem IsFilled.sum_mul_two (h : IsFilled size square) :
    (∑ row ∈ Finset.range size, ∑ column ∈ Finset.range size, square row column) * 2 =
      (size : Int) ^ 2 * (size ^ 2 + 1) := by
  calc (∑ row ∈ Finset.range size, ∑ column ∈ Finset.range size, square row column) * 2
      = (∑ cell ∈ positions size, square cell.1 cell.2) * 2 := by
        rw [positions, Finset.sum_product]
    _ = (∑ value ∈ (Finset.range (size ^ 2)).image fun i : Nat => (i : Int) + 1, value) * 2 := by
        rw [← h.image_eq, Finset.sum_image h.injOn]
    _ = (∑ i ∈ Finset.range (size ^ 2), ((i : Int) + 1)) * 2 := by
        rw [Finset.sum_image succ_injective.injOn]
    _ = (size : Int) ^ 2 * (size ^ 2 + 1) := by
        rw [sum_succ_mul_two]
        push_cast
        rfl

/-- The sum of the lines is half the product of the size and the number after the largest. -/
theorem IsFilled.lineSum_eq (h : IsFilled size square) (hsums : HasLineSum size square total)
    (hsize : 0 < size) : total = (size : Int) * (size * size + 1) / 2 := by
  have hall := h.sum_mul_two
  rw [hsums.sum_eq] at hall
  have hpositive : (size : Int) ≠ 0 := by omega
  have htwice : total * 2 = size * (size * size + 1) := by
    apply mul_left_cancel₀ hpositive
    rw [← mul_assoc, hall]
    ring
  omega

/-! ## The model -/

/-- The name of the variable for a cell. -/
def name (row column : Nat) : String :=
  "square_" ++ toString row ++ "_" ++ toString column

/-- The variable for a cell of a square with a given largest number. -/
def entry (largest : Int64) (cell : Cell) : Variable :=
  ⟨name cell.1 cell.2, .int (.interval 1 largest)⟩

/-- The number in a cell. -/
def number (cell : Cell) : Expr :=
  .identifier (name cell.1 cell.2) .int

/-- The numbers of the square are different ones. -/
def distinct (size : Nat) : Constraint :=
  .ofGlobal .allDifferent [.array ((Grid.cells size size).map number)]

/-- The numbers of a line add up to the magic sum. -/
def equation (line : List Cell) : Constraint :=
  ⟨.comparison .equal (.reduction .sum (line.map number)) (.identifier "magic_sum" .int),
    none, none, false⟩

/-- All numbers add up to what the rows contain. -/
def totalEquation (size : Nat) (allLines : Int64) : Constraint :=
  ⟨.comparison .equal (.reduction .sum ((Grid.cells size size).map number)) (.int allLines),
    none, none, true⟩

/-- The model for a square whose cells are declared. -/
def assembled (size : Nat) (lineSum allLines : Int64) (square : Collection) : Model :=
  let start := Model.empty.withConstant ⟨"magic_sum", .int, [], [.int lineSum]⟩
  let posted := (((start.withCollection square).register [distinct size]).register
    ((lines size).map equation)).register [totalEquation size allLines]
  let searched := posted.setSearch (.branching ⟨.int, square.vars, .firstFail, .indomainSplit⟩)
  { searched with restart := some (.luby 250) }.satisfy

theorem variableName_eq (cell : Cell) :
    (Grid.key cell).variableName "square" = name cell.1 cell.2 :=
  IndexKey.variableName_pair (by decide) cell.1 cell.2

theorem name_ne (cell : Cell) : name cell.1 cell.2 ≠ "magic_sum" :=
  variableName_eq cell ▸ IndexKey.variableName_ne (by decide) (by decide) _

/-- The lines are the rows, the columns and the two diagonals. -/
theorem forall_mem_lines {p : List Cell → Prop} :
    (∀ line ∈ lines size, p line) ↔
      (∀ line < size, p (Grid.row size line) ∧ p (Grid.column size line)) ∧
        p ((List.range size).map fun i => (i, i)) ∧
        p ((List.range size).map fun i => (i, size - 1 - i)) := by
  simp only [lines, List.forall_mem_append, List.forall_mem_flatMap, List.mem_range,
    List.forall_mem_cons, List.not_mem_nil, false_imp_iff, implies_true, and_true]

/-- The lines are made of the cells of the square. -/
theorem mem_cells_of_mem_lines :
    ∀ line ∈ lines size, ∀ cell ∈ line, cell ∈ Grid.cells size size := by
  simp only [forall_mem_lines, Grid.row, Grid.column, List.forall_mem_map, Grid.mem_cells,
    List.mem_range]
  refine ⟨fun line hline => ⟨?_, ?_⟩, ?_, ?_⟩ <;> omega

theorem ne_nil_of_mem_lines (hsize : 0 < size) : ∀ line ∈ lines size, line ≠ [] := by
  simp [forall_mem_lines, Grid.row, Grid.column, hsize.ne']

/-- The cells as the model for a square declares them. -/
theorem exists_square (size : Nat) {largest : Int64} (hlargest : 1 ≤ largest.toInt) {model : Model}
    (hidentifiers : model.identifiers = ["magic_sum"]) :
    ∃ square,
      model.addVariables "square" ((Grid.cells size size).map Grid.key)
        (.ofInterval 1 largest) = .ok (square, model.withCollection square) ∧
      square.Covers (Grid.cells size size) Grid.key (entry largest) := by
  refine Model.exists_addVariables_covers (by decide) Grid.nodup_keys
    (fun cell _ => Grid.hasType_key cell) (fun cell _ => variableName_eq cell)
    (Definition.resolve_ofInterval hlargest) fun cell _ => ?_
  rw [hidentifiers, List.mem_singleton]
  exact name_ne cell

theorem postLine_eq_ok {largest : Int64} {square : Collection}
    (hsquare : square.Covers (Grid.cells size size) Grid.key (entry largest))
    {line : List Cell} (hline : line ≠ []) (hcells : ∀ cell ∈ line, cell ∈ Grid.cells size size)
    (model : Model) :
    postLine square (.identifier "magic_sum" .int) model line =
      .ok (model.register [equation line]) := by
  have hfound : Grid.lookUp square line = .ok (line.map number) :=
    Grid.lookUp_eq_ok hsquare hcells
  have hsum := Expr.sum_map_of_isWhole hline number fun _ _ => .inl rfl
  have hequation := Expr.compared_sum .equal (line.map number) (.identifier "magic_sum" .int)
    (.inl rfl)
  simp only [postLine, hfound, hsum, hequation, Failure.unchecked_ok_bind,
    Failure.checked_ok_bind, Model.post_comparison]
  rfl

/-- The square is built up to the check whether the sum of all cells fits. -/
theorem exists_build_eq {largest lineSum : Int64} (hsize : 0 < size)
    (hlargest : Count.multiply (Int64.ofNat size) (Int64.ofNat size) = .ok largest)
    (hpositive : 1 ≤ largest.toInt) (hsum : magicSum (Int64.ofNat size) = .ok lineSum) :
    ∃ square, square.vars = (Grid.cells size size).map (entry largest) ∧
      build size =
        (liftM (Count.multiply (Int64.ofNat size) lineSum) >>= fun allLines =>
          .ok (assembled size lineSum allLines square)) := by
  let start := Model.empty.withConstant ⟨"magic_sum", .int, [], [.int lineSum]⟩
  have hstart : Model.empty.addConstant "magic_sum" (.scalar (.int lineSum)) =
      .ok (⟨"magic_sum", .int, [], [.int lineSum]⟩, start) := rfl
  have hidentifiers : start.identifiers = ["magic_sum"] := rfl
  obtain ⟨square, hadded, hsquare⟩ := exists_square size hpositive hidentifiers
  have hexprs : square.exprs = (Grid.cells size size).map number := hsquare.exprs
  have hfirst : (0, 0) ∈ Grid.cells size size := Grid.mem_cells.mpr ⟨hsize, hsize⟩
  have hcells : Grid.cells size size ≠ [] := List.ne_nil_of_mem hfirst
  have hsome : (Grid.cells size size).map number ≠ [] := by simpa using hcells
  have hdistinct : Constraint.allDifferent ((Grid.cells size size).map number) =
      .ok (distinct size) :=
    Constraint.onArray_eq_ok.mpr ⟨hsome, rfl⟩
  have hlines (model : Model) :
      (lines size).foldlM (postLine square (.identifier "magic_sum" .int)) model =
        .ok (model.register ((lines size).map equation)) := by
    refine Model.foldlM_register (by simp [lines]) fun line hline current => ?_
    exact postLine_eq_ok hsquare (ne_nil_of_mem_lines hsize line hline)
      (mem_cells_of_mem_lines line hline) current
  have htotal := Expr.sum_map_of_isWhole hcells number fun _ _ => .inl rfl
  have hsearch : Branching.create .int square.vars .firstFail .indomainSplit =
      .ok ⟨.int, square.vars, .firstFail, .indomainSplit⟩ :=
    hsquare.branching hcells (fun _ _ => rfl) rfl .firstFail
  have hmagic : Constant.toExpr ⟨"magic_sum", .int, [], [.int lineSum]⟩ =
      .ok (.identifier "magic_sum" .int) := rfl
  refine ⟨square, hsquare.vars, ?_⟩
  simp only [build, hsum, hstart, hmagic, hlargest, hadded, hexprs, hdistinct, hlines, htotal,
    Failure.unchecked_ok_bind, Failure.checked_ok_bind, Failure.ok_bind, Model.post_item]
  refine congrArg _ (funext fun allLines => ?_)
  have hequation := Expr.compared_sum .equal ((Grid.cells size size).map number) (.int allLines)
    (.inl rfl)
  simp only [hequation, hsearch, Failure.unchecked_ok_bind, Failure.checked_ok_bind,
    Model.post_comparison]
  rfl

/-- The numbers a square is built with, all of them exact. -/
structure IsExact (size : Nat) (largest lineSum allLines : Int64) : Prop where
  toInt_largest : largest.toInt = size * size
  toInt_lineSum : lineSum.toInt = (size : Int) * (size * size + 1) / 2
  toInt_allLines : allLines.toInt = size * lineSum.toInt

/-- A square is built, if no number that is computed for it overflows. -/
theorem exists_build (hsize : 0 < size) (hmachine : size < 2 ^ 32)
    (hfits : ∀ operation, build size ≠ .error (.misuse (.overflow operation))) :
    ∃ largest lineSum allLines model, IsExact size largest lineSum allLines ∧
      build size = .ok model ∧
      model.constants = [⟨"magic_sum", .int, [], [.int lineSum]⟩] ∧
      model.vars = (Grid.cells size size).map (entry largest) ∧
      model.constraints =
        distinct size :: (lines size).map equation ++ [totalEquation size allLines] := by
  have hn : (Int64.ofNat size).toInt = size := Int64.toInt_ofNat_of_lt (by omega)
  cases hsum : magicSum (Int64.ofNat size) with
  | error mistake =>
    obtain ⟨operation, rfl⟩ := eq_overflow_of_magicSum hsum
    exact absurd (by rw [build, hsum]; rfl) (hfits operation)
  | ok lineSum =>
    obtain ⟨largest, hlargest, -⟩ := Outcome.bind_eq_ok.mp hsum
    have hexact := Count.multiply_eq_ok.mp hlargest
    rw [hn] at hexact
    have hpositive : 1 ≤ largest.toInt := by
      rw [hexact]
      nlinarith
    obtain ⟨square, hvars, hbuild⟩ := exists_build_eq hsize hlargest hpositive hsum
    cases hall : Count.multiply (Int64.ofNat size) lineSum with
    | error mistake =>
      obtain rfl := Count.eq_overflow_of_multiply hall
      exact absurd (by rw [hbuild, hall]; rfl) (hfits .product)
    | ok allLines =>
      refine ⟨largest, lineSum, allLines, assembled size lineSum allLines square,
        ⟨hexact, ?_, ?_⟩, by rw [hbuild, hall]; rfl, rfl, hvars, rfl⟩
      · rw [toInt_of_magicSum (by omega) hsum, hn]
      · rw [Count.multiply_eq_ok.mp hall, hn]

/-- The sum of all numbers grows with the size. -/
theorem total_le_total {smaller larger : Int} (hsmaller : 0 ≤ smaller) (hle : smaller ≤ larger) :
    smaller * (smaller * (smaller * smaller + 1) / 2) ≤
      larger * (larger * (larger * larger + 1) / 2) := by
  have hsquare : smaller * smaller ≤ larger * larger := mul_le_mul hle hle hsmaller (by omega)
  have hcube : smaller * (smaller * smaller + 1) ≤ larger * (larger * larger + 1) :=
    mul_le_mul hle (by omega) (by positivity) (by omega)
  exact mul_le_mul hle (Int.ediv_le_ediv (by decide) hcube) (by positivity) (by omega)

/-- Up to the size 65535, the sum of all numbers fits. -/
theorem not_overflow_of_le (hsize : 0 < size) (hle : size ≤ 65535) (operation : Overflow) :
    build size ≠ .error (.misuse (.overflow operation)) := by
  have hn : (Int64.ofNat size).toInt = size := Int64.toInt_ofNat_of_lt (by omega)
  obtain ⟨lineSum, hsum⟩ : ∃ lineSum, magicSum (Int64.ofNat size) = .ok lineSum :=
    exists_magicSum (by omega) (by omega)
  obtain ⟨largest, hlargest, -⟩ := Outcome.bind_eq_ok.mp hsum
  have hpositive : 1 ≤ largest.toInt := by
    rw [Count.multiply_eq_ok.mp hlargest, hn]
    nlinarith
  obtain ⟨square, -, hbuild⟩ := exists_build_eq hsize hlargest hpositive hsum
  have htotal : 0 ≤ (Int64.ofNat size).toInt * lineSum.toInt ∧
      (Int64.ofNat size).toInt * lineSum.toInt ≤ 65535 * (65535 * (65535 * 65535 + 1) / 2) := by
    rw [toInt_of_magicSum (by omega) hsum, hn]
    exact ⟨by positivity, total_le_total (by omega) (by omega)⟩
  obtain ⟨allLines, hall⟩ : ∃ allLines,
      Count.multiply (Int64.ofNat size) lineSum = .ok allLines :=
    Count.exists_multiply (by omega) (by omega)
  rw [hbuild, hall]
  rintro ⟨⟩

/-- The numbers overflow for just the sizes from 65536 on. -/
theorem build_overflows_iff (hsize : 0 < size) (hmachine : size < 2 ^ 32) :
    (∃ operation, build size = .error (.misuse (.overflow operation))) ↔ 65535 < size := by
  constructor
  · rintro ⟨operation, hbuild⟩
    by_contra hlarge
    exact not_overflow_of_le hsize (by omega) operation hbuild
  · intro hlarge
    by_contra hnone
    obtain ⟨largest, lineSum, allLines, _, hexact, -⟩ :=
      exists_build hsize hmachine fun operation h => hnone ⟨operation, h⟩
    have htotal : (65536 : Int) * (65536 * (65536 * 65536 + 1) / 2) ≤ allLines.toInt := by
      rw [hexact.toInt_allLines, hexact.toInt_lineSum]
      exact total_le_total (by decide) (by omega)
    have hfits := allLines.toInt_lt
    omega

/-! ## Its solutions -/

section Meaning

variable {model : Model} {lineSum allLines : Int64}
  (hconstants : model.constants = [⟨"magic_sum", .int, [], [.int lineSum]⟩])
  (assignment : String → Int)
include hconstants

theorem value?_number (cell : Cell) :
    (number cell).value? (model.interpretation assignment) =
      some (assignment (name cell.1 cell.2)) := by
  refine Variable.value?_toExpr (entry 0 cell) (.inl rfl) ?_
  rw [Model.interpretation, hconstants, List.forall_mem_singleton]
  exact (name_ne cell).symm

theorem value?_magicSum :
    (Expr.identifier "magic_sum" .int).value? (model.interpretation assignment) =
      some lineSum.toInt := by
  rw [Expr.value?, if_pos (.inl rfl), Model.interpretation, Interpretation.name?,
    Interpretation.constant?, hconstants]
  rfl

theorem holds_equation (line : List Cell) :
    (equation line).Holds (model.interpretation assignment) ↔
      (line.map fun cell => assignment (name cell.1 cell.2)).sum = lineSum.toInt :=
  Constraint.holds_comparison
    (Expr.value?_sum fun cell _ => value?_number hconstants assignment cell)
    (value?_magicSum hconstants assignment) false

theorem satisfies_lines_iff :
    model.Satisfies assignment ((lines size).map equation) ↔
      HasLineSum size (fun row column => assignment (name row column)) lineSum.toInt := by
  simp only [Model.Satisfies, List.forall_mem_map, holds_equation hconstants, forall_mem_lines,
    Grid.row, Grid.column, List.map_map, forall_and]
  exact ⟨fun ⟨⟨hrows, hcolumns⟩, hdiagonal, hantidiagonal⟩ =>
      ⟨hrows, hcolumns, hdiagonal, hantidiagonal⟩,
    fun h => ⟨⟨h.rows, h.columns⟩, h.diagonal, h.antidiagonal⟩⟩

theorem holds_totalEquation :
    (totalEquation size allLines).Holds (model.interpretation assignment) ↔
      ∑ row ∈ Finset.range size, ∑ column ∈ Finset.range size, assignment (name row column) =
        allLines.toInt := by
  rw [totalEquation, Constraint.holds_comparison
    (Expr.value?_sum fun cell _ => value?_number hconstants assignment cell) rfl, Grid.sum_cells]
  rfl

theorem holds_distinct :
    (distinct size).Holds (model.interpretation assignment) ↔
      ∀ row < size, ∀ column < size, ∀ otherRow < size, ∀ otherColumn < size,
        assignment (name row column) = assignment (name otherRow otherColumn) →
          row = otherRow ∧ column = otherColumn := by
  rw [distinct, Constraint.holds_allDifferent
    (fun cell _ => value?_number hconstants assignment cell) Grid.nodup_cells]
  simp only [Grid.mem_cells, Prod.forall, Prod.mk.injEq]
  exact ⟨fun h row hrow column hcolumn otherRow hotherRow otherColumn hotherColumn =>
      h row column ⟨hrow, hcolumn⟩ otherRow otherColumn ⟨hotherRow, hotherColumn⟩,
    fun h row column hcell otherRow otherColumn hother =>
      h row hcell.1 column hcell.2 otherRow hother.1 otherColumn hother.2⟩

end Meaning

theorem isInDomains_iff {largest : Int64} (hlargest : largest.toInt = size * size) {model : Model}
    (hvars : model.vars = (Grid.cells size size).map (entry largest)) (assignment : String → Int) :
    model.IsInDomains assignment ↔
      ∀ row < size, ∀ column < size,
        1 ≤ assignment (name row column) ∧ assignment (name row column) ≤ (size : Int) ^ 2 := by
  rw [Model.IsInDomains, hvars, List.forall_mem_map]
  simp only [Grid.mem_cells, entry, Domain.admits_interval, hlargest, Prod.forall, pow_two]
  exact ⟨fun h row hrow column hcolumn => h row column ⟨hrow, hcolumn⟩,
    fun h row column hcell => h row hcell.1 column hcell.2⟩

section Posted

variable {model : Model} {largest lineSum allLines : Int64}
  (hconstants : model.constants = [⟨"magic_sum", .int, [], [.int lineSum]⟩])
  (hconstraints : model.constraints =
    distinct size :: (lines size).map equation ++ [totalEquation size allLines])

include hconstraints in
theorem required_eq : model.required = distinct size :: (lines size).map equation := by
  rw [Model.required, hconstraints]
  simp [distinct, Constraint.ofGlobal, equation, totalEquation, List.filter_append]

include hconstraints in
theorem filter_redundant_eq :
    model.constraints.filter Constraint.redundant = [totalEquation size allLines] := by
  rw [hconstraints]
  simp [distinct, Constraint.ofGlobal, equation, totalEquation, List.filter_append]

include hconstants hconstraints in
/-- The sum of all numbers follows from those of the rows. -/
theorem satisfies_iff (hexact : IsExact size largest lineSum allLines)
    (assignment : String → Int) :
    model.Satisfies assignment model.constraints ↔
      (distinct size).Holds (model.interpretation assignment) ∧
        model.Satisfies assignment ((lines size).map equation) := by
  have himplied (h : model.Satisfies assignment ((lines size).map equation)) :
      (totalEquation size allLines).Holds (model.interpretation assignment) := by
    have hsums := (satisfies_lines_iff hconstants assignment).mp h
    rw [holds_totalEquation hconstants assignment, hsums.sum_eq, hexact.toInt_allLines]
  rw [hconstraints, Model.satisfies_append, Model.satisfies_cons, Model.satisfies_singleton]
  exact ⟨And.left, fun h => ⟨h, himplied h.2⟩⟩

end Posted

/-- If no number that is computed for a size overflows, the model for that size is built, and
the assignments within the domains that satisfy all its constraints are the magic squares.  One
of the constraints is marked as redundant, and it holds wherever the others do.  A size has
32 bits. -/
theorem solutions_eq_magic_squares (hsize : 0 < size) (hmachine : size < 2 ^ 32)
    (hfits : ∀ operation, build size ≠ .error (.misuse (.overflow operation))) :
    ∃ model, build size = .ok model ∧
      model.vars.map Variable.name =
        (Grid.cells size size).map (fun cell => name cell.1 cell.2) ∧
      (model.constraints.filter Constraint.redundant).length = 1 ∧
      ∀ assignment,
        (model.IsInDomains assignment ∧ model.Satisfies assignment model.constraints ↔
          IsMagic size fun row column => assignment (name row column)) ∧
        (model.Satisfies assignment model.required →
          model.Satisfies assignment model.constraints) := by
  obtain ⟨largest, lineSum, allLines, model, hexact, hbuild, hconstants, hvars, hconstraints⟩ :=
    exists_build hsize hmachine hfits
  have hsatisfies := satisfies_iff hconstants hconstraints hexact
  refine ⟨model, hbuild, ?names, congrArg List.length (filter_redundant_eq hconstraints),
    fun assignment => ⟨?squares, ?implied⟩⟩
  case names =>
    rw [hvars, List.map_map]
    rfl
  case squares =>
    rw [isInDomains_iff hexact.toInt_largest hvars, hsatisfies, satisfies_lines_iff hconstants,
      holds_distinct hconstants]
    constructor
    · rintro ⟨hbounds, hdistinct, hsums⟩
      exact ⟨⟨hbounds, hdistinct⟩, _, hsums⟩
    · rintro ⟨hfilled, total, hsums⟩
      have htotal : total = lineSum.toInt :=
        (hfilled.lineSum_eq hsums hsize).trans hexact.toInt_lineSum.symm
      exact ⟨hfilled.bounds, hfilled.distinct, htotal ▸ hsums⟩
  case implied =>
    rw [required_eq hconstraints, hsatisfies, Model.satisfies_cons]
    exact id

/-- The square with the rows 2, 7, 6 and 9, 5, 1 and 4, 3, 8. -/
def threeRows (text : String) : Int :=
  let numbers := [("square_0_0", 2), ("square_0_1", 7), ("square_0_2", 6),
    ("square_1_0", 9), ("square_1_1", 5), ("square_1_2", 1),
    ("square_2_0", 4), ("square_2_1", 3), ("square_2_2", 8)]
  (numbers.lookup text).getD 0

theorem threeRows_is_solution :
    ∃ model, build 3 = .ok model ∧
      model.IsInDomains threeRows ∧ model.Satisfies threeRows model.constraints := by
  obtain ⟨model, hbuild, -, -, hsolutions⟩ := solutions_eq_magic_squares (show 0 < 3 by decide)
    (by decide) (not_overflow_of_le (by decide) (by decide))
  have hdistinct : ∀ row < 3, ∀ column < 3, ∀ otherRow < 3, ∀ otherColumn < 3,
      threeRows (name row column) = threeRows (name otherRow otherColumn) →
        row = otherRow ∧ column = otherColumn := by
    intro row hrow column hcolumn
    interval_cases row <;> interval_cases column <;> decide +kernel
  refine ⟨model, hbuild,
    (hsolutions threeRows).1.mpr ⟨⟨?_, hdistinct⟩, 15, ?_, ?_, ?_, ?_⟩⟩ <;> decide +kernel

end MagicSquare

end MiniZincModels.Gallery
