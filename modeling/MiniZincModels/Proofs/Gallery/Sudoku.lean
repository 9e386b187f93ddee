import Mathlib.Data.List.Perm.Basic
import MiniZincModels.Gallery.Sudoku
import MiniZincModels.Proofs.Gallery.Grid

/-!
# The groups of the sudoku model

The model is built for boxes of every size whose grid has a machine integer as its width.
Rows, columns and boxes each share out the cells of the grid, because every cell is told its
row, its column and its box, and a group holds just the cells that are told of it.
-/

namespace MiniZincModels.Gallery

/-! ## Sharing out the cells of a grid -/

namespace Grid

variable {width : Nat} {family : List (List Cell)}

/-- As many groups as a grid is wide, each of as many cells, with every cell of the grid in
exactly one place of one group. -/
structure IsPartition (width : Nat) (family : List (List Cell)) : Prop where
  length : family.length = width
  size : ∀ group ∈ family, group.Nodup ∧ group.length = width
  cells : family.flatten.Perm (cells width width)

theorem IsPartition.ne_nil (h : IsPartition width family) (hwidth : 0 < width) :
    ∀ group ∈ family, group ≠ [] :=
  fun group hgroup => List.ne_nil_of_length_pos (by rwa [(h.size group hgroup).2])

theorem IsPartition.mem_cells (h : IsPartition width family) {group : List Cell} {cell : Cell}
    (hgroup : group ∈ family) (hcell : cell ∈ group) : cell ∈ Grid.cells width width :=
  h.cells.mem_iff.mp (List.mem_flatten.mpr ⟨group, hgroup, hcell⟩)

/-- The groups of the given labels hold the cells of a grid which have that label. -/
structure Classifies {ι : Type} (width : Nat) (label : Cell → ι) (labels : List ι)
    (group : ι → List Cell) : Prop where
  nodup : labels.Nodup
  nodupGroup : ∀ place ∈ labels, (group place).Nodup
  labelled : ∀ cell ∈ cells width width, label cell ∈ labels
  mem : ∀ place ∈ labels, ∀ cell,
    cell ∈ group place ↔ cell ∈ cells width width ∧ label cell = place

section Classes

variable {ι : Type} {label : Cell → ι} {labels : List ι} {group : ι → List Cell}

theorem Classifies.perm_cells (h : Classifies width label labels group) :
    (labels.map group).flatten.Perm (cells width width) := by
  have hdisjoint : labels.Pairwise (Function.onFun List.Disjoint group) := by
    refine h.nodup.imp_of_mem fun {left right} hleft hright hne cell hcell hother => hne ?_
    rw [← ((h.mem left hleft cell).mp hcell).2, ((h.mem right hright cell).mp hother).2]
  rw [List.perm_ext_iff_of_nodup _ nodup_cells]
  · intro cell
    simp only [List.mem_flatten, List.mem_map, exists_exists_and_eq_and]
    constructor
    · rintro ⟨place, hplace, hcell⟩
      exact ((h.mem place hplace cell).mp hcell).1
    · intro hcell
      have hplace := h.labelled cell hcell
      exact ⟨label cell, hplace, (h.mem _ hplace cell).mpr ⟨hcell, rfl⟩⟩
  · rw [← List.flatMap_def]
    exact List.nodup_flatMap.mpr ⟨h.nodupGroup, hdisjoint⟩

/-- A cell is in the group of its label and in no other. -/
theorem Classifies.filter_eq (h : Classifies width label labels group) {cell : Cell}
    (hcell : cell ∈ cells width width) :
    (labels.map group).filter (cell ∈ ·) = [group (label cell)] := by
  classical
  have hlabel := h.labelled cell hcell
  have hsame : labels.filter (fun place => cell ∈ group place) =
      labels.filter (· = label cell) := by
    refine List.filter_congr fun place hplace => ?_
    simp [h.mem place hplace cell, hcell, eq_comm]
  have honce : labels.filter (· = label cell) = [label cell] := by
    rw [List.filter_eq, List.count_eq_one_of_mem h.nodup hlabel]
    rfl
  rw [List.filter_map, Function.comp_def, hsame, honce]
  rfl

theorem Classifies.isPartition (h : Classifies width label labels group)
    (hlabels : labels.length = width) (hgroups : ∀ place ∈ labels, (group place).length = width) :
    IsPartition width (labels.map group) where
  length := by rw [List.length_map, hlabels]
  size := List.forall_mem_map.mpr fun place hplace =>
    ⟨h.nodupGroup place hplace, hgroups place hplace⟩
  cells := h.perm_cells

end Classes

theorem classifies_rows (width : Nat) :
    Classifies width Prod.fst (List.range width) (row width) where
  nodup := List.nodup_range
  nodupGroup line _ := List.nodup_range.map (Prod.mk_right_injective line)
  labelled cell hcell := List.mem_range.mpr (mem_cells.mp hcell).1
  mem line hline cell := by
    obtain ⟨cellRow, cellColumn⟩ := cell
    rw [List.mem_range] at hline
    simp only [row, List.mem_map, List.mem_range, Prod.mk.injEq, mem_cells]
    constructor
    · rintro ⟨column, hcolumn, rfl, rfl⟩
      exact ⟨⟨hline, hcolumn⟩, rfl⟩
    · rintro ⟨⟨-, hcolumn⟩, rfl⟩
      exact ⟨cellColumn, hcolumn, rfl, rfl⟩

theorem classifies_columns (width : Nat) :
    Classifies width Prod.snd (List.range width) (column width) where
  nodup := List.nodup_range
  nodupGroup line _ := List.nodup_range.map (Prod.mk_left_injective line)
  labelled cell hcell := List.mem_range.mpr (mem_cells.mp hcell).2
  mem line hline cell := by
    obtain ⟨cellRow, cellColumn⟩ := cell
    rw [List.mem_range] at hline
    simp only [column, List.mem_map, List.mem_range, Prod.mk.injEq, mem_cells]
    constructor
    · rintro ⟨row, hrow, rfl, rfl⟩
      exact ⟨⟨hrow, hline⟩, rfl⟩
    · rintro ⟨⟨hrow, -⟩, rfl⟩
      exact ⟨cellRow, hrow, rfl, rfl⟩

theorem isPartition_rows (width : Nat) :
    IsPartition width ((List.range width).map (row width)) :=
  (classifies_rows width).isPartition List.length_range fun _ _ => by
    rw [row, List.length_map, List.length_range]

theorem isPartition_columns (width : Nat) :
    IsPartition width ((List.range width).map (column width)) :=
  (classifies_columns width).isPartition List.length_range fun _ _ => by
    rw [column, List.length_map, List.length_range]

theorem length_cells (rows columns : Nat) : (cells rows columns).length = rows * columns := by
  simp [cells, List.length_flatMap]

end Grid

namespace Sudoku

variable {size width : Nat} {cell place : Cell}

/-- The cells of the grid for boxes of a given size. -/
abbrev grid (size : Nat) : List Cell :=
  Grid.cells (size * size) (size * size)

/-! ## Boxes -/

/-- The place of the box of a cell among the boxes. -/
def boxOf (size : Nat) (cell : Cell) : Cell :=
  (cell.1 / size, cell.2 / size)

theorem mem_box (hsize : 0 < size) : cell ∈ box size place ↔ boxOf size cell = place := by
  constructor
  · intro hcell
    obtain ⟨inner, hinner, rfl⟩ := List.mem_map.mp hcell
    obtain ⟨hrow, hcolumn⟩ := Grid.mem_cells.mp hinner
    have hdiv {outer inner : Nat} (hinner : inner < size) :
        (outer * size + inner) / size = outer := by
      rw [Nat.mul_comm, Nat.mul_add_div hsize, Nat.div_eq_of_lt hinner, Nat.add_zero]
    rw [boxOf, hdiv hrow, hdiv hcolumn]
  · rintro rfl
    have hinner : (cell.1 % size, cell.2 % size) ∈ Grid.cells size size :=
      Grid.mem_cells.mpr ⟨Nat.mod_lt _ hsize, Nat.mod_lt _ hsize⟩
    refine List.mem_map.mpr ⟨_, hinner, ?_⟩
    rw [boxOf, Nat.div_add_mod', Nat.div_add_mod']

/-- The cells of the grid are those which have a box. -/
theorem boxOf_mem_cells (hsize : 0 < size) :
    boxOf size cell ∈ Grid.cells size size ↔ cell ∈ grid size := by
  rw [Grid.mem_cells, Grid.mem_cells, boxOf, Nat.div_lt_iff_lt_mul hsize,
    Nat.div_lt_iff_lt_mul hsize]

theorem classifies_boxes (hsize : 0 < size) :
    Grid.Classifies (size * size) (boxOf size) (Grid.cells size size) (box size) where
  nodup := Grid.nodup_cells
  nodupGroup place _ := Grid.nodup_cells.map fun left right heq => by
    simpa [Prod.ext_iff] using heq
  labelled cell hcell := (boxOf_mem_cells hsize).mpr hcell
  mem place hplace cell := by
    rw [mem_box hsize, ← boxOf_mem_cells hsize]
    exact ⟨fun hbox => ⟨hbox ▸ hplace, hbox⟩, And.right⟩

/-- Rows, columns and boxes, each of them one after the other. -/
theorem groups_perm (size : Nat) :
    (groups size).Perm
      ((List.range (size * size)).map (Grid.row (size * size)) ++
        (List.range (size * size)).map (Grid.column (size * size)) ++
        (Grid.cells size size).map (box size)) := by
  have hlines := List.flatMap_append_perm (List.range (size * size))
    (fun line => [Grid.row (size * size) line]) (fun line => [Grid.column (size * size) line])
  rw [← List.map_eq_flatMap, ← List.map_eq_flatMap] at hlines
  exact hlines.symm.append_right _

theorem isPartition_boxes (hsize : 0 < size) :
    Grid.IsPartition (size * size) ((Grid.cells size size).map (box size)) :=
  (classifies_boxes hsize).isPartition (Grid.length_cells size size) fun _ _ => by
    rw [box, List.length_map, Grid.length_cells]

/-- Every group holds cells of the grid, and is not empty. -/
theorem cells_of_mem_groups (hsize : 0 < size) {group : List Cell} (hgroup : group ∈ groups size) :
    group ≠ [] ∧ ∀ cell ∈ group, cell ∈ grid size := by
  have hwidth : 0 < size * size := Nat.mul_pos hsize hsize
  have hcells {family : List (List Cell)} (h : Grid.IsPartition (size * size) family)
      (hmem : group ∈ family) :
      group ≠ [] ∧ ∀ cell ∈ group, cell ∈ grid size :=
    ⟨h.ne_nil hwidth group hmem, fun cell hcell => h.mem_cells hmem hcell⟩
  rw [(groups_perm size).mem_iff, List.mem_append, List.mem_append] at hgroup
  rcases hgroup with (hrow | hcolumn) | hbox
  · exact hcells (Grid.isPartition_rows _) hrow
  · exact hcells (Grid.isPartition_columns _) hcolumn
  · exact hcells (isPartition_boxes hsize) hbox

/-! ## The model -/

/-- The name of the variable for a cell. -/
def name (cell : Cell) : String :=
  "cell_" ++ toString cell.1 ++ "_" ++ toString cell.2

/-- The domain of a cell: its given number, or all numbers up to the width of the grid. -/
def cellDomain (width : Nat) (cell : Cell) : Domain :=
  if width = 9 ∧ 0 < (given cell).toInt then .int (.values (IntSet.ofList [given cell]))
  else .int (.interval 1 (Int64.ofNat width))

/-- The variable for a cell. -/
def entry (width : Nat) (cell : Cell) : Variable :=
  ⟨name cell, cellDomain width cell⟩

/-- The number in a cell. -/
def number (cell : Cell) : Expr :=
  .identifier (name cell) .int

/-- The cells of a group hold different numbers, which is to be propagated to the domains. -/
def distinct (group : List Cell) : Constraint :=
  (Constraint.ofGlobal .allDifferent [.array (group.map number)]).withPropagation .domain

theorem variableName_eq (cell : Cell) : (Grid.key cell).variableName "cell" = name cell :=
  IndexKey.variableName_pair (by decide) cell.1 cell.2

theorem name_injective : Function.Injective name := by
  simpa only [variableName_eq] using Grid.variableName_key_injective "cell"

theorem toExpr_entry (width : Nat) (cell : Cell) : (entry width cell).toExpr = number cell := by
  rw [Variable.toExpr, Variable.kind, entry, cellDomain]
  split <;> rfl

theorem resolve_cellDefinition (hwidth : 0 < width) (hfits : width < 2 ^ 63) (cell : Cell) :
    (cellDefinition width cell).resolve = .ok (cellDomain width cell) := by
  rw [cellDefinition, cellDomain]
  split
  · rfl
  · refine Definition.resolve_ofInterval ?_
    rw [Int64.toInt_ofNat_of_lt hfits, Int64.toInt_one]
    omega

/-- The first cell is checked before the cells are listed. -/
theorem checkFirst_eq_ok (hfits : width < 2 ^ 63) :
    Grid.checkFirst "cell" width (cellDefinition width (0, 0)) = .ok () := by
  rw [Grid.checkFirst]
  split
  · rfl
  · rename_i hwidth
    rw [Variable.define, resolve_cellDefinition (by omega) hfits]
    rfl

/-- The cells as the model declares them. -/
theorem exists_cells (hfits : width < 2 ^ 63) :
    ∃ collection,
      Model.empty.addVariablesWith "cell"
          ((Grid.cells width width).map fun cell => (Grid.key cell, cellDefinition width cell)) =
        .ok (collection, Model.empty.withCollection collection) ∧
      collection.Covers (Grid.cells width width) Grid.key (entry width) :=
  Model.exists_addVariablesWith_covers (by decide) Grid.nodup_keys
    (fun cell _ => Grid.hasType_key cell) (fun cell _ => variableName_eq cell)
    (fun cell hcell =>
      resolve_cellDefinition ((Nat.zero_le _).trans_lt (Grid.mem_cells.mp hcell).1) hfits cell)
    fun _ _ => List.not_mem_nil

theorem mapM_distinct {collection : Collection}
    (hcovers : collection.Covers (grid size) Grid.key (entry (size * size))) :
    ((groups size).mapM fun group => (do
      let members ← Grid.lookUp collection group
      let constraint ← Constraint.allDifferent members
      return constraint.withPropagation .domain : Except Failure Constraint)) =
      .ok ((groups size).map distinct) := by
  refine Outcome.mapM_eq_ok_map fun group hgroup => ?_
  have hsize : 0 < size := Nat.pos_of_ne_zero (by rintro rfl; cases hgroup)
  obtain ⟨hsome, hcells⟩ := cells_of_mem_groups hsize hgroup
  have hmembers : Grid.lookUp collection group = .ok (group.map number) := by
    rw [Grid.lookUp_eq_ok hcovers hcells]
    simp only [toExpr_entry]
  have hbuilt : Constraint.allDifferent (group.map number) =
      .ok (.ofGlobal .allDifferent [.array (group.map number)]) :=
    Constraint.onArray_eq_ok.mpr ⟨by simpa using hsome, rfl⟩
  rw [hmembers, Failure.unchecked_ok_bind, hbuilt]
  rfl

/-- The model is built, with a variable for every cell and a constraint for every group. -/
theorem exists_build (hfits : size * size < 2 ^ 63) :
    ∃ model, build size = .ok model ∧
      model.vars = (grid size).map (entry (size * size)) ∧
      model.constraints = (groups size).map distinct := by
  obtain ⟨collection, hadded, hcovers⟩ := exists_cells hfits
  let posted := (Model.empty.withCollection collection).register ((groups size).map distinct)
  refine ⟨posted.satisfy, ?_, hcovers.vars, rfl⟩
  simp only [build, checkFirst_eq_ok hfits, hadded, mapM_distinct hcovers, Model.post_items,
    Failure.checked_ok_bind, Failure.ok_bind]
  rfl

/-! ## Its groups -/

/-- Every cell is in three groups: its row, its column and its box. -/
theorem filter_groups (hsize : 0 < size) (hcell : cell ∈ grid size) :
    ((List.range (size * size)).map (Grid.row (size * size)) ++
        (List.range (size * size)).map (Grid.column (size * size)) ++
        (Grid.cells size size).map (box size)).filter (cell ∈ ·) =
      [Grid.row (size * size) cell.1, Grid.column (size * size) cell.2,
        box size (boxOf size cell)] := by
  rw [List.filter_append, List.filter_append, (Grid.classifies_rows _).filter_eq hcell,
    (Grid.classifies_columns _).filter_eq hcell, (classifies_boxes hsize).filter_eq hcell]
  rfl

/-- The puzzle has a number or a zero for every cell of a grid that is nine cells wide. -/
theorem puzzle_eq_some (hrow : cell.1 < 9) (hcolumn : cell.2 < 9) :
    (puzzle[cell.1]?.bind fun entries => entries[cell.2]?) = some (given cell) := by
  have hcells : ∀ row < 9, ∀ column < 9,
      (puzzle[row]?.bind fun entries => entries[column]?) = some (given (row, column)) := by
    decide
  exact hcells cell.1 hrow cell.2 hcolumn

end Sudoku

end MiniZincModels.Gallery
