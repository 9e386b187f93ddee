import Mathlib.Algebra.BigOperators.Intervals
import MiniZincModels.Gallery.Grid
import MiniZincModels.Proofs.Model.Assembly

/-!
# Names and sums on grids

The variables of a collection are told apart by the numbers in their keys, and collections
whose bases begin with different letters share no name.  A grid has each of its cells once,
so its variables are found, and sums over its cells are sums over rows and columns.
-/

namespace MiniZincModels

/-! ## Names -/

namespace IndexKey

theorem head?_variableName {base : String} (hbase : Identifier.isValid base = true)
    (key : IndexKey) : (key.variableName base).toList.head? = base.toList.head? := by
  obtain ⟨first, rest, hchars, -⟩ := Identifier.exists_head hbase
  have hsanitized : Identifier.sanitize base = base :=
    Identifier.sanitize_eq_self (Identifier.isNameCharacter_of_mem hbase)
  rw [toList_variableName, hsanitized, hchars]
  rfl

/-- A name that begins with another letter is the name of no variable. -/
theorem variableName_ne {base name : String} (hbase : Identifier.isValid base = true)
    (hletters : base.toList.head? ≠ name.toList.head?) (key : IndexKey) :
    key.variableName base ≠ name := by
  rintro rfl
  exact hletters (head?_variableName hbase key).symm

theorem isNameCharacter_of_mem_toString (value : Nat) :
    ∀ c ∈ (toString value).toList, Identifier.isNameCharacter c = true := by
  intro c hc
  rw [Nat.toString_eq_ofList_toDigits, String.toList_ofList] at hc
  simp [Identifier.isNameCharacter, Char.isAlphanum, Text.isDigit_of_mem_toDigits c hc]

theorem variableName_single {base : String} (hbase : Identifier.isValid base = true)
    (value : Nat) : (single value).variableName base = base ++ "_" ++ toString value := by
  have hjoined : "_".intercalate (base :: (single value).components) =
      base ++ "_" ++ toString value := rfl
  rw [variableName, hjoined]
  apply Identifier.sanitize_eq_self
  simp only [String.toList_append, List.forall_mem_append]
  exact ⟨⟨Identifier.isNameCharacter_of_mem hbase, by decide⟩,
    isNameCharacter_of_mem_toString value⟩

theorem variableName_pair {base : String} (hbase : Identifier.isValid base = true)
    (first second : Nat) :
    (pair first second).variableName base =
      base ++ "_" ++ toString first ++ "_" ++ toString second := by
  have hjoined : "_".intercalate (base :: (pair first second).components) =
      base ++ "_" ++ toString first ++ "_" ++ toString second := rfl
  rw [variableName, hjoined]
  apply Identifier.sanitize_eq_self
  simp only [String.toList_append, List.forall_mem_append]
  exact ⟨⟨⟨⟨Identifier.isNameCharacter_of_mem hbase, by decide⟩,
    isNameCharacter_of_mem_toString first⟩, by decide⟩, isNameCharacter_of_mem_toString second⟩

theorem hasType_single (value : Nat) : (single value).HasType .integer :=
  trivial

theorem hasType_pair (first second : Nat) :
    (pair first second).HasType (.tuple [.integer, .integer]) :=
  ⟨trivial, trivial, trivial⟩

theorem single_injective : Function.Injective single := by
  intro left right h
  simpa [single] using h

/-- The variables for different numbers have different names. -/
theorem variableName_single_injective (base : String) :
    Function.Injective fun value => (single value).variableName base := fun left right h =>
  single_injective (eq_of_variableName (hasType_single left) (hasType_single right) h)

end IndexKey

namespace Gallery.Grid

variable {rows columns size : Nat} {cell : Cell}

theorem key_injective : Function.Injective key := by
  rintro ⟨row, column⟩ ⟨otherRow, otherColumn⟩ h
  simpa [key, IndexKey.pair] using h

theorem hasType_key (cell : Cell) : (key cell).HasType (.tuple [.integer, .integer]) :=
  IndexKey.hasType_pair cell.1 cell.2

/-- The variables for different cells have different names. -/
theorem variableName_key_injective (base : String) :
    Function.Injective fun cell => (key cell).variableName base := fun left right h =>
  key_injective (IndexKey.eq_of_variableName (hasType_key left) (hasType_key right) h)

/-! ## Cells -/

theorem mem_cells : cell ∈ cells rows columns ↔ cell.1 < rows ∧ cell.2 < columns := by
  obtain ⟨row, column⟩ := cell
  simp [cells]

theorem nodup_cells : (cells rows columns).Nodup :=
  List.Nodup.product List.nodup_range List.nodup_range

theorem nodup_keys : ((cells rows columns).map key).Nodup :=
  nodup_cells.map key_injective

/-- To check the first cell in advance changes no outcome: a grid that is refused then would be
refused with the same error when its cells are declared. -/
theorem checkFirst_bind {model : Model} {base : String} (hbase : Identifier.isValid base = true)
    (hfree : (key (0, 0)).variableName base ∉ model.identifiers) (definition : Cell → Definition) :
    (checkFirst base size (definition (0, 0)) >>= fun _ =>
      model.addVariablesWith base
        ((cells size size).map fun cell => (key cell, definition cell))) =
      model.addVariablesWith base
        ((cells size size).map fun cell => (key cell, definition cell)) := by
  cases size with
  | zero => rfl
  | succ last =>
    rw [checkFirst, if_neg (Nat.succ_ne_zero last)]
    cases hdefine : Variable.define ((key (0, 0)).variableName base) (definition (0, 0)) with
    | ok declared => rfl
    | error error =>
      obtain ⟨rest, hcells⟩ : ∃ rest, cells (last + 1) (last + 1) = (0, 0) :: rest := by
        rw [cells, List.range_succ_eq_map]
        exact ⟨_, rfl⟩
      rw [hcells, List.map_cons, Model.addVariablesWith_of_define_error hbase hfree hdefine]
      rfl

/-- Row by row, all cells are summed up. -/
theorem sum_cells (value : Cell → Int) :
    ((cells rows columns).map value).sum =
      ∑ row ∈ Finset.range rows, ∑ column ∈ Finset.range columns, value (row, column) := by
  rw [cells, List.map_flatMap, List.flatMap_def, List.sum_flatten, List.map_map]
  simp only [Function.comp_def, List.map_map]
  rfl

/-- Cells that a collection covers are found. -/
theorem lookUp_eq_ok {collection : Collection} {covered line : List Cell}
    {declared : Cell → Variable} (hcovers : collection.Covers covered key declared)
    (hline : ∀ cell ∈ line, cell ∈ covered) :
    lookUp collection line = .ok (line.map fun cell => (declared cell).toExpr) := by
  apply Outcome.mapM_eq_ok_map
  intro cell hmem
  rw [hcovers.item cell (hline cell hmem)]
  rfl

end Gallery.Grid

end MiniZincModels
