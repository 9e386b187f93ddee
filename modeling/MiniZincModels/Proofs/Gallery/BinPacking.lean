import Mathlib.Algebra.BigOperators.Intervals
import Mathlib.Algebra.BigOperators.Ring.Finset
import Mathlib.Algebra.Order.BigOperators.Group.Finset
import Mathlib.Data.Nat.Count
import MiniZincModels.Gallery.BinPacking
import MiniZincModels.Proofs.Gallery.Grid
import MiniZincModels.Proofs.Model.Solutions

/-!
# The solutions of the bin packing model

The model for any number of items is built, and its solutions use just as many bins as the
items can be distributed over.  Renumbering the bins in use shows that it is no loss to have
these first, and comparing the weight of all items with the capacity of the bins in use
gives the bound that is marked as redundant.
-/

namespace MiniZincModels.Gallery.BinPacking

variable {items bins : Nat} {inBin : Nat → Nat → Int} {used : Nat → Int}

/-! ## Packings -/

/-- The weight of an item: ten weights are given to the items in turn. -/
def weightAt (item : Nat) : Int :=
  [4, 8, 1, 4, 2, 1, 7, 3, 6, 5].getD (item % 10) 0

/-- The items can be distributed over a number of bins, some of which may stay empty. -/
def CanPack (items bins : Nat) : Prop :=
  ∃ place : Nat → Nat, (∀ item < items, place item < bins) ∧
    ∀ bin < bins, ∑ item ∈ Finset.range items with place item = bin, weightAt item ≤ 10

theorem weightAt_mod (item : Nat) : weightAt (item % 10) = weightAt item := by
  rw [weightAt, Nat.mod_mod, weightAt]

theorem weightAt_bounds (item : Nat) : 1 ≤ weightAt item ∧ weightAt item ≤ 8 := by
  have hbounds : ∀ turn < 10, 1 ≤ weightAt turn ∧ weightAt turn ≤ 8 := by decide
  rw [← weightAt_mod]
  exact hbounds _ (Nat.mod_lt _ (by decide))

/-- The weight in the model is that of the item. -/
theorem toInt_weightOf (item : Nat) : (weightOf item).toInt = weightAt item := by
  have hturns : ∀ turn < 10, ((weightCycle[turn]?).getD 0).toInt = weightAt turn := by decide
  rw [← weightAt_mod]
  exact hturns _ (Nat.mod_lt _ (by decide))

/-- Every item lies in one bin, and no bin in use holds more than its capacity. -/
structure IsLoaded (items : Nat) (inBin : Nat → Nat → Int) (used : Nat → Int) : Prop where
  placed : ∀ item < items, ∑ bin ∈ Finset.range items, inBin bin item = 1
  fits : ∀ bin < items,
    ∑ item ∈ Finset.range items, weightAt item * inBin bin item ≤ 10 * used bin

/-- All flags are 0 or 1. -/
structure IsFlagged (items : Nat) (inBin : Nat → Nat → Int) (used : Nat → Int) : Prop where
  inBin : ∀ bin < items, ∀ item < items, inBin bin item = 0 ∨ inBin bin item = 1
  used : ∀ bin < items, used bin = 0 ∨ used bin = 1

/-- The bins in use come first. -/
def UsedFirst (items : Nat) (used : Nat → Int) : Prop :=
  (List.range items).Pairwise fun left right => used right ≤ used left

/-- The flags of the bins in use are counted by their sum. -/
theorem IsFlagged.sum_used (h : IsFlagged items inBin used) :
    ∑ bin ∈ Finset.range items, used bin = Nat.count (fun bin => used bin = 1) items := by
  rw [Nat.count_eq_card_filter_range, Finset.card_filter, Nat.cast_sum]
  refine Finset.sum_congr rfl fun bin hbin => ?_
  obtain hunused | hused := h.used bin (Finset.mem_range.mp hbin) <;> simp [*]

/-- Items that lie in a bin weigh no more than what it holds. -/
theorem IsFlagged.sum_weightAt_le (h : IsFlagged items inBin used) {bin : Nat} (hbin : bin < items)
    {chosen : Finset Nat} (hchosen : ∀ item ∈ chosen, item < items ∧ inBin bin item = 1) :
    ∑ item ∈ chosen, weightAt item ≤
      ∑ item ∈ Finset.range items, weightAt item * inBin bin item := by
  have hnonneg (item : Nat) (hitem : item < items) : 0 ≤ weightAt item * inBin bin item := by
    have hweight := (weightAt_bounds item).1
    obtain hzero | hone := h.inBin bin hbin item hitem
    · rw [hzero, mul_zero]
    · rw [hone]
      omega
  calc ∑ item ∈ chosen, weightAt item
      = ∑ item ∈ chosen, weightAt item * inBin bin item :=
        Finset.sum_congr rfl fun item hmem => by rw [(hchosen item hmem).2, mul_one]
    _ ≤ ∑ item ∈ Finset.range items, weightAt item * inBin bin item :=
        Finset.sum_le_sum_of_subset_of_nonneg
          (fun item hmem => Finset.mem_range.mpr (hchosen item hmem).1)
          fun item hmem _ => hnonneg item (Finset.mem_range.mp hmem)

/-- Every item lies in some bin, which is in use. -/
theorem IsLoaded.exists_bin (h : IsLoaded items inBin used) (hflags : IsFlagged items inBin used)
    {item : Nat} (hitem : item < items) : ∃ bin < items, inBin bin item = 1 ∧ used bin = 1 := by
  obtain ⟨bin, hbin, hplaced⟩ : ∃ bin ∈ Finset.range items, inBin bin item ≠ 0 :=
    Finset.exists_ne_zero_of_sum_ne_zero (by rw [h.placed item hitem]; decide)
  rw [Finset.mem_range] at hbin
  have hone : inBin bin item = 1 := (hflags.inBin bin hbin item hitem).resolve_left hplaced
  have hload : ∑ item ∈ {item}, weightAt item ≤
      ∑ item ∈ Finset.range items, weightAt item * inBin bin item :=
    hflags.sum_weightAt_le hbin
      fun other hother => Finset.mem_singleton.mp hother ▸ ⟨hitem, hone⟩
  rw [Finset.sum_singleton] at hload
  have hweight := (weightAt_bounds item).1
  have hfits := h.fits bin hbin
  exact ⟨bin, hbin, hone, (hflags.used bin hbin).resolve_left (by omega)⟩

/-- If the bins in use are numbered in order, the items are distributed over them. -/
theorem IsLoaded.canPack (h : IsLoaded items inBin used) (hflags : IsFlagged items inBin used) :
    CanPack items (Nat.count (fun bin => used bin = 1) items) := by
  choose! bin hbin hplaced hused using fun item (hitem : item < items) => h.exists_bin hflags hitem
  refine ⟨fun item => Nat.count (fun bin => used bin = 1) (bin item),
    fun item hitem => Nat.count_strict_mono (hused item hitem) (hbin item hitem),
    fun number _ => ?_⟩
  obtain hnone | ⟨first, hfirst⟩ := ((Finset.range items).filter fun item =>
    Nat.count (fun bin => used bin = 1) (bin item) = number).eq_empty_or_nonempty
  · rw [hnone, Finset.sum_empty]
    decide
  · simp only [Finset.mem_filter, Finset.mem_range] at hfirst
    obtain ⟨hitem, rfl⟩ := hfirst
    have hsame : ∀ item ∈ (Finset.range items).filter fun item =>
        Nat.count (fun bin => used bin = 1) (bin item) =
          Nat.count (fun bin => used bin = 1) (bin first),
        item < items ∧ inBin (bin first) item = 1 := by
      intro item hmem
      simp only [Finset.mem_filter, Finset.mem_range] at hmem
      have hbins := Nat.count_injective (hused item hmem.1) (hused first hitem) hmem.2
      exact ⟨hmem.1, hbins ▸ hplaced item hmem.1⟩
    calc _ ≤ ∑ item ∈ Finset.range items, weightAt item * inBin (bin first) item :=
          hflags.sum_weightAt_le (hbin first hitem) hsame
      _ ≤ 10 * used (bin first) := h.fits _ (hbin first hitem)
      _ = 10 := by rw [hused first hitem, mul_one]

/-- The flags of a distribution. -/
theorem exists_flags_of_canPack (hbins : bins ≤ items) (h : CanPack items bins) :
    ∃ inBin used, IsFlagged items inBin used ∧ IsLoaded items inBin used ∧
      UsedFirst items used ∧ ∑ bin ∈ Finset.range items, used bin = bins := by
  obtain ⟨place, hplace, hfits⟩ := h
  refine ⟨fun bin item => if place item = bin then 1 else 0, fun bin => if bin < bins then 1 else 0,
    ⟨?_, ?_⟩, ⟨?_, ?_⟩, ?_, ?_⟩
  · intro bin _ item _
    exact (ite_eq_or_eq _ _ _).symm
  · intro bin _
    exact (ite_eq_or_eq _ _ _).symm
  · intro item hitem
    have hmem := (hplace item hitem).trans_le hbins
    simp [hmem]
  · intro bin hbin
    simp only [mul_ite, mul_one, mul_zero, ← Finset.sum_filter]
    split
    · rename_i hused
      exact hfits bin hused
    · rename_i hunused
      have hempty : (Finset.range items).filter (fun item => place item = bin) = ∅ :=
        Finset.filter_eq_empty_iff.mpr fun item hmem => by
          have := hplace item (Finset.mem_range.mp hmem)
          omega
      rw [hempty, Finset.sum_empty]
  · refine List.pairwise_lt_range.imp fun hlt => ?_
    dsimp only
    split <;> split <;> omega
  · have hfirst : (Finset.range items).filter (· < bins) = Finset.range bins := by
      ext bin
      simp only [Finset.mem_filter, Finset.mem_range]
      omega
    rw [Finset.sum_boole, hfirst, Finset.card_range]

/-- Every item may have a bin of its own. -/
theorem canPack_self (items : Nat) : CanPack items items := by
  refine ⟨id, fun _ hitem => hitem, fun bin hbin => ?_⟩
  have hweight := (weightAt_bounds bin).2
  rw [Finset.sum_filter]
  simp only [id_eq, Finset.sum_ite_eq', Finset.mem_range, hbin, if_true]
  omega

/-- The bins in use can hold all items. -/
theorem IsLoaded.sum_weightAt_le (h : IsLoaded items inBin used) :
    ∑ item ∈ Finset.range items, weightAt item ≤ 10 * ∑ bin ∈ Finset.range items, used bin := by
  calc ∑ item ∈ Finset.range items, weightAt item
      = ∑ item ∈ Finset.range items, ∑ bin ∈ Finset.range items,
          weightAt item * inBin bin item := by
        refine Finset.sum_congr rfl fun item hitem => ?_
        rw [← Finset.mul_sum, h.placed item (Finset.mem_range.mp hitem), mul_one]
    _ = ∑ bin ∈ Finset.range items, ∑ item ∈ Finset.range items,
          weightAt item * inBin bin item := Finset.sum_comm
    _ ≤ ∑ bin ∈ Finset.range items, 10 * used bin :=
        Finset.sum_le_sum fun bin hbin => h.fits bin (Finset.mem_range.mp hbin)
    _ = 10 * ∑ bin ∈ Finset.range items, used bin := by rw [Finset.mul_sum]

theorem sum_weightAt_nonneg (items : Nat) : 0 ≤ ∑ item ∈ Finset.range items, weightAt item :=
  Finset.sum_nonneg fun item _ => by
    have := weightAt_bounds item
    omega

/-- The sum of the weights is a machine integer. -/
theorem toInt_sum_weights (hmachine : items < 2 ^ 32) :
    ((weights items).foldl (· + ·) 0).toInt = ∑ item ∈ Finset.range items, weightAt item ∧
      ∑ item ∈ Finset.range items, weightAt item ≤ 8 * items := by
  induction items with
  | zero => exact ⟨rfl, le_rfl⟩
  | succ items ih =>
    obtain ⟨hsum, hbound⟩ := ih (by omega)
    have hweight := weightAt_bounds items
    have hnonneg := sum_weightAt_nonneg items
    rw [Finset.sum_range_succ, weights, List.range_succ, List.map_append, List.foldl_append]
    refine ⟨?_, by push_cast; omega⟩
    rw [List.map_singleton, List.foldl_cons, List.foldl_nil, Int64.toInt_add, ← weights, hsum,
      toInt_weightOf]
    exact Int.bmod_eq_of_le (by omega) (by omega)

theorem toInt_add_capacity (hmachine : items < 2 ^ 32) :
    ((weights items).foldl (· + ·) 0 + capacityValue).toInt =
      ∑ item ∈ Finset.range items, weightAt item + 10 := by
  obtain ⟨hsum, hbound⟩ := toInt_sum_weights hmachine
  have hnonneg := sum_weightAt_nonneg items
  have hcapacity : capacityValue.toInt = 10 := rfl
  rw [Int64.toInt_add, hsum, hcapacity]
  exact Int.bmod_eq_of_le (by omega) (by omega)

theorem toInt_dividend (hmachine : items < 2 ^ 32) :
    ((weights items).foldl (· + ·) 0 + capacityValue - 1).toInt =
      ∑ item ∈ Finset.range items, weightAt item + 9 := by
  have hbound := (toInt_sum_weights hmachine).2
  have hnonneg := sum_weightAt_nonneg items
  rw [Int64.toInt_sub, toInt_add_capacity hmachine]
  exact (Int.bmod_eq_of_le (by simp; omega) (by simp; omega)).trans (add_sub_assoc _ _ _)

/-- The bound is the weight of all items divided by the capacity and rounded up. -/
theorem toInt_fewestBins (hmachine : items < 2 ^ 32) :
    (fewestBins items).toInt = (∑ item ∈ Finset.range items, weightAt item + 9) / 10 := by
  have hnonneg := sum_weightAt_nonneg items
  rw [fewestBins, Int64.toInt_div_of_ne_right _ _ (by decide), toInt_dividend hmachine]
  exact Int.tdiv_eq_ediv_of_nonneg (by omega)

/-! ## The model -/

/-- The name of the variable that tells whether a bin contains an item. -/
def inBinName (cell : Cell) : String :=
  "bin_item_" ++ toString cell.1 ++ "_" ++ toString cell.2

/-- The name of the variable that tells whether a bin is in use. -/
def usedName (bin : Nat) : String :=
  "used_" ++ toString bin

/-- The weights of the items. -/
def weightConstant (items : Nat) : Constant :=
  ⟨"weight", .int, [items], (weights items).map .int⟩

/-- The capacity of every bin. -/
def capacityConstant : Constant :=
  ⟨"capacity", .int, [], [.int capacityValue]⟩

/-- Whether a bin contains an item. -/
def placement (cell : Cell) : Expr :=
  .identifier (inBinName cell) .bool

/-- Whether a bin is in use. -/
def flag (bin : Nat) : Expr :=
  .identifier (usedName bin) .bool

/-- The weight that an item adds to a bin. -/
def shareExpr (bin item : Nat) : Expr :=
  .arithmetic .mul (.access "weight" .int [.int (Int64.ofNat (item + 1))]) (placement (bin, item))

/-- An item lies in one bin. -/
def placedOnce (items item : Nat) : Constraint :=
  ⟨.comparison .equal (.reduction .sum ((Grid.column items item).map placement)) (.int 1),
    none, none, false⟩

/-- The items in a bin do not exceed its capacity. -/
def fitsIn (items bin : Nat) : Constraint :=
  ⟨.comparison .lessOrEqual (.reduction .sum ((List.range items).map (shareExpr bin)))
    (.arithmetic .mul (.identifier "capacity" .int) (flag bin)), none, none, false⟩

/-- Items and bins make up a packing. -/
def packing (items : Nat) : List Constraint :=
  (List.range items).map (placedOnce items) ++ (List.range items).map (fitsIn items)

/-- The bins in use come first. -/
def usedFirst (items : Nat) : Constraint :=
  .ofGlobal .decreasing [.array ((List.range items).map flag)]

/-- The number of bins in use. -/
def binCount (items : Nat) : Expr :=
  .reduction .sum ((List.range items).map flag)

/-- There are enough bins for the weight of all items. -/
def enoughBins (items : Nat) : Constraint :=
  ⟨.comparison .greaterOrEqual (binCount items) (.int (fewestBins items)), none, none, true⟩

theorem plain_of_mem_packing :
    ∀ constraint ∈ packing items, constraint.global = none ∧ constraint.redundant = false := by
  simp only [packing, List.forall_mem_append, List.forall_mem_map]
  exact ⟨fun _ _ => ⟨rfl, rfl⟩, fun _ _ => ⟨rfl, rfl⟩⟩

theorem variableName_cell (cell : Cell) :
    (Grid.key cell).variableName "bin_item" = inBinName cell :=
  IndexKey.variableName_pair (by decide) cell.1 cell.2

theorem variableName_bin (bin : Nat) : (IndexKey.single bin).variableName "used" = usedName bin :=
  IndexKey.variableName_single (by decide) bin

theorem inBinName_notMem (cell : Cell) : inBinName cell ∉ ["weight", "capacity"] := by
  have hne (name : String) (hletter : name.toList.head? ≠ some 'b') : inBinName cell ≠ name :=
    variableName_cell cell ▸ IndexKey.variableName_ne (by decide) (Ne.symm hletter) _
  simp [hne "weight" (by decide), hne "capacity" (by decide)]

theorem usedName_ne (bin : Nat) (name : String) (hletter : name.toList.head? ≠ some 'u') :
    usedName bin ≠ name :=
  variableName_bin bin ▸ IndexKey.variableName_ne (by decide) (Ne.symm hletter) _

theorem usedName_notMem (bin : Nat) : usedName bin ∉ ["weight", "capacity"] := by
  simp [usedName_ne bin "weight" (by decide), usedName_ne bin "capacity" (by decide)]

theorem usedName_ne_inBinName (bin : Nat) (cell : Cell) : usedName bin ≠ inBinName cell := by
  refine usedName_ne bin _ ?_
  rw [← variableName_cell, IndexKey.head?_variableName (by decide)]
  decide

theorem define_weight (hitems : 0 < items) :
    Constant.define "weight"
        (.array ((weights items).map fun weight => .scalar (.int weight))) =
      .ok (weightConstant items) := by
  have hlength : (weights items).length = items := by simp [weights]
  have hsome : weights items ≠ [] := List.ne_nil_of_length_pos (by rwa [hlength])
  rw [Constant.define_integers "weight" hsome, weightConstant]
  congr

/-- The weight of each item is found. -/
theorem elementAt_weight {item : Nat} (hitem : item < items) :
    (weightConstant items).elementAt [item] =
      .ok (.access "weight" .int [.int (Int64.ofNat (item + 1))]) := by
  have hbounds : InBounds [item] (weightConstant items).dimensions :=
    inBounds_cons.mpr ⟨hitem, inBounds_nil⟩
  exact Constant.elementAt_eq_ok.mpr
    ⟨⟨by simp [weightConstant], _, Constant.flatPosition_eq_ok.mpr ⟨hbounds, rfl⟩⟩, rfl⟩

theorem integerAt?_weight {item : Nat} (hitem : item < items) :
    (weightConstant items).integerAt? [item] = some (weightAt item) := by
  have hbounds : InBounds [item] (weightConstant items).dimensions :=
    inBounds_cons.mpr ⟨hitem, inBounds_nil⟩
  have hplace : rowMajorPlace [item] (weightConstant items).dimensions = item :=
    Nat.mul_one item
  rw [Constant.integerAt?, Constant.valueAt?_of_inBounds hbounds, hplace]
  simp [weightConstant, weights, hitem, Scalar.integer?, toInt_weightOf]

/-- The variables as the model declares them. -/
theorem exists_variables (items : Nat) {model : Model}
    (hidentifiers : model.identifiers = ["weight", "capacity"]) :
    ∃ inBin used,
      model.addVariables "bin_item" ((Grid.cells items items).map Grid.key) (.ofKind .bool) =
        .ok (inBin, model.withCollection inBin) ∧
      (model.withCollection inBin).addVariables "used" ((List.range items).map .single)
        (.ofKind .bool) = .ok (used, (model.withCollection inBin).withCollection used) ∧
      inBin.Covers (Grid.cells items items) Grid.key (fun cell => ⟨inBinName cell, .bool⟩) ∧
      used.Covers (List.range items) IndexKey.single fun bin => ⟨usedName bin, .bool⟩ := by
  have hdomain : (Definition.ofKind .bool).resolve = .ok .bool := rfl
  have hinBinFree : ∀ cell ∈ Grid.cells items items, inBinName cell ∉ model.identifiers := by
    rw [hidentifiers]
    exact fun cell _ => inBinName_notMem cell
  obtain ⟨inBin, haddedInBin, hinBin⟩ := Model.exists_addVariables_covers (by decide)
    Grid.nodup_keys (fun cell _ => Grid.hasType_key cell) (fun cell _ => variableName_cell cell)
    hdomain hinBinFree
  have husedFree : ∀ bin ∈ List.range items,
      usedName bin ∉ (model.withCollection inBin).identifiers := by
    intro bin _
    rw [Model.withCollection, hidentifiers, hinBin.vars, List.mem_append, not_or]
    exact ⟨usedName_notMem bin, by simp [(usedName_ne_inBinName bin _).symm]⟩
  obtain ⟨used, haddedUsed, hused⟩ := Model.exists_addVariables_covers (by decide)
    (List.nodup_range.map IndexKey.single_injective) (fun bin _ => IndexKey.hasType_single bin)
    (fun bin _ => variableName_bin bin) hdomain husedFree
  exact ⟨inBin, used, haddedInBin, haddedUsed, hinBin, hused⟩

section Posting

variable {inBin used : Collection}
  (hinBin : inBin.Covers (Grid.cells items items) Grid.key (fun cell => ⟨inBinName cell, .bool⟩))
  (hused : used.Covers (List.range items) IndexKey.single fun bin => ⟨usedName bin, .bool⟩)

include hinBin in
theorem postItem_eq_ok {item : Nat} (hitem : item < items) (model : Model) :
    postItem inBin items model item = .ok (model.register [placedOnce items item]) := by
  let cells := Grid.column items item
  have hcells : ∀ cell ∈ cells, cell ∈ Grid.cells items items :=
    List.forall_mem_map.mpr fun bin hbin => Grid.mem_cells.mpr ⟨List.mem_range.mp hbin, hitem⟩
  have hfound : Grid.lookUp inBin cells = .ok (cells.map placement) :=
    Grid.lookUp_eq_ok hinBin hcells
  have hsome : cells ≠ [] := by simpa [cells, Grid.column] using Nat.ne_zero_of_lt hitem
  have hsum := Expr.sum_map_of_isWhole hsome placement fun _ _ => .inr rfl
  have hequation := Expr.compared_sum .equal (cells.map placement) (.int 1) (.inl rfl)
  simp only [postItem, hfound, hsum, hequation, Failure.unchecked_ok_bind,
    Failure.checked_ok_bind, Model.post_comparison, cells]
  rfl

include hinBin in
theorem share_eq_ok {bin item : Nat} (hbin : bin < items) (hitem : item < items) :
    share (weightConstant items) inBin bin item = .ok (shareExpr bin item) := by
  have hweight := elementAt_weight hitem
  have hplacement : inBin.item (Grid.key (bin, item)) = .ok ⟨inBinName (bin, item), .bool⟩ :=
    hinBin.item (bin, item) (Grid.mem_cells.mpr ⟨hbin, hitem⟩)
  simp only [share, hweight, hplacement, Failure.unchecked_ok_bind, Failure.checked_ok_bind]
  exact congrArg liftM (Expr.times_of_isWhole (.inl rfl) (.inr rfl))

include hinBin hused in
theorem postBin_eq_ok {bin : Nat} (hbin : bin < items) (model : Model) :
    postBin (weightConstant items) capacityConstant inBin used items model bin =
      .ok (model.register [fitsIn items bin]) := by
  have hload : (List.range items).mapM (share (weightConstant items) inBin bin) =
      .ok ((List.range items).map (shareExpr bin)) :=
    Outcome.mapM_eq_ok_map fun item hitem => share_eq_ok hinBin hbin (List.mem_range.mp hitem)
  have hcapacity : capacityConstant.toExpr = .ok (.identifier "capacity" .int) := rfl
  have hflag : used.item (.single bin) = .ok ⟨usedName bin, .bool⟩ :=
    hused.item bin (List.mem_range.mpr hbin)
  have hlimit : (Expr.identifier "capacity" .int).times (Variable.toExpr ⟨usedName bin, .bool⟩) =
      .ok (.arithmetic .mul (.identifier "capacity" .int) (flag bin)) :=
    Expr.times_of_isWhole (.inl rfl) (.inr rfl)
  have hsome : List.range items ≠ [] := List.ne_nil_of_mem (List.mem_range.mpr hbin)
  have hsum := Expr.sum_map_of_isWhole hsome (shareExpr bin) fun _ _ => .inl rfl
  have hbound := Expr.compared_sum .lessOrEqual ((List.range items).map (shareExpr bin))
    (.arithmetic .mul (.identifier "capacity" .int) (flag bin)) (.inl rfl)
  simp only [postBin, hload, hcapacity, hflag, hlimit, hsum, hbound, Failure.ok_bind,
    Failure.unchecked_ok_bind, Failure.checked_ok_bind, Model.post_comparison]
  rfl

end Posting

/-- The model is built for any number of items. -/
theorem exists_build (hitems : 0 < items) :
    ∃ model, build items = .ok model ∧
      model.constants = [weightConstant items, capacityConstant] ∧
      model.vars = (Grid.cells items items).map (fun cell => ⟨inBinName cell, .bool⟩) ++
        (List.range items).map (fun bin => ⟨usedName bin, .bool⟩) ∧
      model.constraints = packing items ++ [usedFirst items] ++ [enoughBins items] ∧
      model.objective = some ⟨.minimize, some (binCount items)⟩ := by
  have hsome : List.range items ≠ [] := by simpa using hitems.ne'
  let weighted := Model.empty.withConstant (weightConstant items)
  let start := weighted.withConstant capacityConstant
  have hweight : Model.empty.addConstant "weight"
      (.array ((weights items).map fun weight => .scalar (.int weight))) =
        .ok (weightConstant items, weighted) :=
    Model.addConstant_of_define (weightConstant items)
      (show Identifier.isValid "weight" = true by decide) (List.not_mem_nil) (define_weight hitems)
  have hcapacity : weighted.addConstant "capacity" (.scalar (.int capacityValue)) =
      .ok (capacityConstant, start) := rfl
  have hidentifiers : start.identifiers = ["weight", "capacity"] := rfl
  obtain ⟨inBin, used, haddedInBin, haddedUsed, hinBin, hused⟩ :=
    exists_variables items hidentifiers
  have hitemsPosted (model : Model) : (List.range items).foldlM (postItem inBin items) model =
      .ok (model.register ((List.range items).map (placedOnce items))) :=
    Model.foldlM_register hsome fun item hitem =>
      postItem_eq_ok hinBin (List.mem_range.mp hitem)
  have hbinsPosted (model : Model) : (List.range items).foldlM
      (postBin (weightConstant items) capacityConstant inBin used items) model =
      .ok (model.register ((List.range items).map (fitsIn items))) :=
    Model.foldlM_register hsome fun bin hbin =>
      postBin_eq_ok hinBin hused (List.mem_range.mp hbin)
  have hflags : (List.range items).map flag ≠ [] := by simpa using hitems.ne'
  have hexprs : used.exprs = (List.range items).map flag := hused.exprs
  have hdecreasing : Constraint.decreasing ((List.range items).map flag) =
      .ok (usedFirst items) :=
    Constraint.onArray_eq_ok.mpr ⟨hflags, rfl⟩
  have hcount : Expr.sum ((List.range items).map flag) = .ok (binCount items) :=
    Expr.sum_map_of_isWhole hsome flag fun _ _ => .inr rfl
  have hbound : (binCount items).compared .greaterOrEqual (.int (fewestBins items)) =
      .ok (.comparison .greaterOrEqual (binCount items) (.int (fewestBins items))) :=
    Expr.compared_sum .greaterOrEqual ((List.range items).map flag) _ (.inl rfl)
  let posted := (((((start.withCollection inBin).withCollection used).register
    ((List.range items).map (placedOnce items))).register
    ((List.range items).map (fitsIn items))).register [usedFirst items]).register [enoughBins items]
  refine ⟨posted.withObjective ⟨.minimize, some (binCount items)⟩, ?built, rfl, ?vars, rfl, rfl⟩
  case built =>
    simp only [build, hweight, hcapacity, haddedInBin, haddedUsed, hitemsPosted, hbinsPosted,
      hexprs, hdecreasing, hcount, Failure.checked_ok_bind, Failure.ok_bind, Model.post_item]
    simp only [hbound, Failure.unchecked_ok_bind, Failure.checked_ok_bind, Model.post_comparison]
    exact congrArg liftM (Model.minimize_of_isScalar (Expr.isScalar_sum _))
  case vars =>
    rw [← hinBin.vars, ← hused.vars]
    rfl

/-! ## Its solutions -/

section Meaning

variable {model : Model} (hconstants : model.constants = [weightConstant items, capacityConstant])
  (assignment : String → Int)
include hconstants

theorem value?_placement (cell : Cell) :
    (placement cell).value? (model.interpretation assignment) =
      some (assignment (inBinName cell)) := by
  refine Variable.value?_toExpr ⟨inBinName cell, .bool⟩ (.inr rfl) ?_
  have hfree := inBinName_notMem cell
  rw [Model.interpretation, hconstants]
  simpa [weightConstant, capacityConstant, eq_comm] using hfree

theorem value?_flag (bin : Nat) :
    (flag bin).value? (model.interpretation assignment) = some (assignment (usedName bin)) := by
  refine Variable.value?_toExpr ⟨usedName bin, .bool⟩ (.inr rfl) ?_
  have hfree := usedName_notMem bin
  rw [Model.interpretation, hconstants]
  simpa [weightConstant, capacityConstant, eq_comm] using hfree

theorem value?_limit (bin : Nat) :
    (Expr.arithmetic .mul (.identifier "capacity" .int) (flag bin)).value?
        (model.interpretation assignment) = some (10 * assignment (usedName bin)) := by
  have hcapacity : (Expr.identifier "capacity" .int).value? (model.interpretation assignment) =
      some 10 := by
    rw [Expr.value?, if_pos (.inl rfl), Model.interpretation, Interpretation.name?,
      Interpretation.constant?, hconstants]
    rfl
  exact Expr.value?_arithmetic hcapacity (value?_flag hconstants assignment bin)

theorem value?_share (bin : Nat) {item : Nat} (hitem : item < items) (hmachine : items < 2 ^ 32) :
    (shareExpr bin item).value? (model.interpretation assignment) =
      some (weightAt item * assignment (inBinName (bin, item))) := by
  have hfound : (model.interpretation assignment).constant? (weightConstant items).name =
      some (weightConstant items) := by
    rw [Model.interpretation, Interpretation.constant?, hconstants]
    rfl
  have hweight := (Expr.value?_access hfound [item] (by simp; omega)).trans
    (integerAt?_weight hitem)
  exact Expr.value?_arithmetic hweight (value?_placement hconstants assignment (bin, item))

theorem holds_placedOnce (item : Nat) :
    (placedOnce items item).Holds (model.interpretation assignment) ↔
      ∑ bin ∈ Finset.range items, assignment (inBinName (bin, item)) = 1 := by
  rw [placedOnce, Constraint.holds_comparison
    (Expr.value?_sum fun cell _ => value?_placement hconstants assignment cell) rfl,
    Grid.column, List.map_map]
  rfl

theorem holds_fitsIn (hmachine : items < 2 ^ 32) (bin : Nat) :
    (fitsIn items bin).Holds (model.interpretation assignment) ↔
      ∑ item ∈ Finset.range items, weightAt item * assignment (inBinName (bin, item)) ≤
        10 * assignment (usedName bin) :=
  Constraint.holds_comparison
    (Expr.value?_sum fun _ hitem =>
      value?_share hconstants assignment bin (List.mem_range.mp hitem) hmachine)
    (value?_limit hconstants assignment bin) false

/-- The constraints on items and bins ask for a packing. -/
theorem satisfies_packing_iff (hmachine : items < 2 ^ 32) :
    model.Satisfies assignment (packing items) ↔
      IsLoaded items (fun bin item => assignment (inBinName (bin, item)))
        fun bin => assignment (usedName bin) := by
  simp only [Model.Satisfies, packing, List.forall_mem_append, List.forall_mem_map, List.mem_range,
    holds_placedOnce hconstants, holds_fitsIn hconstants assignment hmachine]
  exact ⟨fun ⟨hplaced, hfits⟩ => ⟨hplaced, hfits⟩, fun h => ⟨h.placed, h.fits⟩⟩

theorem holds_usedFirst :
    (usedFirst items).Holds (model.interpretation assignment) ↔
      UsedFirst items fun bin => assignment (usedName bin) :=
  Constraint.holds_decreasing fun bin _ => value?_flag hconstants assignment bin

theorem value?_binCount :
    (binCount items).value? (model.interpretation assignment) =
      some (∑ bin ∈ Finset.range items, assignment (usedName bin)) :=
  Expr.value?_sum fun bin _ => value?_flag hconstants assignment bin

/-- The bins in use of every packing are enough for the weight of all items. -/
theorem holds_enoughBins (hmachine : items < 2 ^ 32)
    (h : IsLoaded items (fun bin item => assignment (inBinName (bin, item)))
      fun bin => assignment (usedName bin)) :
    (enoughBins items).Holds (model.interpretation assignment) := by
  refine (Constraint.holds_comparison (value?_binCount hconstants assignment) rfl true).mpr ?_
  have hcapacity := h.sum_weightAt_le
  rw [toInt_fewestBins hmachine]
  exact Int.lt_add_one_iff.mp (Int.ediv_lt_of_lt_mul (by decide) (by omega))

end Meaning

theorem isInDomains_iff {model : Model}
    (hvars : model.vars = (Grid.cells items items).map (fun cell => ⟨inBinName cell, .bool⟩) ++
      (List.range items).map (fun bin => ⟨usedName bin, .bool⟩)) (assignment : String → Int) :
    model.IsInDomains assignment ↔
      IsFlagged items (fun bin item => assignment (inBinName (bin, item)))
        fun bin => assignment (usedName bin) := by
  simp only [Model.IsInDomains, hvars, List.forall_mem_append, List.forall_mem_map,
    Grid.mem_cells, List.mem_range, Domain.Admits, Prod.forall]
  exact ⟨fun h => ⟨fun bin hbin item hitem => h.1 bin item ⟨hbin, hitem⟩, h.2⟩,
    fun h => ⟨fun bin item hcell => h.inBin bin hcell.1 item hcell.2, h.used⟩⟩

/-- The variables can be given the flags of any packing. -/
theorem exists_assignment (inBin : Nat → Nat → Int) (used : Nat → Int) :
    ∃ assignment : String → Int,
      (∀ bin item, assignment (inBinName (bin, item)) = inBin bin item) ∧
      ∀ bin, assignment (usedName bin) = used bin := by
  have hcells : Function.Injective inBinName := by
    simpa only [variableName_cell] using Grid.variableName_key_injective "bin_item"
  have hbins : Function.Injective usedName := by
    simpa only [variableName_bin] using IndexKey.variableName_single_injective "used"
  refine ⟨Function.extend inBinName (fun cell => inBin cell.1 cell.2)
    (Function.extend usedName used 0), fun bin item => hcells.extend_apply _ _ (bin, item),
    fun bin => ?_⟩
  rw [Function.extend_apply' _ _ _ fun ⟨cell, heq⟩ => usedName_ne_inBinName bin cell heq.symm,
    hbins.extend_apply]

section Values

variable {model : Model} (hmachine : items < 2 ^ 32)
  (hconstants : model.constants = [weightConstant items, capacityConstant])
  (hvars : model.vars = (Grid.cells items items).map (fun cell => ⟨inBinName cell, .bool⟩) ++
    (List.range items).map (fun bin => ⟨usedName bin, .bool⟩))
  (hobjective : model.objective = some ⟨.minimize, some (binCount items)⟩)
include hconstants hobjective

/-- The objective is the number of bins in use. -/
theorem objectiveValue?_eq (assignment : String → Int) :
    model.objectiveValue? assignment =
      some (∑ bin ∈ Finset.range items, assignment (usedName bin)) := by
  rw [Model.objectiveValue?, hobjective]
  exact value?_binCount hconstants assignment

include hmachine hvars

/-- Over as many bins as an assignment uses, the items can be distributed. -/
theorem exists_packing_of_attains {value : Int} (h : model.Attains (packing items) value) :
    ∃ bins : Nat, value = bins ∧ bins ≤ items ∧ CanPack items bins := by
  obtain ⟨assignment, hdomains, hsatisfied, hvalue⟩ := h
  have hflagged := (isInDomains_iff hvars assignment).mp hdomains
  have hloaded := (satisfies_packing_iff hconstants assignment hmachine).mp hsatisfied
  rw [objectiveValue?_eq hconstants hobjective, hflagged.sum_used,
    Option.some_inj] at hvalue
  exact ⟨_, hvalue.symm, Nat.count_le _, hloaded.canPack hflagged⟩

/-- Every distribution over bins is given by an assignment that has the bins in use first. -/
theorem attains_of_canPack (hbins : bins ≤ items) (h : CanPack items bins) :
    model.Attains (packing items ++ [usedFirst items]) bins := by
  obtain ⟨inBin, used, hflagged, hloaded, hfirst, hsum⟩ := exists_flags_of_canPack hbins h
  obtain ⟨assignment, hinBin, hused⟩ := exists_assignment inBin used
  refine ⟨assignment, ?_, ?_, ?_⟩
  · rw [isInDomains_iff hvars]
    simpa only [hinBin, hused] using hflagged
  · rw [Model.satisfies_append, satisfies_packing_iff hconstants assignment hmachine,
      Model.satisfies_singleton, holds_usedFirst hconstants assignment]
    simpa only [hinBin, hused] using And.intro hloaded hfirst
  · rw [objectiveValue?_eq hconstants hobjective]
    simp only [hused, hsum]

end Values

section Posted

variable {model : Model}
  (hconstraints : model.constraints = packing items ++ [usedFirst items] ++ [enoughBins items])
include hconstraints

theorem required_eq : model.required = packing items ++ [usedFirst items] := by
  rw [Model.required, hconstraints, List.filter_append, List.filter_append,
    List.filter_eq_self.mpr fun constraint hmem => by simp [plain_of_mem_packing constraint hmem]]
  exact List.append_nil _

theorem filter_redundant_eq :
    model.constraints.filter Constraint.redundant = [enoughBins items] := by
  rw [hconstraints, List.filter_append, List.filter_append,
    List.filter_eq_nil_iff.mpr fun constraint hmem => by
      simp [plain_of_mem_packing constraint hmem]]
  rfl

/-- Only the order of the bins is asked for by a constraint on decreasing numbers. -/
theorem filter_required_eq :
    (model.required.filter fun constraint => constraint.global ≠ some .decreasing) =
      packing items := by
  rw [required_eq hconstraints, List.filter_append, List.filter_eq_self.mpr
    fun constraint hmem => by simp [plain_of_mem_packing constraint hmem]]
  exact List.append_nil _

/-- The bound on the number of bins follows from the other constraints. -/
theorem satisfies_of_required (hmachine : items < 2 ^ 32)
    (hconstants : model.constants = [weightConstant items, capacityConstant])
    {assignment : String → Int} (h : model.Satisfies assignment model.required) :
    model.Satisfies assignment model.constraints := by
  rw [required_eq hconstraints] at h
  have hloaded := (satisfies_packing_iff hconstants assignment hmachine).mp
    (Model.satisfies_append.mp h).1
  rw [hconstraints, Model.satisfies_append, Model.satisfies_singleton]
  exact ⟨h, holds_enoughBins hconstants assignment hmachine hloaded⟩

end Posted

/-- For any number of items, the model is built over one variable for every bin and item and
one for every bin.  The numbers of bins which its solutions use are those over which the items
can be distributed, also if it is not asked that the bins in use come first.  One of the
constraints is marked as redundant, and it holds wherever the others do.  A number of items
has 32 bits. -/
theorem objective_values_eq_packings (hitems : 0 < items) (hmachine : items < 2 ^ 32) :
    ∃ model, build items = .ok model ∧
      model.vars = (Grid.cells items items).map (fun cell => ⟨inBinName cell, .bool⟩) ++
        (List.range items).map (fun bin => ⟨usedName bin, .bool⟩) ∧
      (∀ bins : Nat, model.Attains model.required bins ↔ bins ≤ items ∧ CanPack items bins) ∧
      (∃ assignment, model.IsInDomains assignment ∧
        model.Satisfies assignment model.constraints) ∧
      (∀ value, model.Attains
          (model.required.filter fun constraint => constraint.global ≠ some .decreasing) value →
        model.Attains model.required value) ∧
      (model.constraints.filter Constraint.redundant).length = 1 ∧
      ∀ assignment, model.Satisfies assignment model.required →
        model.Satisfies assignment model.constraints := by
  obtain ⟨model, hbuild, hconstants, hvars, hconstraints, hobjective⟩ := exists_build hitems
  have hrequired := required_eq hconstraints
  have hpacked {value : Int} (h : model.Attains (packing items) value) :=
    exists_packing_of_attains hmachine hconstants hvars hobjective h
  have hattained {bins : Nat} (hbins : bins ≤ items) (h : CanPack items bins) :=
    attains_of_canPack hmachine hconstants hvars hobjective hbins h
  refine ⟨model, hbuild, hvars, fun bins => ⟨?distributed, ?used⟩, ?satisfiable, ?ordered,
    congrArg List.length (filter_redundant_eq hconstraints),
    fun assignment => satisfies_of_required hconstraints hmachine hconstants⟩
  case distributed =>
    rintro ⟨assignment, hdomains, hsatisfied, hvalue⟩
    rw [hrequired] at hsatisfied
    obtain ⟨other, hother, hbins, hpack⟩ :=
      hpacked ⟨assignment, hdomains, (Model.satisfies_append.mp hsatisfied).1, hvalue⟩
    rw [Nat.cast_inj] at hother
    exact hother ▸ ⟨hbins, hpack⟩
  case used =>
    rintro ⟨hbins, hpack⟩
    rw [hrequired]
    exact hattained hbins hpack
  case satisfiable =>
    obtain ⟨assignment, hdomains, hsatisfied, -⟩ := hattained le_rfl (canPack_self items)
    exact ⟨assignment, hdomains,
      satisfies_of_required hconstraints hmachine hconstants (hrequired ▸ hsatisfied)⟩
  case ordered =>
    intro value hvalue
    rw [filter_required_eq hconstraints] at hvalue
    obtain ⟨bins, rfl, hbins, hpack⟩ := hpacked hvalue
    rw [hrequired]
    exact hattained hbins hpack

/-- Two bins are enough for the first three items, which weigh 4, 8 and 1, and one bin is not. -/
theorem three_items_in_two_bins :
    ∃ model, build 3 = .ok model ∧ model.Attains model.required 2 ∧
      ¬ model.Attains model.required 1 := by
  obtain ⟨model, hbuild, -, hattains, -⟩ :=
    objective_values_eq_packings (show 0 < 3 by decide) (by decide)
  refine ⟨model, hbuild, (hattains 2).mpr ⟨by decide, fun item => item % 2, ?_, ?_⟩, ?_⟩
  · decide
  · decide
  · intro hone
    obtain ⟨-, place, hplace, hload⟩ := (hattains 1).mp hone
    have hall : (Finset.range 3).filter (fun item => place item = 0) = Finset.range 3 :=
      Finset.filter_true_of_mem fun item hitem =>
        Nat.lt_one_iff.mp (hplace item (Finset.mem_range.mp hitem))
    have hsum := hload 0 (by decide)
    rw [hall] at hsum
    exact absurd hsum (by decide)

end MiniZincModels.Gallery.BinPacking
