import MiniZincModels.Text.Numeral

/-!
# Finite sets of machine integers

Domains, set literals and decoded set values are all finite sets of 64-bit
integers.  A set is held as its elements in strictly ascending order, so two
sets with the same elements are equal and every printed set is in one order.
-/

namespace MiniZincModels

/-- A finite set of machine integers, given by its elements in ascending order. -/
structure IntSet where
  elements : List Int64
  ascending : elements.Pairwise fun left right => left.toInt < right.toInt

namespace IntSet

instance : DecidableEq IntSet := fun left right =>
  if h : left.elements = right.elements then
    isTrue (by cases left; cases right; simp_all)
  else isFalse fun heq => h (congrArg elements heq)

def empty : IntSet := ⟨[], List.Pairwise.nil⟩

instance : Inhabited IntSet := ⟨empty⟩

/-- Puts an element at its place in an ascending list that may hold it already. -/
def insertAscending (value : Int64) : List Int64 → List Int64
  | [] => [value]
  | head :: rest =>
    if value.toInt < head.toInt then value :: head :: rest
    else if value.toInt = head.toInt then head :: rest
    else head :: insertAscending value rest

theorem mem_insertAscending {x value : Int64} {values : List Int64} :
    x ∈ insertAscending value values ↔ x = value ∨ x ∈ values := by
  induction values with
  | nil => simp [insertAscending]
  | cons head rest ih =>
    unfold insertAscending
    split
    · simp
    · split
      · rename_i heq
        have : value = head := Int64.toInt_inj.mp heq
        simp [this]
      · simp only [List.mem_cons, ih]
        constructor
        · rintro (h | h | h) <;> simp [h]
        · rintro (h | h | h) <;> simp [h]

theorem ascending_insertAscending {value : Int64} {values : List Int64}
    (h : values.Pairwise fun left right => left.toInt < right.toInt) :
    (insertAscending value values).Pairwise fun left right => left.toInt < right.toInt := by
  induction values with
  | nil => simp [insertAscending]
  | cons head rest ih =>
    unfold insertAscending
    rw [List.pairwise_cons] at h
    split
    · rename_i hlt
      refine List.pairwise_cons.mpr ⟨?_, List.pairwise_cons.mpr h⟩
      intro other hother
      rcases List.mem_cons.mp hother with rfl | hrest
      · exact hlt
      · exact Int.lt_trans hlt (h.1 other hrest)
    · split
      · exact List.pairwise_cons.mpr h
      · refine List.pairwise_cons.mpr ⟨?_, ih h.2⟩
        intro other hother
        rcases mem_insertAscending.mp hother with rfl | hrest
        · omega
        · exact h.1 other hrest

def insert (value : Int64) (set : IntSet) : IntSet :=
  ⟨insertAscending value set.elements, ascending_insertAscending set.ascending⟩

/-- The set of the listed values, in whatever order and however often they are listed. -/
def ofList (values : List Int64) : IntSet :=
  values.foldr insert empty

theorem mem_ofList {x : Int64} {values : List Int64} :
    x ∈ (ofList values).elements ↔ x ∈ values := by
  induction values with
  | nil => simp [ofList, empty]
  | cons head rest ih =>
    have hfold : ofList (head :: rest) = insert head (ofList rest) := rfl
    rw [hfold, insert, mem_insertAscending, ih, List.mem_cons]

theorem insertAscending_eq_cons {value : Int64} {values : List Int64}
    (h : ∀ other ∈ values, value.toInt < other.toInt) :
    insertAscending value values = value :: values := by
  cases values with
  | nil => rfl
  | cons head rest => rw [insertAscending, if_pos (h head List.mem_cons_self)]

/-- The elements of a set list that set. -/
theorem ofList_elements (set : IntSet) : ofList set.elements = set := by
  obtain ⟨elements, ascending⟩ := set
  have helements : (ofList elements).elements = elements := by
    induction elements with
    | nil => rfl
    | cons head rest ih =>
      have hfold : (ofList (head :: rest)).elements =
          insertAscending head (ofList rest).elements := rfl
      rw [List.pairwise_cons] at ascending
      rw [hfold, ih ascending.2]
      exact insertAscending_eq_cons ascending.1
  cases hset : ofList elements
  simp_all

/-- The `count` consecutive integers from `first` on, as long as they stay in range. -/
def consecutive (first : Int64) (count : Nat)
    (inRange : first.toInt + count ≤ Text.maxInt64 + 1) : IntSet where
  elements := (List.range count).map fun (offset : Nat) => Int64.ofInt (first.toInt + offset)
  ascending := by
    unfold Text.maxInt64 at inRange
    rw [List.pairwise_map]
    refine List.Pairwise.imp_of_mem ?_ List.pairwise_lt_range
    intro left right hleft hright hlt
    have hfirst := first.le_toInt
    rw [List.mem_range] at hleft hright
    rw [Int64.toInt_ofInt_of_le (by omega) (by omega),
      Int64.toInt_ofInt_of_le (by omega) (by omega)]
    omega

/-- The integers from `first` to `last`, none if `last` lies below `first`. -/
def range (first last : Int64) : IntSet :=
  consecutive first (last.toInt - first.toInt + 1).toNat (by
    have hfirst := first.toInt_lt
    have hlast := last.toInt_lt
    unfold Text.maxInt64
    omega)

/-- The set as it is written in a model and in solver output, such as `\x7b1, 3\x7d`. -/
def text (set : IntSet) : String :=
  "\x7b" ++ ", ".intercalate (set.elements.map Text.integerText) ++ "\x7d"

end IntSet

end MiniZincModels
