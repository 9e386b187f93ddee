import Mathlib.Data.List.Destutter
import Mathlib.Data.List.Dedup
import Mathlib.Order.Lattice
import MiniZincModels.Declaration.Domain
import MiniZincModels.Expr.Basic
import MiniZincModels.Proofs.Binary64.Finite
import MiniZincModels.Proofs.Outcome

/-!
# Domains of definitions

A definition has a domain exactly if what was given last fits its kind, and the domain is what was
given: the same interval, the same doubles, or the same values.  A list of values stands for the
set of its values.  Sorting the list and dropping repeated neighbours gives this set too, because
there is only one strictly ascending list with these values.
-/

namespace MiniZincModels

/-! ## Lists of values -/

namespace IntSet

variable {left right : IntSet} {values others : List Int64}

/-- There is one ascending list with given values. -/
theorem eq_of_mem_iff (h : ∀ value, value ∈ left.elements ↔ value ∈ right.elements) :
    left = right := by
  have hdistinct : ∀ set : IntSet, set.elements.Nodup := by
    intro set
    refine set.ascending.imp ?_
    rintro first _ hlt rfl
    exact Int.lt_irrefl _ hlt
  have hperm : left.elements.Perm right.elements :=
    (List.perm_ext_iff_of_nodup (hdistinct left) (hdistinct right)).mpr h
  have helements : left.elements = right.elements := by
    refine hperm.eq_of_pairwise ?_ left.ascending right.ascending
    intro first second _ _ hlt hgt
    exact absurd (Int.lt_trans hlt hgt) (Int.lt_irrefl _)
  cases left
  cases right
  cases helements
  rfl

/-- Lists with the same values give the same set. -/
theorem ofList_congr (h : ∀ value, value ∈ values ↔ value ∈ others) :
    ofList values = ofList others := by
  refine eq_of_mem_iff fun value => ?_
  rw [mem_ofList, mem_ofList, h]

/-- The listed values in order, without the repetitions which then stand side by side. -/
def sortedDistinct (values : List Int64) : List Int64 :=
  (values.mergeSort fun left right => left.toInt ≤ right.toInt).destutter (· ≠ ·)

theorem pairwise_mergeSort (values : List Int64) :
    (values.mergeSort fun left right => left.toInt ≤ right.toInt).Pairwise
      fun left right => left.toInt ≤ right.toInt := by
  let le := fun left right : Int64 => decide (left.toInt ≤ right.toInt)
  have htrans : ∀ first second third, le first second = true → le second third = true →
      le first third = true := by
    intro first second third hlow hhigh
    exact decide_eq_true (Int.le_trans (of_decide_eq_true hlow) (of_decide_eq_true hhigh))
  have htotal : ∀ first second, (le first second || le second first) = true := by
    intro first second
    simpa [le] using Int.le_total first.toInt second.toInt
  exact (List.pairwise_mergeSort htrans htotal values).imp of_decide_eq_true

/-- In a sorted list the repetitions of a value are neighbours. -/
theorem sortedDistinct_eq_dedup (values : List Int64) :
    sortedDistinct values =
      (values.mergeSort fun left right => left.toInt ≤ right.toInt).dedup := by
  have hantisymm : Std.Antisymm fun left right : Int64 => left.toInt ≤ right.toInt :=
    ⟨fun _ _ hle hge => Int64.toInt_inj.mp (Int.le_antisymm hle hge)⟩
  exact (pairwise_mergeSort values).destutter_eq_dedup

theorem mem_sortedDistinct {value : Int64} : value ∈ sortedDistinct values ↔ value ∈ values := by
  rw [sortedDistinct_eq_dedup, List.mem_dedup, List.mem_mergeSort]

theorem ascending_sortedDistinct (values : List Int64) :
    (sortedDistinct values).Pairwise fun left right => left.toInt < right.toInt := by
  rw [sortedDistinct_eq_dedup]
  have hsorted := (pairwise_mergeSort values).sublist (List.dedup_sublist _)
  refine (hsorted.and (List.nodup_dedup _)).imp ?_
  rintro left right ⟨hle, hne⟩
  exact lt_of_le_of_ne hle (hne ∘ Int64.toInt_inj.mp)

/-- The set of a list is the sorted list without repetitions. -/
theorem elements_ofList (values : List Int64) :
    (ofList values).elements = sortedDistinct values := by
  have hset : ofList values = ⟨sortedDistinct values, ascending_sortedDistinct values⟩ := by
    refine eq_of_mem_iff fun value => ?_
    rw [mem_ofList, mem_sortedDistinct]
  rw [hset]

end IntSet

/-! ## Settings -/

/-- Numerical order, in which a not-a-number has no place. -/
def Binary64.AtMost (left right : Binary64) : Prop :=
  ∃ low high, left.position? = some low ∧ right.position? = some high ∧ low ≤ high

/-- Of two numbers with places one is at most the other unless it lies above it. -/
theorem Binary64.not_less_iff {left right : Binary64} (hleft : left.isFinite = true)
    (hright : right.isFinite = true) : right.less left = false ↔ left.AtMost right := by
  cases left <;> cases hleft
  cases right <;> cases hright
  simp [Binary64.less, Binary64.AtMost, Binary64.position?]

theorem Binary64.atMost_self {value : Binary64} (h : value.isFinite = true) :
    value.AtMost value := by
  cases value <;> cases h
  exact ⟨_, _, rfl, rfl, Int.le_refl _⟩

namespace Definition

/-- What can be given for a variable that is still to be declared. -/
inductive Setting
  | bounds (lower upper : Number)
  | values (listed : List Int64)

namespace Setting

def apply (definition : Definition) : Setting → Definition
  | bounds lower upper => definition.withBounds lower upper
  | values listed => definition.withValues listed

def bounds? : Setting → Option (Number × Number)
  | bounds lower upper => some (lower, upper)
  | values _ => none

def values? : Setting → Option (List Int64)
  | bounds _ _ => none
  | values listed => some listed

end Setting

/-- The definition of a kind after all that was given for it. -/
def ofSettings (kind : Kind) (settings : List Setting) : Definition :=
  settings.foldl Setting.apply (ofKind kind)

def lastBounds? (settings : List Setting) : Option (Number × Number) :=
  (settings.filterMap Setting.bounds?).getLast?

def lastValues? (settings : List Setting) : Option (List Int64) :=
  (settings.filterMap Setting.values?).getLast?

/-- Bounds and values are kept apart, and of each the last ones count. -/
theorem ofSettings_eq (kind : Kind) (settings : List Setting) :
    ofSettings kind settings = ⟨kind, lastBounds? settings, lastValues? settings⟩ := by
  induction settings using List.reverseRecOn with
  | nil => rfl
  | append_singleton settings setting ih =>
    rw [ofSettings, List.foldl_append, ← ofSettings, ih]
    cases setting <;>
      simp [lastBounds?, lastValues?, Setting.apply, Setting.bounds?, Setting.values?, withBounds,
        withValues]

/-- What has to be given for a variable of a kind: integers and sets need either integer bounds in
order or a value, floats need bounds which as doubles are finite and in order, and for booleans
nothing has to be given but zero and one may be. -/
def Accepts (kind : Kind) (bounds : Option (Number × Number)) (values : Option (List Int64)) :
    Prop :=
  match kind with
  | .int | .intSet =>
    (∃ lower upper, bounds = some (.int lower, .int upper) ∧ values = none ∧
      lower.toInt ≤ upper.toInt) ∨
    ∃ listed, bounds = none ∧ values = some listed ∧ listed ≠ []
  | .float =>
    ∃ lower upper, bounds = some (lower, upper) ∧ values = none ∧
      lower.toBinary64.isFinite = true ∧ upper.toBinary64.isFinite = true ∧
      lower.toBinary64.AtMost upper.toBinary64
  | .bool =>
    (bounds = none ∧ values = none) ∨ (bounds = some (.int 0, .int 1) ∧ values = none) ∨
    ∃ listed, bounds = none ∧ values = some listed ∧
      ∀ value, value ∈ listed ↔ value = 0 ∨ value = 1

/-! ## Resolving -/

section Resolving

variable {definition : Definition}

theorem resolveInt_eq_ok_iff {domain : IntDomain} :
    definition.resolveInt = .ok domain ↔
      (∃ lower upper, definition.bounds = some (.int lower, .int upper) ∧
        definition.values = none ∧ lower.toInt ≤ upper.toInt ∧ .interval lower upper = domain) ∨
      ∃ listed, definition.bounds = none ∧ definition.values = some listed ∧ listed ≠ [] ∧
        .values (IntSet.ofList listed) = domain := by
  rw [resolveInt]
  split
  · simp_all
  · simp_all
  · rename_i lower upper hbounds hvalues
    rw [Outcome.refusal_eq_ok]
    simp_all
  · simp_all
  · rename_i listed hbounds hvalues
    rw [Outcome.refusal_eq_ok]
    simp_all

theorem resolveFloat_eq_ok_iff {domain : Domain} :
    definition.resolveFloat = .ok domain ↔
      ∃ lower upper, definition.bounds = some (lower, upper) ∧ definition.values = none ∧
        (lower.toBinary64.isFinite = true ∧ upper.toBinary64.isFinite = true ∧
          lower.toBinary64.AtMost upper.toBinary64) ∧
        .float lower.toBinary64 upper.toBinary64 = domain := by
  rw [resolveFloat]
  split
  · simp_all
  · simp_all
  · rename_i lower upper hvalues hbounds
    have horder : lower.toBinary64.isFinite = true → upper.toBinary64.isFinite = true →
        (upper.toBinary64.less lower.toBinary64 = false ↔
          lower.toBinary64.AtMost upper.toBinary64) := Binary64.not_less_iff
    simpa [Outcome.refusal_eq_ok, hvalues, hbounds, and_assoc] using
      fun hlower hupper _ => horder hlower hupper

theorem mem_zero_one {value : Int64} : value ∈ [0, 1] ↔ value = 0 ∨ value = 1 := by simp

theorem elements_ofList_eq_zero_one {listed : List Int64} :
    (IntSet.ofList listed).elements = [0, 1] ↔ ∀ value, value ∈ listed ↔ value = 0 ∨ value = 1 := by
  constructor
  · intro h value
    rw [← IntSet.mem_ofList, h, mem_zero_one]
  · intro h
    rw [IntSet.ofList_congr fun value => (h value).trans mem_zero_one.symm]
    decide

theorem resolveBool_eq_ok_iff {domain : Domain} :
    definition.resolveBool = .ok domain ↔
      Accepts .bool definition.bounds definition.values ∧ .bool = domain := by
  obtain ⟨kind, bounds, values⟩ := definition
  rw [resolveBool, Outcome.refusal_eq_ok, Outcome.refusal_eq_ok, Except.ok.injEq, ← and_assoc]
  refine and_congr_left fun _ => ?_
  cases bounds with
  | none =>
    cases values with
    | none => simp [Accepts]
    | some listed =>
      -- The check is undone first, as the statement about all values is not to be evaluated.
      have hfits : (¬ (!decide ((IntSet.ofList listed).elements = [0, 1])) = true) ↔
          ∀ value, value ∈ listed ↔ value = 0 ∨ value = 1 := by
        rw [Bool.not_eq_true', decide_eq_false_iff_not, not_not]
        exact elements_ofList_eq_zero_one
      simpa only [Option.all_none, Option.all_some, Bool.not_true, Bool.false_or, Accepts,
        reduceCtorEq, Option.isSome_none, Bool.false_and, Bool.false_eq_true, not_false_eq_true,
        and_true, false_and, and_false, false_or, Option.some.injEq, true_and, exists_eq_left']
        using hfits
  | some ends =>
    cases values with
    | none => simp [Accepts]
    | some listed => simp [Accepts]

theorem exists_resolveInt_iff {finish : IntDomain → Domain} :
    (∃ domain, definition.resolveInt.map finish = .ok domain) ↔
      Accepts .int definition.bounds definition.values := by
  have hmapped : (∃ domain, definition.resolveInt.map finish = .ok domain) ↔
      ∃ ints, definition.resolveInt = .ok ints := by
    simp only [Outcome.map_eq_ok]
    exact ⟨fun ⟨_, ints, hints, _⟩ => ⟨ints, hints⟩, fun ⟨ints, hints⟩ => ⟨_, ints, hints, rfl⟩⟩
  rw [hmapped]
  simp only [resolveInt_eq_ok_iff, Accepts]
  constructor
  · rintro ⟨ints, ⟨lower, upper, hbounds, hvalues, hle, -⟩ | ⟨listed, hbounds, hvalues, hne, -⟩⟩
    · exact .inl ⟨lower, upper, hbounds, hvalues, hle⟩
    · exact .inr ⟨listed, hbounds, hvalues, hne⟩
  · rintro (⟨lower, upper, hbounds, hvalues, hle⟩ | ⟨listed, hbounds, hvalues, hne⟩)
    · exact ⟨_, .inl ⟨lower, upper, hbounds, hvalues, hle, rfl⟩⟩
    · exact ⟨_, .inr ⟨listed, hbounds, hvalues, hne, rfl⟩⟩

theorem exists_resolve_iff :
    (∃ domain, definition.resolve = .ok domain) ↔
      Accepts definition.kind definition.bounds definition.values := by
  rw [resolve]
  cases definition.kind with
  | int => exact exists_resolveInt_iff
  | intSet => exact exists_resolveInt_iff
  | float =>
    simp only [resolveFloat_eq_ok_iff, Accepts]
    constructor
    · rintro ⟨_, lower, upper, hbounds, hvalues, hfit, -⟩
      exact ⟨lower, upper, hbounds, hvalues, hfit⟩
    · rintro ⟨lower, upper, hbounds, hvalues, hfit⟩
      exact ⟨_, lower, upper, hbounds, hvalues, hfit, rfl⟩
  | bool => simp [resolveBool_eq_ok_iff]

theorem kind_of_resolve {domain : Domain} (h : definition.resolve = .ok domain) :
    domain.kind = definition.kind := by
  rw [resolve] at h
  split at h <;> rename_i hkind
  · obtain ⟨_, -, rfl⟩ := Outcome.map_eq_ok.mp h
    exact hkind.symm
  · obtain ⟨_, -, rfl⟩ := Outcome.map_eq_ok.mp h
    exact hkind.symm
  · obtain ⟨_, _, -, -, -, rfl⟩ := resolveFloat_eq_ok_iff.mp h
    exact hkind.symm
  · obtain ⟨-, rfl⟩ := resolveBool_eq_ok_iff.mp h
    exact hkind.symm

theorem resolveInt_of_resolve {domain : Domain} {ints : IntDomain}
    (h : definition.resolve = .ok domain) (hints : domain = .int ints ∨ domain = .intSet ints) :
    definition.resolveInt = .ok ints := by
  have hkind := kind_of_resolve h
  rcases hints with rfl | rfl
  · rw [resolve, ← hkind] at h
    obtain ⟨_, hresolved, heq⟩ := Outcome.map_eq_ok.mp h
    cases heq
    exact hresolved
  · rw [resolve, ← hkind] at h
    obtain ⟨_, hresolved, heq⟩ := Outcome.map_eq_ok.mp h
    cases heq
    exact hresolved

/-- The order of a list and its repetitions make no difference. -/
theorem resolve_congr {left right : List Int64} (h : ∀ value, value ∈ left ↔ value ∈ right) :
    (definition.withValues left).resolve = (definition.withValues right).resolve := by
  have hset : IntSet.ofList left = IntSet.ofList right := IntSet.ofList_congr h
  have hempty : left.isEmpty = right.isEmpty := by
    rw [Bool.eq_iff_iff, List.isEmpty_iff, List.isEmpty_iff, List.eq_nil_iff_forall_not_mem,
      List.eq_nil_iff_forall_not_mem]
    simp only [h]
  have hint :
      (definition.withValues left).resolveInt = (definition.withValues right).resolveInt := by
    obtain ⟨kind, bounds, values⟩ := definition
    cases bounds with
    | none => simp only [resolveInt, withValues, hset, hempty]
    | some ends => rfl
  have hbool :
      (definition.withValues left).resolveBool = (definition.withValues right).resolveBool := by
    simp only [resolveBool, withValues, Option.all_some, Option.isSome_some, hset]
    congr 1
  rw [resolve, resolve, hint, hbool]
  rfl

end Resolving

end Definition

end MiniZincModels
