import Mathlib.Data.List.Infix
import MiniZincModels.Model.Text

/-!
# The items of a model

Every item begins with a word that tells what it is.  No two kinds of items begin
alike, so the includes and the solve item are told apart from what stands between
them by their first characters.
-/

namespace MiniZincModels

/-- What the items between the includes and the solve item begin with. -/
def itemOpenings : List String :=
  ["int: ", "float: ", "bool: ", "set of int: ", "array[", "var ", "constraint "]

theorem Constant.exists_opening (constant : Constant) :
    ∃ opening ∈ itemOpenings, opening.toList <+: constant.declaration.toList := by
  rw [declaration, typeText]
  by_cases hscalar : constant.dimensions.isEmpty = true
  · refine ⟨constant.kind.text ++ ": ", by cases constant.kind <;> decide, ?_⟩
    simp [hscalar]
  · refine ⟨"array[", by decide, ?_⟩
    simp [hscalar]

theorem Variable.exists_opening (declared : Variable) :
    ∃ opening ∈ itemOpenings, opening.toList <+: declared.declaration.toList :=
  ⟨"var ", by decide, by simp [declaration]⟩

theorem Constraint.exists_opening (constraint : Constraint) :
    ∃ opening ∈ itemOpenings, opening.toList <+: constraint.text.toList := by
  refine ⟨"constraint ", by decide, ?_⟩
  rw [text]
  split
  · simp
  · simp

namespace Model

/-- The items between the includes and the solve item. -/
def innerItems (model : Model) : List String :=
  model.constants.map Constant.declaration ++ model.vars.map Variable.declaration
    ++ model.constraints.map Constraint.text

theorem items_eq (model : Model) (objective : Objective) :
    model.items objective =
      model.requiredIncludes.map includeItem ++ model.innerItems ++
        [model.solveItem objective] := by
  simp [items, innerItems]

theorem exists_opening_of_mem_innerItems {model : Model} {item : String}
    (hitem : item ∈ model.innerItems) :
    ∃ opening ∈ itemOpenings, opening.toList <+: item.toList := by
  rw [innerItems, List.mem_append, List.mem_append] at hitem
  rcases hitem with (hconstant | hvariable) | hconstraint
  · obtain ⟨constant, -, rfl⟩ := List.mem_map.mp hconstant
    exact constant.exists_opening
  · obtain ⟨declared, -, rfl⟩ := List.mem_map.mp hvariable
    exact declared.exists_opening
  · obtain ⟨constraint, -, rfl⟩ := List.mem_map.mp hconstraint
    exact constraint.exists_opening

/-- An item that begins in one way does not begin in a different way. -/
theorem not_prefix_of_opening {opening word item : String}
    (hopening : opening.toList <+: item.toList)
    (hword : ¬ opening.toList <+: word.toList ∧ ¬ word.toList <+: opening.toList) :
    ¬ word.toList <+: item.toList := by
  intro hprefix
  rcases List.prefix_or_prefix_of_prefix hopening hprefix with h | h
  · exact hword.1 h
  · exact hword.2 h

theorem not_prefix_of_mem_innerItems {model : Model} {item word : String}
    (hitem : item ∈ model.innerItems)
    (hword : ∀ opening ∈ itemOpenings,
      ¬ opening.toList <+: word.toList ∧ ¬ word.toList <+: opening.toList) :
    ¬ word.toList <+: item.toList := by
  obtain ⟨opening, hmem, hopening⟩ := exists_opening_of_mem_innerItems hitem
  exact not_prefix_of_opening hopening (hword opening hmem)

/-- No item in front of the solve item begins like it. -/
theorem not_solve_prefix {model : Model} {item : String}
    (hitem : item ∈ model.requiredIncludes.map includeItem ++ model.innerItems) :
    ¬ "solve".toList <+: item.toList := by
  rcases List.mem_append.mp hitem with hinclude | hinner
  · obtain ⟨global, -, rfl⟩ := List.mem_map.mp hinclude
    have hopening : "include ".toList <+: (includeItem global).toList := by simp [includeItem]
    exact not_prefix_of_opening hopening (by decide)
  · exact not_prefix_of_mem_innerItems hinner (by decide)

theorem solve_prefix_solveItem (model : Model) (objective : Objective) :
    "solve ".toList <+: (model.solveItem objective).toList := by
  rw [solveItem, directivesText]
  split
  · simp
  · simp
  · simp

end Model

end MiniZincModels
