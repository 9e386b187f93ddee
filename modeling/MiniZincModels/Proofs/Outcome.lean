import Mathlib.Data.List.Forall2

/-!
# Outcomes of checked functions

A checked function gives a value or an error.  These lemmas take a successful
composition apart into the successes of its parts, and relate the elements of a
list to what a checked function makes of them.
-/

namespace MiniZincModels.Outcome

variable {ε α β : Type}

theorem bind_eq_ok {outcome : Except ε α} {next : α → Except ε β} {result : β} :
    (outcome >>= next) = .ok result ↔
      ∃ value, outcome = .ok value ∧ next value = .ok result := by
  cases outcome with
  | error error => simp [bind, Except.bind]
  | ok value => simp [bind, Except.bind]

theorem bind_eq_error {outcome : Except ε α} {next : α → Except ε β} {error : ε} :
    (outcome >>= next) = .error error ↔
      outcome = .error error ∨ ∃ value, outcome = .ok value ∧ next value = .error error := by
  cases outcome with
  | error other => simp [bind, Except.bind]
  | ok value => simp [bind, Except.bind]

theorem map_eq_ok {outcome : Except ε α} {transform : α → β} {result : β} :
    outcome.map transform = .ok result ↔
      ∃ value, outcome = .ok value ∧ result = transform value := by
  cases outcome with
  | error error => simp [Except.map]
  | ok value => simp [Except.map, eq_comm]

theorem pure_eq_ok {value result : α} :
    (pure value : Except ε α) = .ok result ↔ result = value := by
  simp [pure, Except.pure, eq_comm]

theorem guard_eq_ok {p : Prop} [Decidable p] {value result : α} {error : ε} :
    (if p then .ok value else .error error : Except ε α) = .ok result ↔ p ∧ result = value := by
  by_cases h : p
  · simp [h, eq_comm]
  · simp [h]

theorem refusal_eq_ok {p : Prop} [Decidable p] {outcome : Except ε α} {result : α} {error : ε} :
    (if p then .error error else outcome) = .ok result ↔ ¬ p ∧ outcome = .ok result := by
  by_cases h : p <;> simp [h]

/-- Behind a check that lets a value pass unchanged, the function goes on with that value. -/
theorem check_bind_eq_ok {p : Prop} {value : α} {check : Except ε α}
    (hcheck : ∀ passed, check = .ok passed ↔ p ∧ passed = value) {next : α → Except ε β}
    {result : β} : (check >>= next) = .ok result ↔ p ∧ next value = .ok result := by
  rw [bind_eq_ok]
  constructor
  · rintro ⟨passed, hpassed, hnext⟩
    obtain ⟨hp, rfl⟩ := (hcheck passed).mp hpassed
    exact ⟨hp, hnext⟩
  · rintro ⟨hp, hnext⟩
    exact ⟨value, (hcheck value).mpr ⟨hp, rfl⟩, hnext⟩

/-- A list is accepted if each of its elements is. -/
theorem mapM_eq_ok {check : α → Except ε β} {values : List α} {results : List β} :
    values.mapM check = .ok results ↔
      List.Forall₂ (fun value result => check value = .ok result) values results := by
  induction values generalizing results with
  | nil => cases results <;> simp [pure, Except.pure]
  | cons value values ih =>
    rw [List.mapM_cons]
    constructor
    · intro h
      obtain ⟨first, hfirst, hothers⟩ := bind_eq_ok.mp h
      obtain ⟨rest, hrest, hresults⟩ := bind_eq_ok.mp hothers
      cases hresults
      exact .cons hfirst (ih.mp hrest)
    · intro h
      cases h with
      | cons hfirst hrest =>
        exact bind_eq_ok.mpr ⟨_, hfirst, bind_eq_ok.mpr ⟨_, ih.mpr hrest, rfl⟩⟩

theorem mapM_append_eq_ok {check : α → Except ε β} {left right : List α} {results : List β} :
    (left ++ right).mapM check = .ok results ↔
      ∃ first second, left.mapM check = .ok first ∧ right.mapM check = .ok second ∧
        results = first ++ second := by
  rw [List.mapM_append, bind_eq_ok]
  simp only [bind_eq_ok, pure_eq_ok]
  tauto

theorem mapM_congr {check other : α → Except ε β} {values : List α}
    (h : ∀ value ∈ values, check value = other value) : values.mapM check = values.mapM other := by
  induction values with
  | nil => rfl
  | cons value values ih =>
    rw [List.forall_mem_cons] at h
    rw [List.mapM_cons, List.mapM_cons, h.1, ih h.2]

/-- A list is accepted as by another check, provided that something more holds of each element. -/
theorem mapM_eq_ok_congr {p : α → Prop} {check other : α → Except ε β} {values : List α}
    {results : List β}
    (h : ∀ value ∈ values, ∀ result,
      check value = .ok result ↔ other value = .ok result ∧ p value) :
    values.mapM check = .ok results ↔
      values.mapM other = .ok results ∧ ∀ value ∈ values, p value := by
  rw [mapM_eq_ok, mapM_eq_ok]
  induction values generalizing results with
  | nil => simp
  | cons value values ih =>
    rw [List.forall_mem_cons] at h
    rw [List.forall_mem_cons]
    cases results with
    | nil => simp
    | cons result results =>
      rw [List.forall₂_cons, List.forall₂_cons, h.1, ih h.2]
      tauto

/-- A list passes a check if each element does, and what becomes of it is known
element by element. -/
theorem mapM_check_eq_ok {p : α → Prop} {transform : α → β} {check : α → Except ε β}
    (hcheck : ∀ value result, check value = .ok result ↔ p value ∧ result = transform value)
    {values : List α} {results : List β} :
    values.mapM check = .ok results ↔
      (∀ value ∈ values, p value) ∧ results = values.map transform := by
  rw [mapM_eq_ok]
  constructor
  · intro h
    induction h with
    | nil => simp
    | cons hfirst hrest ih =>
      obtain ⟨hp, rfl⟩ := (hcheck _ _).mp hfirst
      obtain ⟨hps, rfl⟩ := ih
      exact ⟨List.forall_mem_cons.mpr ⟨hp, hps⟩, rfl⟩
  · rintro ⟨hps, rfl⟩
    rw [List.forall₂_map_right_iff, List.forall₂_same]
    intro value hmem
    exact (hcheck value _).mpr ⟨hps value hmem, rfl⟩

theorem mapM_guard_eq_ok {p : α → Prop} {check : α → Except ε α}
    (hcheck : ∀ value result, check value = .ok result ↔ p value ∧ result = value)
    {values results : List α} :
    values.mapM check = .ok results ↔ (∀ value ∈ values, p value) ∧ results = values := by
  rw [mapM_check_eq_ok hcheck, List.map_id']

/-- A refused list holds an element that is refused with the same error. -/
theorem exists_of_mapM_eq_error {check : α → Except ε β} {values : List α} {error : ε}
    (h : values.mapM check = .error error) : ∃ value ∈ values, check value = .error error := by
  induction values with
  | nil => cases h
  | cons value values ih =>
    rw [List.mapM_cons] at h
    cases hfirst : check value with
    | error other =>
      rw [hfirst] at h
      cases h
      exact ⟨value, by simp, hfirst⟩
    | ok first =>
      cases hrest : values.mapM check with
      | error other =>
        rw [hfirst, hrest] at h
        cases h
        obtain ⟨found, hmem, hfound⟩ := ih hrest
        exact ⟨found, by simp [hmem], hfound⟩
      | ok rest =>
        rw [hfirst, hrest] at h
        cases h

/-- Every element of an accepted list is accepted. -/
theorem exists_ok_of_mapM_eq_ok {check : α → Except ε β} {values : List α} {results : List β}
    (h : values.mapM check = .ok results) {value : α} (hmem : value ∈ values) :
    ∃ result ∈ results, check value = .ok result := by
  induction mapM_eq_ok.mp h with
  | nil => cases hmem
  | cons hfirst hrest ih =>
    rcases List.mem_cons.mp hmem with rfl | hmem
    · exact ⟨_, by simp, hfirst⟩
    · obtain ⟨result, hresult, hvalue⟩ := ih (mapM_eq_ok.mpr hrest) hmem
      exact ⟨result, by simp [hresult], hvalue⟩

/-- Every result comes from an element of the list. -/
theorem exists_of_mem_mapM {check : α → Except ε β} {values : List α} {results : List β}
    (h : values.mapM check = .ok results) {result : β} (hmem : result ∈ results) :
    ∃ value ∈ values, check value = .ok result := by
  induction mapM_eq_ok.mp h with
  | nil => cases hmem
  | cons hfirst hrest ih =>
    rcases List.mem_cons.mp hmem with rfl | hmem
    · exact ⟨_, by simp, hfirst⟩
    · obtain ⟨value, hvalue, hresult⟩ := ih (mapM_eq_ok.mpr hrest) hmem
      exact ⟨value, by simp [hvalue], hresult⟩

/-- A list is accepted as soon as no element of it is refused. -/
theorem exists_mapM_eq_ok {check : α → Except ε β} {values : List α}
    (h : ∀ value ∈ values, ∃ result, check value = .ok result) :
    ∃ results, values.mapM check = .ok results := by
  cases hvalues : values.mapM check with
  | ok results => exact ⟨results, rfl⟩
  | error error =>
    obtain ⟨value, hmem, hrefused⟩ := exists_of_mapM_eq_error hvalues
    obtain ⟨result, haccepted⟩ := h value hmem
    rw [hrefused] at haccepted
    cases haccepted

end MiniZincModels.Outcome
