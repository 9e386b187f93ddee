import MiniZincModels.Proofs.Model.InPlace
import MiniZincModels.Proofs.Outcome

/-!
# Refused operations

An operation happens as a whole or not at all.  That is a fact about the order
of its assignments: every check stands before the first of them, also where a
check is made for each key of a collection or each item of a list.  The one
assignment before a failure is that of the text which was generated for a file
that cannot be written.
-/

namespace MiniZincModels.Model

variable {model : Model}

theorem settle_error {outcome : Except ModelError (Answer × Model)} {error : ModelError}
    (h : (model.settle outcome).2 = .error error) : (model.settle outcome).1 = model := by
  cases outcome with
  | error _ => rfl
  | ok pair => cases h

/-- The text that a model without kept text hands out was just generated. -/
theorem currentText_of_not_kept {text : String} {kept : Model} (hkept : model.generated = none)
    (h : model.currentText = .ok (text, kept)) :
    model.render = .ok text ∧ kept = { model with generated := some text } := by
  rw [currentText] at h
  rw [hkept] at h
  obtain ⟨_, hrendered, h⟩ := Outcome.bind_eq_ok.mp h
  cases h
  exact ⟨hrendered, rfl⟩

theorem currentText_of_kept {text : String} (hkept : model.generated = some text) :
    model.currentText = .ok (text, model) := by
  rw [currentText]
  rw [hkept]

theorem write_error {path : String} {writable : Bool} {error : ModelError}
    (h : (model.write path writable).2 = .error error) :
    (model.write path writable).1 = model ∨
      ∃ text, writable = false ∧ error = .notWritten path ∧ model.generated = none ∧
        model.render = .ok text ∧
        (model.write path writable).1 = { model with generated := some text } := by
  rw [write] at h ⊢
  cases htext : model.currentText with
  | error _ => exact .inl rfl
  | ok pair =>
    obtain ⟨text, kept⟩ := pair
    rw [htext] at h
    cases hgenerated : model.generated with
    | some old =>
      rw [currentText_of_kept hgenerated] at htext
      cases htext
      exact .inl rfl
    | none =>
      obtain ⟨hrendered, rfl⟩ := currentText_of_not_kept hgenerated htext
      cases writable with
      | true => cases h
      | false =>
        cases h
        exact .inr ⟨text, rfl, rfl, rfl, hrendered, rfl⟩

/-- A refused operation leaves the model as it was, unless it could not write a file. -/
theorem perform_error {operation : Operation} {error : ModelError}
    (h : (model.perform operation).2 = .error error) :
    (model.perform operation).1 = model ∨
      ∃ path text, operation = .write path false ∧ error = .notWritten path ∧
        model.generated = none ∧ model.render = .ok text ∧
        (model.perform operation).1 = { model with generated := some text } := by
  cases operation with
  | write path writable =>
    rcases write_error h with hsame | ⟨text, rfl, herror, hkept, hrendered, hafter⟩
    · exact .inl hsame
    · exact .inr ⟨path, text, rfl, herror, hkept, hrendered, hafter⟩
  | abandon | satisfy | setSearch | generatedText => cases h
  | render => exact .inl rfl
  | _ => exact .inl (settle_error h)

/-! ## Posting -/

theorem perform_post (given : List Postable) (redundant : Bool) :
    model.perform (.post given redundant) =
      match given.mapM Postable.toConstraint with
      | .error error => (model, .error error)
      | .ok items =>
        (model.register (if redundant then items.map Constraint.markRedundant else items),
          .ok .done) := by
  change model.settle ((model.post given redundant).map _) = _
  rw [post]
  cases given.mapM Postable.toConstraint <;> rfl

/-- One invalid element at any place is enough to post none of them. -/
theorem perform_post_of_invalid {given : List Postable} {item : Postable} {error : ModelError}
    (redundant : Bool) (hmem : item ∈ given) (hinvalid : item.toConstraint = .error error) :
    ∃ reported, ∃ refused ∈ given, refused.toConstraint = .error reported ∧
      model.perform (.post given redundant) = (model, .error reported) := by
  rw [perform_post]
  cases haccepted : given.mapM Postable.toConstraint with
  | error reported =>
    obtain ⟨refused, hrefused, hreported⟩ := Outcome.exists_of_mapM_eq_error haccepted
    exact ⟨reported, refused, hrefused, hreported, rfl⟩
  | ok items =>
    obtain ⟨_, _, hvalid⟩ := Outcome.exists_ok_of_mapM_eq_ok haccepted hmem
    rw [hinvalid] at hvalid
    cases hvalid

theorem register_append (first second : List Constraint) :
    (model.register first).register second = model.register (first ++ second) := by
  simp [register]

/-- Registering items one by one is registering them together. -/
theorem foldl_register {items : List Constraint} (hsome : items ≠ []) :
    items.foldl (fun current item => current.register [item]) model = model.register items := by
  induction items generalizing model with
  | nil => exact absurd rfl hsome
  | cons item items ih =>
    rw [List.foldl_cons]
    by_cases hlast : items = []
    · subst hlast
      rfl
    · rw [ih hlast, register_append, List.singleton_append]

/-- Posting valid elements one by one registers their items one by one. -/
theorem run_post_each {given : List Postable} {items : List Constraint} (redundant : Bool)
    (haccepted : List.Forall₂ (fun element item => element.toConstraint = .ok item) given items) :
    model.run (given.map fun element => .post [element] redundant) =
      (if redundant then items.map Constraint.markRedundant else items).foldl
        (fun current item => current.register [item]) model := by
  induction haccepted generalizing model with
  | nil => cases redundant <;> rfl
  | cons hfirst hrest ih =>
    have hsingle := Outcome.mapM_eq_ok.mpr (.cons hfirst .nil)
    rw [List.map_cons, run, List.foldl_cons, perform_post, hsingle]
    cases redundant <;> exact ih

/-- Operations happen as a whole or not at all, also if they are carried out as single
assignments that nothing undoes: a refused operation leaves the model as it was, but for
the text kept by an attempt to write a file.  Constraints that are posted together are
refused together, and if they are valid they might as well be posted one by one. -/
theorem refused_operation_keeps_model (model : Model) :
    (∀ (operation : Operation) (error : ModelError),
      (operation.inPlace.run model).2 = .error error →
      (operation.inPlace.run model).1 = model ∨
        ∃ path text, operation = .write path false ∧ error = .notWritten path ∧
          model.generated = none ∧ model.render = .ok text ∧
          (operation.inPlace.run model).1 = { model with generated := some text }) ∧
    (∀ operation : Operation, operation.inPlace.run model = model.perform operation) ∧
    (∀ given redundant,
      (∃ element ∈ given, ∃ error, Postable.toConstraint element = .error error) →
      ∃ error, (∃ element ∈ given, Postable.toConstraint element = .error error) ∧
        model.perform (.post given redundant) = (model, .error error)) ∧
    (∀ given redundant, given ≠ [] →
      (∀ element ∈ given, ∃ item, Postable.toConstraint element = .ok item) →
      model.perform (.post given redundant) =
        (model.run (given.map fun element => .post [element] redundant), .ok .done)) := by
  refine ⟨?_, fun operation => operation.run_inPlace model, ?_, ?_⟩
  · intro operation error h
    rw [operation.run_inPlace model] at h ⊢
    exact perform_error h
  · rintro given redundant ⟨element, hmem, error, hinvalid⟩
    obtain ⟨reported, refused, hrefused, hreported, hperform⟩ :=
      perform_post_of_invalid redundant hmem hinvalid
    exact ⟨reported, ⟨refused, hrefused, hreported⟩, hperform⟩
  · intro given redundant hsome hvalid
    obtain ⟨items, haccepted⟩ := Outcome.exists_mapM_eq_ok hvalid
    have hmarked : (if redundant then items.map Constraint.markRedundant else items) ≠ [] := by
      have hlength := (Outcome.mapM_eq_ok.mp haccepted).length_eq
      cases redundant <;> cases items <;> simp_all
    rw [perform_post, haccepted, run_post_each redundant (Outcome.mapM_eq_ok.mp haccepted),
      foldl_register hmarked]

/-- Two constraints of which the second is no condition: neither is posted. -/
theorem refused_post_keeps_empty :
    ∃ error, empty.perform (.post [.expr (.bool true), .expr (.int 1)] false) =
      (empty, .error error) := by
  have hinvalid : ∃ element ∈ [Postable.expr (.bool true), .expr (.int 1)],
      ∃ error, element.toConstraint = .error error :=
    ⟨.expr (.int 1), by simp, _, rfl⟩
  obtain ⟨error, _, hperform⟩ :=
    (refused_operation_keeps_model empty).2.2.1 _ false hinvalid
  exact ⟨error, hperform⟩

end MiniZincModels.Model
