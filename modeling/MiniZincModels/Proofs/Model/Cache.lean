import MiniZincModels.Proofs.Model.Reachable

/-!
# The kept text

A model keeps the text of its last generation and hands it out again as long as
it does not change.  These theorems show that nobody can tell: in every reachable
model the kept text is the one which rendering would give, so whoever asks for
the text gets the text of the model as it is now, and asking changes nothing else.
-/

namespace MiniZincModels.Model

/-- The kept text, if there is one, is what rendering gives. -/
def TextIsCurrent (model : Model) : Prop :=
  ∀ text, model.generated = some text → model.render = .ok text

/-- Rendering does not look at the kept text. -/
@[simp]
theorem render_withGenerated (model : Model) (generated : Option String) :
    { model with generated := generated }.render = model.render := rfl

theorem textIsCurrent_of_dropped {model : Model} (h : model.generated = none) :
    model.TextIsCurrent := by
  intro text hkept
  rw [h] at hkept
  cases hkept

/-- Every effect drops the kept text, keeps the text it has just rendered, or changes
nothing at all. -/
theorem TextIsCurrent.effect {before after : Model} {step : Step}
    (hcurrent : before.TextIsCurrent) (heffect : Effect before step after) :
    after.TextIsCurrent := by
  cases heffect with
  | unchanged => exact hcurrent
  | textKept _ hrendered =>
    intro kept hkept
    cases hkept
    exact hrendered
  | addConstant => exact textIsCurrent_of_dropped rfl
  | addVariable => exact textIsCurrent_of_dropped rfl
  | addVariables => exact textIsCurrent_of_dropped rfl
  | post => exact textIsCurrent_of_dropped rfl
  | setCriteria => exact textIsCurrent_of_dropped rfl
  | setSearch => exact textIsCurrent_of_dropped rfl
  | setRestart => exact textIsCurrent_of_dropped rfl

theorem Reachable.textIsCurrent {model : Model} (reached : Reachable model) :
    model.TextIsCurrent :=
  reached.invariant (textIsCurrent_of_dropped rfl)
    fun _ _ _ hcurrent _ heffect => hcurrent.effect heffect

/-! ## Asking for the text -/

theorem generate_eq (model : Model) :
    model.generate =
      model.render.map fun text => (text, { model with generated := some text }) := by
  rw [generate]
  cases model.render <;> rfl

/-- Reusing the kept text gives the same as generating it anew. -/
theorem TextIsCurrent.currentText_eq {model : Model} (hcurrent : model.TextIsCurrent) :
    model.currentText =
      model.render.map fun text => (text, { model with generated := some text }) := by
  rw [currentText]
  split
  · rename_i text hkept
    rw [hcurrent text hkept]
    simp [Except.map, ← hkept]
  · exact generate_eq model

theorem TextIsCurrent.write_eq {model : Model} (hcurrent : model.TextIsCurrent) (path : String)
    (writable : Bool) :
    (model.write path writable).2 =
      model.render.bind fun text =>
        if writable then .ok (.written text) else .error (.notWritten path) := by
  rw [write]
  rw [hcurrent.currentText_eq]
  cases model.render <;> rfl

theorem TextIsCurrent.given_eq {model : Model} (hcurrent : model.TextIsCurrent)
    (settings : SolverSettings) (modelFile : String) (launch : Launch) :
    (settings.solve model modelFile launch).given =
      if settings.isPassable = true ∧ launch ≠ .notFound then model.render.toOption
      else none := by
  rw [SolverSettings.solve]
  rw [hcurrent.currentText_eq]
  cases model.render with
  | error error => simp [Except.map, Except.toOption]
  | ok text => cases launch <;> cases settings.isPassable <;> simp [Except.map, Except.toOption]

/-- An effect that declares, posts and sets nothing leaves all but the kept text. -/
theorem withGenerated_of_effect {before after : Model} {step : Step}
    (heffect : Effect before step after)
    (hreading : ∀ operation, step = .operation operation → operation.IsReading) :
    { after with generated := before.generated } = before := by
  cases heffect with
  | unchanged => rfl
  | textKept => rfl
  | setCriteria hasked =>
    rename_i operation _ _ _
    have := hreading operation rfl
    cases operation <;> simp [Operation.IsReading, Operation.criteria?] at this hasked
  | _ => exact (hreading _ rfl).elim

/-- Whoever asks a reachable model for its text gets the text which rendering gives
for the model as it is now, be it kept or new, and no reading step changes anything but
the kept text. -/
theorem reachable_text_current {model : Model} (reached : Reachable model) :
    (∀ text, model.generated = some text → model.render = .ok text) ∧
    (model.perform .generate).2 = model.render.map .text ∧
    (model.perform .currentText).2 = model.render.map .text ∧
    (∀ text, (model.perform .generatedText).2 = .ok (.text text) → model.render = .ok text) ∧
    (∀ path writable, (model.perform (.write path writable)).2 =
      model.render.bind fun text =>
        if writable then .ok (.written text) else .error (.notWritten path)) ∧
    (∀ settings modelFile launch, (SolverSettings.solve settings model modelFile launch).given =
      if settings.isPassable = true ∧ launch ≠ .notFound then model.render.toOption
      else none) ∧
    (∀ operation : Operation, operation.IsReading →
      { (model.perform operation).1 with generated := model.generated } = model) ∧
    (∀ settings modelFile launch,
      { (SolverSettings.solve settings model modelFile launch).model with
        generated := model.generated } = model) := by
  have hcurrent := reached.textIsCurrent
  refine ⟨hcurrent, ?_, ?_, ?_, hcurrent.write_eq, hcurrent.given_eq, ?_, ?_⟩
  · change (model.settle _).2 = _
    rw [generate_eq]
    cases model.render <;> rfl
  · change (model.settle _).2 = _
    rw [hcurrent.currentText_eq]
    cases model.render <;> rfl
  · intro text hanswer
    apply hcurrent
    cases hkept : model.generated <;> simp [perform, hkept] at hanswer
    rw [hanswer]
  · intro operation hreading
    apply withGenerated_of_effect (perform_effect model operation)
    rintro _ ⟨⟩
    exact hreading
  · intro settings modelFile launch
    apply withGenerated_of_effect (solve_effect model settings modelFile launch)
    rintro _ ⟨⟩

/-- A variable that is declared after a generation is in the text that is handed out
next. -/
theorem text_current_after_late_variable :
    let model := (((Model.empty.advance (.operation .satisfy)).advance
      (.operation .generate)).advance
      (.operation (.addVariable "x" (.ofKind .bool)))).advance (.operation .currentText)
    Reachable model ∧ model.generated = some "var bool: x;\nsolve satisfy;\n" ∧
      model.render = .ok "var bool: x;\nsolve satisfy;\n" := by
  intro model
  have hreached : Reachable model :=
    (((ReachableBy.empty.step _ trivial).step _ trivial).step _ trivial).step _ trivial
  have hkept : model.generated = some "var bool: x;\nsolve satisfy;\n" := by decide
  exact ⟨hreached, hkept, (reachable_text_current hreached).1 _ hkept⟩

end MiniZincModels.Model
