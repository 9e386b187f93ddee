import MiniZincModels.Proofs.Model.History
import MiniZincModels.Proofs.Model.Store

/-!
# The order of operations

Declarations, constraints and the parts of the solve item can be given to a model in any
order.  As long as the operations of each category keep their own order and all of them
succeed, the text is the same, whatever was asked for in between.
-/

namespace MiniZincModels

variable {α β : Type}

theorem flatMap_filter_of_eq_nil {part : α → List β} {p : α → Bool}
    (hpart : ∀ value, p value = false → part value = []) (values : List α) :
    (values.filter p).flatMap part = values.flatMap part := by
  induction values with
  | nil => rfl
  | cons value values ih =>
    cases hvalue : p value with
    | true => rw [List.filter_cons_of_pos hvalue, List.flatMap_cons, List.flatMap_cons, ih]
    | false =>
      rw [List.filter_cons_of_neg (by simp [hvalue]), List.flatMap_cons, hpart value hvalue, ih,
        List.nil_append]

/-! ## The categories apart -/

namespace Operation

def isOf (category : Category) (operation : Operation) : Bool :=
  operation.category? = some category

theorem isSome_of_isOf {category : Category} {operation : Operation}
    (h : operation.isOf category = true) : operation.category?.isSome = true := by
  rw [of_decide_eq_true h]
  rfl

/-- The operation gives a model nothing of the category. -/
def Spares (operation : Operation) : Category → Prop
  | .constants => operation.constants = []
  | .vars => operation.vars = []
  | .constraints => operation.constraints = []
  | .criteria => operation.objective? = none
  | .search => operation.search? = none
  | .restart => operation.restart? = none

/-- What an operation gives to a model is of its own category. -/
theorem spares_of_isOf {category : Category} {operation : Operation}
    (h : operation.isOf category = false) : operation.Spares category := by
  cases category <;> cases operation <;> simp_all [isOf, category?, Spares]

section Sequences

variable {category : Category} {first second : List Operation}
  (hsame : first.filter (isOf category) = second.filter (isOf category))
include hsame

/-- What only the operations of one category put into a model is told by these operations. -/
theorem flatMap_eq_of_filter_eq {part : Operation → List β}
    (hpart : ∀ operation, isOf category operation = false → part operation = []) :
    first.flatMap part = second.flatMap part := by
  rw [← flatMap_filter_of_eq_nil hpart first, hsame, flatMap_filter_of_eq_nil hpart]

theorem filterMap_eq_of_filter_eq {part? : Operation → Option β}
    (hpart : ∀ operation, isOf category operation = false → part? operation = none) :
    first.filterMap part? = second.filterMap part? := by
  rw [List.filterMap_eq_flatMap_toList, List.filterMap_eq_flatMap_toList]
  apply flatMap_eq_of_filter_eq hsame
  intro operation hother
  rw [hpart operation hother]
  rfl

end Sequences

end Operation

namespace Model

/-! ## The text -/

section Records

variable {first second : Model}

/-- What has to be included is told by the constraint items. -/
theorem GlobalsAgree.requiredIncludes_eq (hfirst : first.GlobalsAgree)
    (hsecond : second.GlobalsAgree) (hsame : first.constraints = second.constraints) :
    first.requiredIncludes = second.requiredIncludes := by
  apply List.filter_congr
  intro global _
  rw [Bool.eq_iff_iff, List.contains_iff_mem, List.contains_iff_mem, hfirst global,
    hsecond global, hsame]

/-- Models into which operations put the same, category by category, have the same text. -/
theorem Records.render_eq {operations others : List Operation}
    (hfirst : first.Records operations) (hsecond : second.Records others)
    (hglobals : first.GlobalsAgree) (hothers : second.GlobalsAgree)
    (hsame : ∀ category, operations.filter (Operation.isOf category) =
      others.filter (Operation.isOf category)) : first.render = second.render := by
  have hconstants : first.constants = second.constants := by
    rw [hfirst.constants, hsecond.constants]
    exact Operation.flatMap_eq_of_filter_eq (hsame .constants) fun _ => Operation.spares_of_isOf
  have hvars : first.vars = second.vars := by
    rw [hfirst.vars, hsecond.vars]
    exact Operation.flatMap_eq_of_filter_eq (hsame .vars) fun _ => Operation.spares_of_isOf
  have hconstraints : first.constraints = second.constraints := by
    rw [hfirst.constraints, hsecond.constraints]
    exact Operation.flatMap_eq_of_filter_eq (hsame .constraints) fun _ => Operation.spares_of_isOf
  have hobjective : first.objective = second.objective := by
    rw [hfirst.objective, hsecond.objective,
      Operation.filterMap_eq_of_filter_eq (hsame .criteria) fun _ => Operation.spares_of_isOf]
  have hsearch : first.search = second.search := by
    rw [hfirst.search, hsecond.search,
      Operation.filterMap_eq_of_filter_eq (hsame .search) fun _ => Operation.spares_of_isOf]
  have hrestart : first.restart = second.restart := by
    rw [hfirst.restart, hsecond.restart,
      Operation.filterMap_eq_of_filter_eq (hsame .restart) fun _ => Operation.spares_of_isOf]
  have hincludes := hglobals.requiredIncludes_eq hothers hconstraints
  simp only [render, items, solveItem, directivesText, hconstants, hvars, hconstraints, hobjective,
    hsearch, hrestart, hincludes]

end Records

/-! ## Programs without refusals -/

/-- The operations of one category in a program, in their order. -/
def ofCategory (category : Category) (steps : List Step) : List Operation :=
  steps.filterMap fun step =>
    match step with
    | .operation operation => if operation.isOf category then some operation else none
    | .solve _ _ _ => none

/-- Every operation that declares, posts or sets something succeeds in its turn. -/
def Completes (model : Model) : List Step → Prop
  | [] => True
  | .operation operation :: rest =>
    (operation.category?.isSome = true → (model.perform operation).2.isOk = true) ∧
      (model.perform operation).1.Completes rest
  | .solve settings modelFile launch :: rest =>
    (settings.solve model modelFile launch).model.Completes rest

theorem Completes.filter_succeeding {model : Model} {steps : List Step}
    (h : model.Completes steps) (category : Category) :
    (model.succeeding steps).filter (Operation.isOf category) = ofCategory category steps := by
  induction steps generalizing model with
  | nil => rfl
  | cons step rest ih =>
    cases step with
    | solve settings modelFile launch => exact ih h
    | operation operation =>
      obtain ⟨hsucceeds, hrest⟩ := h
      have hlater := ih hrest
      rw [ofCategory] at hlater
      rw [succeeding, ofCategory, List.filterMap_cons]
      cases hcategory : operation.isOf category with
      | true =>
        have hok := hsucceeds (Operation.isSome_of_isOf hcategory)
        simp [hok, hcategory, hlater]
      | false => split <;> simp [hcategory, hlater]

/-- Two programs that give a model the same constants, variables, constraints, criteria,
searches and restart strategies, each of these in the same order, give it the same text,
however they are interleaved, if nothing of all this is refused. -/
theorem render_eq_of_same_categories {first second : List Step} (hfirst : empty.Completes first)
    (hsecond : empty.Completes second)
    (hsame : ∀ category, ofCategory category first = ofCategory category second) :
    (empty.after first).render = (empty.after second).render := by
  have hfilter : ∀ category, (empty.succeeding first).filter (Operation.isOf category) =
      (empty.succeeding second).filter (Operation.isOf category) := by
    intro category
    rw [hfirst.filter_succeeding, hsecond.filter_succeeding, hsame]
  exact (records_after first).render_eq (records_after second)
    (Reachable.after .empty first).globalsAgree (Reachable.after .empty second).globalsAgree hfilter

/-- The solve item can be given first, the declarations last, and texts can be asked for on
the way, of which the first is refused. -/
theorem same_text_of_late_declarations :
    let level : Variable := ⟨"x", .int (.interval 0 9)⟩
    let search : Search := .branching ⟨.int, [level], .firstFail, .indomainMin⟩
    let posted : Operation := .post [.item (.ofGlobal .increasing [.array [level.toExpr]])] true
    let levels : Operation := .addVariable "x" (.ofInterval 0 9)
    let switches : Operation := .addVariables "q" [(.single 0, .ofKind .bool)]
    let limit : Operation := .addConstant "n" (.scalar (.int 3))
    let first : List Step := [.operation levels, .operation limit, .operation switches,
      .operation posted, .operation (.setSearch search), .operation (.setRestart (.luby 5)),
      .operation (.minimize level.toExpr)]
    let second : List Step := [.operation .generate, .operation (.setSearch search),
      .operation (.minimize level.toExpr), .operation (.setRestart (.luby 5)),
      .operation .generate, .operation posted, .operation levels, .operation .currentText,
      .operation switches, .operation limit]
    empty.Completes first ∧ empty.Completes second ∧
      (∀ category, ofCategory category first = ofCategory category second) ∧
      (empty.after first).render = (empty.after second).render := by
  intro level search posted levels switches limit first second
  have hfirst : empty.Completes first :=
    ⟨fun _ => rfl, fun _ => rfl, fun _ => rfl, fun _ => rfl, fun _ => rfl, fun _ => rfl,
      fun _ => rfl, trivial⟩
  have hsecond : empty.Completes second :=
    ⟨fun h => absurd h (by decide), fun _ => rfl, fun _ => rfl, fun _ => rfl, fun _ => rfl,
      fun _ => rfl, fun _ => rfl, fun _ => rfl, fun _ => rfl, fun _ => rfl, trivial⟩
  have hsame : ∀ category, ofCategory category first = ofCategory category second := by
    intro category
    cases category <;> rfl
  exact ⟨hfirst, hsecond, hsame, render_eq_of_same_categories hfirst hsecond hsame⟩

end Model

end MiniZincModels
