import MiniZincModels.Proofs.Expr.Finite
import MiniZincModels.Proofs.Model.Building
import MiniZincModels.Proofs.Model.Checked
import MiniZincModels.Proofs.SolveItem.Search

/-!
# Finite floats in models

Constants, bounds of variables and the literals that a check looks at are finite.  The
operands that no function looks at may hold any literal, a precision only has to be
positive, and the base of a restart strategy only has to lie above one.  If an infinite or
undefined float is in a model, it is in one of these places.
-/

namespace MiniZincModels

def SearchKind.precisions : SearchKind → List Binary64
  | float precision => [precision]
  | int | bool | set => []

/-- A precision that was accepted is finite or the positive infinity. -/
theorem SearchKind.eq_infinity_of_mem_precisions {sort : SearchKind} {precision : Binary64}
    (haccepted : Branching.checkPrecision sort = .ok ()) (hmem : precision ∈ sort.precisions)
    (hprecision : precision.isFinite = false) : precision = .infinity false := by
  cases sort with
  | float other =>
    cases List.mem_singleton.mp hmem
    rw [Branching.checkPrecision, Outcome.guard_eq_ok] at haccepted
    exact Binary64.eq_infinity_of_less haccepted.1 hprecision
  | int | bool | set => cases hmem

namespace Search

mutual

/-- The precisions of all searches on floats in the search. -/
def precisions : Search → List Binary64
  | branching single => single.sort.precisions
  | sequence searches => allPrecisions searches

def allPrecisions : List Search → List Binary64
  | [] => []
  | first :: rest => first.precisions ++ allPrecisions rest

end

theorem mem_allPrecisions {searches : List Search} {precision : Binary64} :
    precision ∈ allPrecisions searches ↔ ∃ search ∈ searches, precision ∈ search.precisions := by
  induction searches with
  | nil => simp [allPrecisions]
  | cons first rest ih => simp [allPrecisions, ih]

theorem BuiltFrom.eq_infinity_of_mem_precisions {vocabulary : Vocabulary} {search : Search}
    (hbuilt : search.BuiltFrom vocabulary) {precision : Binary64}
    (hmem : precision ∈ search.precisions) (hprecision : precision.isFinite = false) :
    precision = .infinity false := by
  induction hbuilt with
  | branching hvars hcreated =>
    obtain ⟨⟨haccepted, -⟩, rfl⟩ := Branching.create_eq_ok.mp hcreated
    exact SearchKind.eq_infinity_of_mem_precisions haccepted hmem hprecision
  | sequence hsearches ih =>
    obtain ⟨search, hsearch, hmem⟩ := mem_allPrecisions.mp hmem
    exact ih search hsearch hmem

end Search

/-- The positive infinity passes as a precision and as a base. -/
theorem Branching.checkPrecision_infinity :
    checkPrecision (.float (.infinity false)) = .ok () := by
  have hpositive : (Binary64.finite false Magnitude.zero).less (.infinity false) = true := by
    decide +kernel
  rw [checkPrecision, Outcome.guard_eq_ok]
  exact ⟨hpositive, rfl⟩

theorem RestartStrategy.validate_infinity {scale : Nat} (hscale : scale ≠ 0) :
    (geometric (.infinity false) scale).validate = .ok (geometric (.infinity false) scale) := by
  have hbase : one.less (.infinity false) = true := by decide +kernel
  have hpositive : ¬ (geometric (.infinity false) scale).scale = 0 := hscale
  rw [validate.eq_def, if_neg hpositive]
  exact if_pos hbase

theorem RestartStrategy.eq_infinity_of_validate {base : Binary64} {scale : Nat}
    (haccepted : (geometric base scale).validate = .ok (geometric base scale))
    (hbase : base.isFinite = false) : base = .infinity false := by
  rw [validate.eq_def] at haccepted
  split at haccepted
  · cases haccepted
  · have hless := (Outcome.guard_eq_ok.mp haccepted).1
    exact Binary64.eq_infinity_of_less hless hbase

namespace Model

/-- Every float that the model holds is finite. -/
structure HasFiniteFloats (model : Model) : Prop where
  constants : ∀ constant ∈ model.constants, ∀ element ∈ constant.elements, element.isFinite = true
  bounds : ∀ declared ∈ model.vars, ∀ lower upper, declared.domain = .float lower upper →
    lower.isFinite = true ∧ upper.isFinite = true
  bodies : ∀ constraint ∈ model.constraints, constraint.body.HasFiniteLiterals
  objective : ∀ objective ∈ model.objective, ∀ expr ∈ objective.expr, expr.HasFiniteLiterals
  precisions : ∀ search ∈ model.search, ∀ precision ∈ search.precisions, precision.isFinite = true
  base : ∀ base scale, model.restart = some (.geometric base scale) → base.isFinite = true

/-- The floats that no check refuses happen to be finite. -/
structure HasFiniteUnexamined (model : Model) : Prop where
  bodies : ∀ constraint ∈ model.constraints, constraint.body.HasFiniteUnexamined
  objective : ∀ objective ∈ model.objective, ∀ expr ∈ objective.expr, expr.HasFiniteUnexamined
  precisions : ∀ search ∈ model.search, Binary64.infinity false ∉ search.precisions
  base : ∀ scale, model.restart ≠ some (.geometric (.infinity false) scale)

variable {model : Model}

section Reached

variable (hbuilt : model.BuiltFrom Vocabulary.withoutRaw) (hchecked : model.PassesChecks)
include hbuilt

theorem BuiltFrom.body_iff {constraint : Constraint} (hmem : constraint ∈ model.constraints) :
    constraint.body.HasFiniteLiterals ↔ constraint.body.HasFiniteUnexamined := by
  obtain ⟨hbody, hkind⟩ := hbuilt.constraints constraint hmem
  exact hbody.wellFormed.hasFiniteLiterals_iff (Expr.isFiniteLiteral_of_kind (by simp [hkind]))

include hchecked

theorem BuiltFrom.objective_iff {objective : Objective} (hobjective : objective ∈ model.objective)
    {expr : Expr} (hexpr : expr ∈ objective.expr) :
    expr.HasFiniteLiterals ↔ expr.HasFiniteUnexamined := by
  have haccepted := hchecked.objective objective hobjective
  rw [hexpr] at haccepted
  exact (hbuilt.objective objective hobjective expr hexpr).wellFormed.hasFiniteLiterals_iff
    (checkObjective_some.mp haccepted).2.2

theorem HasFiniteUnexamined.hasFiniteFloats (h : model.HasFiniteUnexamined) :
    model.HasFiniteFloats where
  constants constant hmem := by
    obtain ⟨name, value, hdefined⟩ := hchecked.constants constant hmem
    exact Constant.isFinite_of_define hdefined
  bounds declared hmem lower upper hdomain := by
    obtain ⟨name, definition, hdefined⟩ := hchecked.vars declared hmem
    exact Variable.isFinite_of_define hdefined hdomain
  bodies constraint hmem := (hbuilt.body_iff hmem).mpr (h.bodies constraint hmem)
  objective objective hobjective expr hexpr :=
    (hbuilt.objective_iff hchecked hobjective hexpr).mpr
      (h.objective objective hobjective expr hexpr)
  precisions search hsearch precision hmem := by
    by_contra hprecision
    have hinfinity := (hbuilt.search search hsearch).eq_infinity_of_mem_precisions hmem
      (Bool.eq_false_iff.mpr hprecision)
    exact h.precisions search hsearch (hinfinity ▸ hmem)
  base base scale hrestart := by
    by_contra hbase
    have hinfinity := RestartStrategy.eq_infinity_of_validate
      (hchecked.restart _ hrestart) (Bool.eq_false_iff.mpr hbase)
    exact h.base scale (hinfinity ▸ hrestart)

theorem HasFiniteFloats.hasFiniteUnexamined (h : model.HasFiniteFloats) :
    model.HasFiniteUnexamined where
  bodies constraint hmem := (hbuilt.body_iff hmem).mp (h.bodies constraint hmem)
  objective objective hobjective expr hexpr :=
    (hbuilt.objective_iff hchecked hobjective hexpr).mp
      (h.objective objective hobjective expr hexpr)
  precisions search hsearch hmem := Bool.false_ne_true (h.precisions search hsearch _ hmem)
  base scale hrestart := Bool.false_ne_true (h.base _ scale hrestart)

end Reached

/-- Without raw text, the floats of a reachable model are all finite just when the operands
that were not looked at are, and no precision and no base of a restart is infinite. -/
theorem reachable_floats_finite_iff (reached : ReachableWithoutRaw model) :
    model.HasFiniteFloats ↔ model.HasFiniteUnexamined := by
  have hbuilt := reached.builtFrom
  have hchecked := reached.reachable.passesChecks
  exact ⟨fun h => h.hasFiniteUnexamined hbuilt hchecked, fun h => h.hasFiniteFloats hbuilt hchecked⟩

/-- The branches of this objective are not looked at, but they are finite. -/
theorem floats_finite_of_choice :
    let zero : Binary64 := .finite false .zero
    let switch : Variable := ⟨"a", .bool⟩
    let model := empty.run [.addVariable "a" (.ofKind .bool),
      .minimize (.conditional switch.toExpr (.float zero) (.int 1))]
    ReachableWithoutRaw model ∧ model.HasFiniteFloats := by
  intro zero switch model
  have hvalid : Vocabulary.withoutRaw.HasVariable switch :=
    Vocabulary.hasVariable_withoutRaw.mpr (by decide)
  have hchoice : Expr.Built Vocabulary.withoutRaw
      (.conditional switch.toExpr (.float zero) (.int 1)) :=
    .ifThenElse (.ofVariable hvalid) (.float trivial) (.int 1) rfl
  have hreached : ReachableWithoutRaw model := by
    apply ReachableWithoutRaw.run .empty
    simp only [List.forall_mem_cons]
    exact ⟨trivial, hchoice, List.forall_mem_nil _⟩
  have hunexamined : model.HasFiniteUnexamined := by
    refine ⟨List.forall_mem_nil _, ?_, ?_, ?_⟩
    · rintro objective ⟨⟩ expr ⟨⟩
      refine .node (by simp [Expr.unexamined, Expr.isFiniteLiteral, zero, Binary64.isFinite]) ?_
      simp only [Expr.children, List.forall_mem_cons]
      exact ⟨.leaf rfl (List.forall_mem_nil _), .leaf rfl (List.forall_mem_nil _),
        .leaf rfl (List.forall_mem_nil _), List.forall_mem_nil _⟩
    · rintro search ⟨⟩
    · rintro scale ⟨⟩
  exact ⟨hreached, (reachable_floats_finite_iff hreached).mpr hunexamined⟩

/-- In all the places that are left, floats without a spelling get into the text. -/
theorem infinite_floats_reach_text :
    let zero : Binary64 := .finite false .zero
    let switch : Variable := ⟨"a", .bool⟩
    let level : Variable := ⟨"f", .float zero zero⟩
    let searched := empty.run [.addVariable "a" (.ofKind .bool),
      .addVariable "f" ((Definition.ofKind .float).withBounds (.float zero) (.float zero)),
      .post [.item (.ofGlobal .allDifferent [.array [.float (.infinity false), .int 1]]),
        .expr (.comparison .less (.conditional switch.toExpr (.float .nan) (.int 1)) (.int 2))]
        false,
      .setSearch (.branching ⟨.float (.infinity false), [level], .inputOrder, .indomainSplit⟩),
      .satisfy]
    let model :=
      { searched with restart := some (.geometric (.infinity false) 5), generated := none }
    ReachableWithoutRaw model ∧
      (∀ constraint ∈ model.constraints, ¬ constraint.body.HasFiniteLiterals) ∧
      (∀ search ∈ model.search, .infinity false ∈ search.precisions) ∧
      model.render = .ok (joinLines ["include \"all_different.mzn\";", "var bool: a;",
        "var 0.0..0.0: f;", "constraint all_different([inf, 1]);",
        "constraint ((if a then NaN else 1 endif) < 2);",
        "solve :: float_search([f], inf, input_order, indomain_split) :: " ++
          "restart_geometric(inf, 5) satisfy;"]) := by
  intro zero switch level searched model
  have hswitch : Vocabulary.withoutRaw.HasVariable switch :=
    Vocabulary.hasVariable_withoutRaw.mpr (by decide)
  have hlevel : Vocabulary.withoutRaw.HasVariable level :=
    Vocabulary.hasVariable_withoutRaw.mpr (by decide)
  have hfactory : Constraint.allDifferent ∈ Expr.arrayConstraints := by
    simp [Expr.arrayConstraints]
  have hdifferent : Postable.BuiltFrom Vocabulary.withoutRaw
      (.item (.ofGlobal .allDifferent [.array [.float (.infinity false), .int 1]])) := by
    have hposted : Constraint.allDifferent [.float (.infinity false), .int 1] =
        .ok (.ofGlobal .allDifferent [.array [.float (.infinity false), .int 1]]) := rfl
    apply Postable.builtFrom_onArray hfactory _ hposted
    simp only [List.forall_mem_cons]
    exact ⟨.float trivial, .int 1, List.forall_mem_nil _⟩
  have hchoice : Postable.BuiltFrom Vocabulary.withoutRaw (.expr (.comparison .less
      (.conditional switch.toExpr (.float .nan) (.int 1)) (.int 2))) := by
    have hbranches : Expr.Built Vocabulary.withoutRaw
        (.conditional switch.toExpr (.float .nan) (.int 1)) :=
      .ifThenElse (.ofVariable hswitch) (.float trivial) (.int 1) rfl
    have hcompared : Expr.compare .less (.conditional switch.toExpr (.float .nan) (.int 1))
        (.int 2) = .ok (.comparison .less
          (.conditional switch.toExpr (.float .nan) (.int 1)) (.int 2)) := rfl
    exact .compare hbranches (.int 2) hcompared
  have hsearch : Search.BuiltFrom Vocabulary.withoutRaw
      (.branching ⟨.float (.infinity false), [level], .inputOrder, .indomainSplit⟩) := by
    have hkinds : ∀ declared ∈ [level], declared.kind = .float := List.forall_mem_singleton.mpr rfl
    exact .branching (List.forall_mem_singleton.mpr hlevel) (Branching.create_eq_ok.mpr
      ⟨⟨Branching.checkPrecision_infinity, List.cons_ne_nil _ _, hkinds, rfl⟩, rfl⟩)
  have hsearched : ReachableWithoutRaw searched := by
    apply ReachableWithoutRaw.run .empty
    simp only [List.forall_mem_cons]
    exact ⟨trivial, trivial, List.forall_mem_cons.mpr ⟨hdifferent, List.forall_mem_singleton.mpr
      hchoice⟩, hsearch, trivial, List.forall_mem_nil _⟩
  have hadvance : searched.advance (.operation (.setRestart (.geometric (.infinity false) 5))) =
      model := by
    have hsome : searched.search.isNone = false := rfl
    rw [advance, perform, setRestart, hsome, RestartStrategy.validate_infinity (by decide)]
    rfl
  have hreached : ReachableWithoutRaw model := by
    rw [← hadvance]
    exact hsearched.step (.operation (.setRestart _)) trivial
  have hobjective : model.objective = some ⟨.satisfy, none⟩ := rfl
  refine ⟨hreached, ?_, ?_, ?_⟩
  · have hconstraints : model.constraints =
        [.ofGlobal .allDifferent [.array [.float (.infinity false), .int 1]],
          .ofCondition (.comparison .less
            (.conditional switch.toExpr (.float .nan) (.int 1)) (.int 2))] := rfl
    rw [hconstraints, List.forall_mem_cons, List.forall_mem_singleton]
    constructor
    · have hmem : Expr.float (.infinity false) ∈ (Expr.predicate .allDifferent
          [.array [.float (.infinity false), .int 1]]).unexamined := by
        simp [Expr.unexamined, Expr.arrayGlobals, Expr.spread]
      exact Expr.not_hasFiniteLiterals hmem rfl
    · rintro ⟨-, hbelow⟩
      exact Expr.not_hasFiniteLiterals List.mem_cons_self rfl (hbelow _ List.mem_cons_self)
  · rintro search ⟨⟩
    exact List.mem_singleton.mpr rfl
  · rw [render, hobjective]
    exact congrArg (fun lines => Except.ok (joinLines lines)) (by decide +kernel)

end Model

end MiniZincModels
