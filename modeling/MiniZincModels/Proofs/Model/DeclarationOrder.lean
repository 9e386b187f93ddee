import MiniZincModels.Proofs.Model.Scope

/-!
# The order of declarations and uses

Only constraints and the solve item use names, and they stand below all declarations.  So in
the text of a model that uses nothing but its own declarations, each name is declared on one
line, and all lines that use it stand below that line.
-/

namespace MiniZincModels

/-- Somewhere in the part stands the name. -/
def SolvePart.Uses (name : String) : SolvePart → Prop
  | .search directive => ∃ declared ∈ directive.vars, declared.name = name
  | .objective expr => expr.Mentions name
  | .restart _ => False
  | .criteria _ => False

/-- The items of which the text of a model is made, each on a line of its own. -/
inductive Item
  | including (global : Global)
  | constant (declared : Constant)
  | var (declared : Variable)
  | constraint (posted : Constraint)
  | solve (parts : List SolvePart)

namespace Item

def text : Item → String
  | .including global => Model.includeItem global
  | .constant declared => declared.declaration
  | .var declared => declared.declaration
  | .constraint posted => posted.text
  | .solve parts => SolvePart.textBehind "solve" parts ++ ";"

def declares? : Item → Option String
  | .constant declared => some declared.name
  | .var declared => some declared.name
  | _ => none

def Uses (name : String) : Item → Prop
  | .constraint posted => posted.body.Mentions name
  | .solve parts => ∃ part ∈ parts, part.Uses name
  | _ => False

end Item

namespace Model

variable {model : Model} {objective : Objective}

/-! ## The items -/

/-- The items above the constraints. -/
def heading (model : Model) : List Item :=
  model.requiredIncludes.map .including ++ model.constants.map .constant ++ model.vars.map .var

/-- The constraints and the solve item. -/
def body (model : Model) (objective : Objective) : List Item :=
  model.constraints.map .constraint ++ [.solve (model.solveParts objective)]

theorem RestartsSearch.map_text (h : model.RestartsSearch) (objective : Objective) :
    (model.heading ++ model.body objective).map Item.text = model.items objective := by
  have hsolve : Item.text (.solve (model.solveParts objective)) = model.solveItem objective :=
    (h.solveItem_eq objective).symm
  simp only [heading, body, items, List.map_append, List.map_map, List.map_singleton, hsolve,
    List.append_assoc]
  rfl

theorem filterMap_declares?_heading (model : Model) :
    model.heading.filterMap Item.declares? = model.declaredNames := by
  have hincludes : model.requiredIncludes.filterMap (Item.declares? ∘ .including) = [] :=
    List.filterMap_eq_nil_iff.mpr fun _ _ => rfl
  have hconstants :
      model.constants.filterMap (Item.declares? ∘ .constant) = model.constants.map Constant.name :=
    congrFun List.filterMap_eq_map' _
  have hvars : model.vars.filterMap (Item.declares? ∘ .var) = model.vars.map Variable.name :=
    congrFun List.filterMap_eq_map' _
  simp only [heading, List.filterMap_append, List.filterMap_map, hincludes, hconstants, hvars,
    List.nil_append]
  rfl

theorem filterMap_declares?_body (model : Model) (objective : Objective) :
    (model.body objective).filterMap Item.declares? = [] := by
  rw [List.filterMap_eq_nil_iff, body, List.forall_mem_append, List.forall_mem_map,
    List.forall_mem_singleton]
  exact ⟨fun _ _ => rfl, rfl⟩

theorem not_uses_of_mem_heading {item : Item} (hmem : item ∈ model.heading) (name : String) :
    ¬ item.Uses name := by
  rw [heading, List.mem_append, List.mem_append] at hmem
  rcases hmem with (hmem | hmem) | hmem
  all_goals
    obtain ⟨_, -, rfl⟩ := List.mem_map.mp hmem
    exact id

/-- An item that uses a name stands below the heading. -/
theorem heading_prefix_of_uses {before after : List Item} {item : Item} {name : String}
    (hitems : model.heading ++ model.body objective = before ++ item :: after)
    (huses : item.Uses name) : model.heading <+: before := by
  rcases List.append_eq_append_iff.mp hitems with ⟨between, hbefore, -⟩ | ⟨between, hheading, hrest⟩
  · exact ⟨between, hbefore.symm⟩
  · cases between with
    | nil => exact ⟨[], by rw [hheading, List.append_nil, List.append_nil]⟩
    | cons other between =>
      cases (List.cons.inj hrest).1
      have hmem : item ∈ model.heading := by
        rw [hheading]
        simp
      exact absurd huses (not_uses_of_mem_heading hmem name)

/-! ## Uses -/

section Uses

variable (hnames : model.NamesAgree) (hbuilt : model.BuiltFrom model.vocabulary)
  (hobjective : model.objective = some objective)
include hnames hbuilt hobjective

theorem mem_declaredNames_of_part {part : SolvePart} (hmem : part ∈ model.solveParts objective)
    {name : String} (huses : part.Uses name) : name ∈ model.declaredNames := by
  cases part with
  | search directive =>
    have hsearch : model.search = some directive := by simpa [solveParts] using hmem
    obtain ⟨declared, hdeclared, rfl⟩ := huses
    have hvar : declared ∈ model.vars :=
      (hbuilt.search directive hsearch).hasVariable declared hdeclared
    exact List.mem_append_right _ (List.mem_map_of_mem hvar)
  | objective expr =>
    have hexpr : objective.expr = some expr := by simpa [solveParts] using hmem
    have hscope := hnames.everywhere_inScope (hbuilt.objective objective hobjective expr hexpr)
    exact mem_declaredNames_of_mentions hscope huses
  | restart | criteria => exact huses.elim

theorem mem_declaredNames_of_uses {item : Item} {name : String}
    (hmem : item ∈ model.heading ++ model.body objective) (huses : item.Uses name) :
    name ∈ model.declaredNames := by
  rcases List.mem_append.mp hmem with hheading | hbody
  · exact absurd huses (not_uses_of_mem_heading hheading name)
  rw [body, List.mem_append, List.mem_singleton] at hbody
  rcases hbody with hconstraint | rfl
  · obtain ⟨posted, hposted, rfl⟩ := List.mem_map.mp hconstraint
    have hscope := hnames.everywhere_inScope (hbuilt.constraints posted hposted).1
    exact mem_declaredNames_of_mentions hscope huses
  · obtain ⟨part, hpart, hname⟩ := huses
    exact mem_declaredNames_of_part hnames hbuilt hobjective hpart hname

theorem mem_above_of_uses {above below : List Item} {item : Item} {name : String}
    (hitems : model.heading ++ model.body objective = above ++ item :: below)
    (huses : item.Uses name) : name ∈ above.filterMap Item.declares? := by
  have hmem : item ∈ model.heading ++ model.body objective := by
    rw [hitems]
    simp
  have hdeclared := mem_declaredNames_of_uses hnames hbuilt hobjective hmem huses
  rw [← filterMap_declares?_heading] at hdeclared
  exact ((heading_prefix_of_uses hitems huses).filterMap _).subset hdeclared

end Uses

/-- If a program uses no raw text and only variables and constants that the model has handed out
to it, then in every model it reaches, each name in a constraint, in the objective or in the
search is that of exactly one declaration, of whose kind it is, and each access to an array has
as many indices as the array has dimensions.  So the text declares each name on one line, and
uses it below that line only. -/
theorem names_declared_above_uses (steps : List Step) (hsuffice : empty.AnswersSuffice [] steps) :
    let model := empty.after steps
    (∀ constraint ∈ model.constraints, constraint.body.Everywhere model.InScope) ∧
    (∀ objective ∈ model.objective, ∀ expr ∈ objective.expr, expr.Everywhere model.InScope) ∧
    (∀ search ∈ model.search, ∀ declared ∈ search.vars,
      declared ∈ model.vars ∧ model.declaredNames.count declared.name = 1) ∧
    ∀ objective, model.objective = some objective →
      ∃ items : List Item, items = model.heading ++ model.body objective ∧
        model.render = .ok (joinLines (items.map Item.text)) ∧
        (items.filterMap Item.declares?).Nodup ∧
        ∀ above item below, items = above ++ item :: below → ∀ name, item.Uses name →
          name ∈ above.filterMap Item.declares? := by
  intro model
  have hreached : Reachable model := Reachable.after .empty steps
  have hnames := hreached.namesAgree
  obtain ⟨answers, hscoped⟩ := scoped_empty.after hsuffice
  have hbuilt := hscoped.builtFrom_vocabulary
  refine ⟨?_, ?_, ?_, ?_⟩
  · exact fun constraint hmem => hnames.everywhere_inScope (hbuilt.constraints constraint hmem).1
  · exact fun objective hobjective expr hexpr =>
      hnames.everywhere_inScope (hbuilt.objective objective hobjective expr hexpr)
  · intro search hsearch declared hmem
    have hvar : declared ∈ model.vars := (hbuilt.search search hsearch).hasVariable declared hmem
    exact ⟨hvar, hnames.count_var hvar⟩
  · intro objective hobjective
    refine ⟨_, rfl, ?_, ?_, ?_⟩
    · rw [hreached.restartsSearch.map_text, render, hobjective]
    · rw [List.filterMap_append, filterMap_declares?_heading, filterMap_declares?_body,
        List.append_nil]
      exact hnames.declared.nodup_iff.mpr hnames.nodup
    · intro above item below hitems name huses
      exact mem_above_of_uses hnames hbuilt hobjective hitems huses

/-- An array is indexed by a variable, a collection is searched, and a name is refused that is
taken by the array. -/
theorem declared_above_indexed_access :
    let table : Constant := ⟨"a", .int, [2], [.int 3, .int 4]⟩
    let level : Variable := ⟨"x", .int (.interval 0 1)⟩
    let switch : Variable := ⟨"q_0", .bool⟩
    let picked : Expr := table.access [.arithmetic .add level.toExpr (.int 1)]
    let steps : List Step :=
      [.operation (.addConstant "a" (.array [.scalar (.int 3), .scalar (.int 4)])),
        .operation (.addVariables "q" [(.single 0, .ofKind .bool)]),
        .operation (.addVariable "x" (.ofInterval 0 1)),
        .operation (.addVariable "a" (.ofKind .bool)),
        .operation (.post [.expr (.comparison .less picked (.int 4))] false),
        .operation (.setSearch (.branching ⟨.bool, [switch], .inputOrder, .indomainMin⟩)),
        .operation (.minimize picked)]
    let model := empty.after steps
    empty.AnswersSuffice [] steps ∧
      (∀ constraint ∈ model.constraints, constraint.body.Everywhere model.InScope) ∧
      ∃ items : List Item,
        items.map Item.text = ["array[1..2] of int: a = [3, 4];", "var bool: q_0;", "var 0..1: x;",
          "constraint (a[(x + 1)] < 4);",
          "solve :: bool_search([q_0], input_order, indomain_min) minimize a[(x + 1)];"] ∧
        model.render = .ok (joinLines (items.map Item.text)) ∧
        ∀ above item below, items = above ++ item :: below → ∀ name, item.Uses name →
          name ∈ above.filterMap Item.declares? := by
  intro table level switch picked steps model
  let handles : List Answer :=
    [.newConstant table, .newCollection ⟨[(.single 0, switch)], [(.single 0, 0)]⟩,
      .newVariable level]
  have hpicked : ∀ others, Expr.Built (.ofAnswers (handles ++ others)) picked := by
    intro others
    have htable : (Vocabulary.ofAnswers (handles ++ others)).HasConstant table :=
      ⟨.newConstant table, by simp [handles], List.mem_singleton.mpr rfl⟩
    have hlevel : (Vocabulary.ofAnswers (handles ++ others)).HasVariable level :=
      ⟨.newVariable level, by simp [handles], List.mem_singleton.mpr rfl⟩
    exact .indexBy htable (List.forall_mem_singleton.mpr (.ofVariable hlevel)) rfl
  have hless : Expr.compare .less picked (.int 4) = .ok (.comparison .less picked (.int 4)) := rfl
  have hposted : Postable.BuiltFrom (.ofAnswers handles)
      (.expr (.comparison .less picked (.int 4))) := .compare (hpicked []) (.int 4) hless
  have hswitch : (Vocabulary.ofAnswers (handles ++ [.done])).HasVariable switch :=
    ⟨handles[1], by simp [handles], List.mem_singleton.mpr rfl⟩
  have hcreated : Branching.create .bool [switch] .inputOrder .indomainMin =
      .ok ⟨.bool, [switch], .inputOrder, .indomainMin⟩ := rfl
  have hsuffice : empty.AnswersSuffice [] steps :=
    ⟨trivial, trivial, trivial, trivial, List.forall_mem_singleton.mpr hposted,
      .branching (List.forall_mem_singleton.mpr hswitch) hcreated, hpicked [.done, .done], trivial⟩
  obtain ⟨hconstraints, -, -, htext⟩ := names_declared_above_uses steps hsuffice
  obtain ⟨items, hitems, hrender, -, habove⟩ := htext _ rfl
  refine ⟨hsuffice, hconstraints, items, ?_, hrender, habove⟩
  rw [hitems]
  decide

end Model

end MiniZincModels
