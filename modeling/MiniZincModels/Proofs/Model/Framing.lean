import MiniZincModels.Proofs.Expr.Plain
import MiniZincModels.Proofs.Model.Items
import MiniZincModels.Proofs.Model.Names
import MiniZincModels.Proofs.SolveItem.Search
import MiniZincModels.Proofs.Text.Blank
import MiniZincModels.Proofs.Text.Fragment

/-!
# Items on lines of their own

No expression, declaration or search puts a line feed or a semicolon into the text of
a model, unless raw text does.  So every item is one line, which its semicolon ends,
and the text falls apart into just the items it was made of.
-/

namespace MiniZincModels

open Text (IsFragment IsStatement isFragment_append isFragment_between isFragment_intercalate
  isFragment_of_isValid)

namespace Expr

section Parts

variable {left right token function : String} {parts : List String}

theorem isFragment_binaryText (hleft : IsFragment left) (htoken : IsFragment token)
    (hright : IsFragment right) : IsFragment (binaryText left token right) := by
  simp only [binaryText, isFragment_append]
  exact ⟨⟨⟨⟨⟨⟨by decide, hleft⟩, by decide⟩, htoken⟩, by decide⟩, hright⟩, by decide⟩

theorem isFragment_callText (hfunction : IsFragment function)
    (hparts : ∀ part ∈ parts, IsFragment part) : IsFragment (callText function parts) := by
  simp only [callText, isFragment_append]
  exact ⟨⟨⟨hfunction, by decide⟩, isFragment_intercalate (by decide) hparts⟩, by decide⟩

theorem isFragment_listText (hparts : ∀ part ∈ parts, IsFragment part) :
    IsFragment (listText parts) := by
  rw [listText]
  exact isFragment_between (by decide) (isFragment_intercalate (by decide) hparts) (by decide)

end Parts

theorem isFragment_boolText (value : Bool) : IsFragment (boolText value) := by
  cases value <;> decide

theorem isFragment_operandOfInt (value : Int64) : IsFragment (Number.operandOfInt value) := by
  have hvalue := Text.isFragment_integerText value
  rw [Number.operandOfInt]
  split
  · exact isFragment_between (by decide) hvalue (by decide)
  · exact hvalue

theorem isFragment_operandOfFloat (value : Binary64) :
    IsFragment (Number.operandOfFloat value) := by
  have hvalue := Text.isFragment_floatText value
  rw [Number.operandOfFloat]
  split
  · exact isFragment_between (by decide) hvalue (by decide)
  · exact hvalue

/-- Literals and names are fragments, and so is what is printed around fragments. -/
theorem isTextual_isFragment :
    IsTextual (fun name => Identifier.isValid name = true) IsFragment where
  int := isFragment_operandOfInt
  float := isFragment_operandOfFloat
  bool := isFragment_boolText
  intSet := Text.isFragment_setText
  name _ hvalid := isFragment_of_isValid hvalid
  binary token hmem left right hleft hright := by
    have htokens : ∀ token ∈ binaryTokens, IsFragment token := by decide
    exact isFragment_binaryText hleft (htokens token hmem) hright
  joined token hmem operands hoperands := by
    have hseparators : ∀ token ∈ connectiveTokens, IsFragment (" " ++ token ++ " ") := by decide
    have hinner := isFragment_intercalate (hseparators token hmem) hoperands
    exact isFragment_between (by decide) hinner (by decide)
  call function hmem arguments harguments := by
    have hnames : ∀ function ∈ functionNames, IsFragment function := by decide
    exact isFragment_callText (hnames function hmem) harguments
  list elements helements := isFragment_listText helements
  choice test thenText elseText htest hthen helse := by
    simp only [isFragment_append]
    exact ⟨⟨⟨⟨⟨⟨by decide, htest⟩, by decide⟩, hthen⟩, by decide⟩, helse⟩, by decide⟩
  access name hvalid indices hindices := by
    rw [isFragment_append]
    exact ⟨isFragment_of_isValid hvalid, isFragment_listText hindices⟩

/-- The text of an expression without raw text is a fragment. -/
theorem isFragment_text {expr : Expr} (hfits : expr.Everywhere (Fits Vocabulary.withoutRaw)) :
    IsFragment expr.text :=
  isTextual_isFragment.text (everywhere_isDeclarable hfits)

end Expr

/-! ## Declarations -/

theorem Scalar.isFragment_text (value : Scalar) : IsFragment value.text := by
  cases value with
  | int value => exact Text.isFragment_integerText value
  | float value => exact Text.isFragment_floatText value
  | bool value => exact Expr.isFragment_boolText value

theorem Kind.isFragment_text (kind : Kind) : IsFragment kind.text := by
  cases kind <;> decide

namespace Constant

theorem isFragment_rangesText (constant : Constant) : IsFragment constant.rangesText := by
  apply isFragment_intercalate (by decide)
  rw [List.forall_mem_map]
  intro extent _
  rw [isFragment_append]
  exact ⟨by decide, Text.isFragment_toString extent⟩

theorem isFragment_typeText (constant : Constant) : IsFragment constant.typeText := by
  rw [typeText]
  split
  · exact constant.kind.isFragment_text
  · simp only [isFragment_append]
    exact ⟨⟨⟨by decide, constant.isFragment_rangesText⟩, by decide⟩, constant.kind.isFragment_text⟩

theorem isFragment_valueText (constant : Constant) : IsFragment constant.valueText := by
  have helements : ∀ part ∈ constant.elements.map Scalar.text, IsFragment part :=
    List.forall_mem_map.mpr fun element _ => element.isFragment_text
  have hlist := Expr.isFragment_listText helements
  rw [valueText]
  split
  · cases helements' : constant.elements.map Scalar.text with
    | nil => decide
    | cons first rest => exact helements first (by simp [helements'])
  · exact hlist
  · simp only [isFragment_append]
    exact ⟨⟨⟨⟨⟨⟨by decide, Text.isFragment_toString _⟩, by decide⟩, constant.isFragment_rangesText⟩,
      by decide⟩, hlist⟩, by decide⟩

theorem isStatement_declaration {constant : Constant}
    (hvalid : Identifier.isValid constant.name = true) : IsStatement constant.declaration := by
  apply IsFragment.isStatement
  simp only [isFragment_append]
  exact ⟨⟨⟨⟨constant.isFragment_typeText, by decide⟩, isFragment_of_isValid hvalid⟩, by decide⟩,
    constant.isFragment_valueText⟩

end Constant

theorem IntDomain.isFragment_text (domain : IntDomain) : IsFragment domain.text := by
  cases domain with
  | interval lower upper =>
    exact isFragment_between (Text.isFragment_integerText lower) (by decide)
      (Text.isFragment_integerText upper)
  | values set => exact Text.isFragment_setText set

theorem Domain.isFragment_text (domain : Domain) : IsFragment domain.text := by
  cases domain with
  | int domain => exact domain.isFragment_text
  | float lower upper =>
    exact isFragment_between (Text.isFragment_floatText lower) (by decide)
      (Text.isFragment_floatText upper)
  | bool => decide
  | intSet domain =>
    simp only [text, isFragment_append]
    exact ⟨by decide, domain.isFragment_text⟩

theorem Variable.isStatement_declaration {declared : Variable}
    (hvalid : Identifier.isValid declared.name = true) : IsStatement declared.declaration := by
  apply IsFragment.isStatement
  simp only [isFragment_append]
  exact ⟨⟨⟨by decide, declared.domain.isFragment_text⟩, by decide⟩, isFragment_of_isValid hvalid⟩

/-! ## Constraints and includes -/

namespace Constraint

theorem isFragment_bodyText {constraint : Constraint} (hbody : IsFragment constraint.body.text) :
    IsFragment constraint.bodyText := by
  rw [bodyText]
  split
  · rename_i strength _
    exact isFragment_between hbody (by decide) (by cases strength <;> decide)
  · exact hbody

theorem isStatement_text {constraint : Constraint} (hbody : IsFragment constraint.body.text) :
    IsStatement constraint.text := by
  have hfragment := isFragment_bodyText hbody
  rw [text]
  split
  · have hbracket : ");" = ")" ++ ";" := by decide
    rw [hbracket, ← String.append_assoc]
    apply IsFragment.isStatement
    exact isFragment_between (by decide) hfragment (by decide)
  · apply IsFragment.isStatement
    rw [isFragment_append]
    exact ⟨by decide, hfragment⟩

end Constraint

theorem Model.isStatement_includeItem (global : Global) : IsStatement (includeItem global) := by
  have hquote : "\";" = "\"" ++ ";" := by decide
  rw [includeItem, hquote, ← String.append_assoc]
  apply IsFragment.isStatement
  cases global <;> decide

/-! ## The solve item -/

theorem Branching.isFragment_text {single : Branching}
    (hvars : ∀ declared ∈ single.vars, Identifier.isValid declared.name = true) :
    IsFragment single.text := by
  have hnames : ∀ part ∈ single.vars.map Variable.name, IsFragment part :=
    List.forall_mem_map.mpr fun declared hmem => isFragment_of_isValid (hvars declared hmem)
  have hprecision : IsFragment (precisionText single.sort) := by
    cases single.sort with
    | float precision =>
      rw [precisionText, isFragment_append]
      exact ⟨Text.isFragment_floatText precision, by decide⟩
    | int | bool | set => decide
  have hname : IsFragment single.sort.kind.searchName := by cases single.sort.kind <;> decide
  have hvariable : IsFragment single.variableChoice.text := by
    cases single.variableChoice <;> decide
  have hvalue : IsFragment single.valueChoice.text := by cases single.valueChoice <;> decide
  simp only [text, isFragment_append]
  exact ⟨⟨⟨⟨⟨⟨⟨⟨hname, by decide⟩, isFragment_intercalate (by decide) hnames⟩, by decide⟩,
    hprecision⟩, hvariable⟩, by decide⟩, hvalue⟩, by decide⟩

theorem Search.isFragment_text {search : Search}
    (hbuilt : search.BuiltFrom Vocabulary.withoutRaw) : IsFragment search.text := by
  induction hbuilt with
  | branching hvars hcreated =>
    obtain ⟨-, rfl⟩ := Branching.create_eq_ok.mp hcreated
    exact Branching.isFragment_text hvars
  | @sequence searches _ ih =>
    have htexts : ∀ part ∈ texts searches, IsFragment part := by
      rw [texts_eq_map, List.forall_mem_map]
      exact ih
    exact isFragment_between (by decide) (isFragment_intercalate (by decide) htexts) (by decide)

theorem RestartStrategy.isFragment_text (strategy : RestartStrategy) :
    IsFragment strategy.text := by
  rw [text.eq_def]
  cases strategy with
  | constant scale | linear scale | luby scale =>
    exact isFragment_between (by decide) (Text.isFragment_toString scale) (by decide)
  | geometric base scale =>
    simp only [isFragment_append]
    exact ⟨⟨⟨⟨by decide, Text.isFragment_floatText base⟩, by decide⟩,
      Text.isFragment_toString scale⟩, by decide⟩

namespace Model

variable {model after : Model} {objective : Objective} {step : Step}

theorem BuiltFrom.isFragment_directivesText (h : model.BuiltFrom Vocabulary.withoutRaw) :
    IsFragment model.directivesText := by
  rw [directivesText]
  split
  · decide
  · rename_i search hsearch _
    rw [isFragment_append]
    exact ⟨by decide, Search.isFragment_text (h.search search hsearch)⟩
  · rename_i search strategy hsearch _
    simp only [isFragment_append]
    exact ⟨⟨⟨by decide, Search.isFragment_text (h.search search hsearch)⟩, by decide⟩,
      strategy.isFragment_text⟩

theorem BuiltFrom.isFragment_objectiveText (h : model.BuiltFrom Vocabulary.withoutRaw)
    (hobjective : model.objective = some objective) : IsFragment (objectiveText objective) := by
  have hcriteria : IsFragment objective.criteria.text := by cases objective.criteria <;> decide
  rw [objectiveText]
  split
  · exact hcriteria
  · rename_i expr hexpr
    have hbuilt := h.objective objective hobjective expr hexpr
    exact isFragment_between hcriteria (by decide) (Expr.isFragment_text hbuilt.wellFormed.fits)

theorem BuiltFrom.isStatement_solveItem (h : model.BuiltFrom Vocabulary.withoutRaw)
    (hobjective : model.objective = some objective) :
    IsStatement (model.solveItem objective) := by
  apply IsFragment.isStatement
  simp only [isFragment_append]
  exact ⟨⟨⟨by decide, h.isFragment_directivesText⟩, by decide⟩,
    h.isFragment_objectiveText hobjective⟩

/-! ## The lines of the text -/

theorem BuiltFrom.isStatement_of_mem_items (h : model.BuiltFrom Vocabulary.withoutRaw)
    (hnames : model.NamesAgree) (hobjective : model.objective = some objective) :
    ∀ line ∈ model.items objective, IsStatement line := by
  have hvalid : ∀ name ∈ model.constants.map Constant.name ++ model.vars.map Variable.name,
      Identifier.isValid name = true :=
    fun name hname => hnames.valid name (hnames.declared.subset hname)
  rw [List.forall_mem_append, List.forall_mem_map, List.forall_mem_map] at hvalid
  simp only [items, List.forall_mem_append, List.forall_mem_map, List.forall_mem_singleton]
  refine ⟨⟨⟨⟨?_, ?_⟩, ?_⟩, ?_⟩, h.isStatement_solveItem hobjective⟩
  · exact fun global _ => isStatement_includeItem global
  · exact fun constant hmem => Constant.isStatement_declaration (hvalid.1 constant hmem)
  · exact fun declared hmem => Variable.isStatement_declaration (hvalid.2 declared hmem)
  · intro constraint hmem
    have hbuilt := (h.constraints constraint hmem).1
    exact Constraint.isStatement_text (Expr.isFragment_text hbuilt.wellFormed.fits)

theorem toList_joinLines (lines : List String) :
    (joinLines lines).toList = (lines.map String.toList).flatMap fun line => line ++ ['\n'] := by
  rw [joinLines, String.toList_join, List.flatMap_map, List.flatMap_map]
  simp only [String.toList_append]
  rfl

/-- Lines without line feeds are found again between the line feeds behind them. -/
theorem splitAt_joinLines {lines : List String} (hlines : ∀ line ∈ lines, '\n' ∉ line.toList) :
    Text.splitAt '\n' (joinLines lines).toList = lines.map String.toList ++ [[]] := by
  have hsplit := Text.splitAt_lines (List.forall_mem_map.mpr hlines) List.not_mem_nil
  rwa [List.append_nil, ← toList_joinLines] at hsplit

/-- A step keeps what was declared and posted before it, and adds behind it only. -/
theorem Effect.prefixes (heffect : Effect model step after) :
    model.constants <+: after.constants ∧ model.vars <+: after.vars ∧
      model.constraints <+: after.constraints := by
  cases heffect with
  | unchanged | textKept | setCriteria | setSearch | setRestart =>
    exact ⟨List.prefix_rfl, List.prefix_rfl, List.prefix_rfl⟩
  | addConstant => exact ⟨List.prefix_append _ _, List.prefix_rfl, List.prefix_rfl⟩
  | addVariable | addVariables =>
    exact ⟨List.prefix_rfl, List.prefix_append _ _, List.prefix_rfl⟩
  | post => exact ⟨List.prefix_rfl, List.prefix_rfl, List.prefix_append _ _⟩

/-- Without raw text, the text of a reachable model holds each item on a line of its own, in the
order in which the items were added, and falls apart at the line feeds into just these items. -/
theorem reachable_text_framed (reached : ReachableWithoutRaw model)
    (hobjective : model.objective = some objective) :
    let lines := model.requiredIncludes.map includeItem
      ++ model.constants.map Constant.declaration ++ model.vars.map Variable.declaration
      ++ model.constraints.map Constraint.text
    let last := model.solveItem objective
    ∃ text, model.render = .ok text ∧
      text = String.join ((lines ++ [last]).map fun line => line ++ "\n") ∧
      Text.splitAt '\n' text.toList = (lines ++ [last]).map String.toList ++ [[]] ∧
      (∀ line ∈ lines ++ [last], IsStatement line) ∧
      (∀ line ∈ lines, ¬ "solve".toList <+: line.toList) ∧ "solve ".toList <+: last.toList ∧
      ∀ step, model.constants <+: (model.advance step).constants ∧
        model.vars <+: (model.advance step).vars ∧
        model.constraints <+: (model.advance step).constraints := by
  intro lines last
  have hstatements : ∀ line ∈ lines ++ [last], IsStatement line :=
    reached.builtFrom.isStatement_of_mem_items reached.reachable.namesAgree hobjective
  have hlines : lines = model.requiredIncludes.map includeItem ++ model.innerItems := by
    simp only [lines, innerItems, List.append_assoc]
  refine ⟨joinLines (lines ++ [last]), ?_, rfl, ?_, hstatements, ?_, ?_, ?_⟩
  · rw [render, hobjective]
    rfl
  · exact splitAt_joinLines fun line hline => (hstatements line hline).newline_not_mem
  · rw [hlines]
    exact fun line hline => not_solve_prefix hline
  · exact solve_prefix_solveItem model objective
  · intro step
    exact (advance_effect model step).prefixes

/-- A model with one item of each kind, and a search in which searches are nested. -/
theorem text_framed_of_nested_search :
    let declared : Variable := ⟨"x", .bool⟩
    let single : Branching := ⟨.bool, [declared], .inputOrder, .indomainMin⟩
    let model := empty.run [.addVariable "x" (.ofKind .bool), .addConstant "n" (.scalar (.int 3)),
      .post [.item (.ofGlobal .allEqual [.array [declared.toExpr]])] true,
      .setSearch (.sequence [.sequence [.branching single]]), .satisfy]
    let lines := ["include \"all_equal.mzn\";", "int: n = 3;", "var bool: x;",
      "constraint redundant_constraint(all_equal([x]));"]
    let last :=
      "solve :: seq_search([seq_search([bool_search([x], input_order, indomain_min)])]) " ++
      "satisfy;"
    ReachableWithoutRaw model ∧ ∃ text, model.render = .ok text ∧
      Text.splitAt '\n' text.toList = (lines ++ [last]).map String.toList ++ [[]] ∧
      ∀ line ∈ lines ++ [last], IsStatement line := by
  intro declared single model lines last
  have hvalid : Vocabulary.withoutRaw.HasVariable declared :=
    Vocabulary.hasVariable_withoutRaw.mpr (by decide)
  have hx : Expr.Built Vocabulary.withoutRaw declared.toExpr := .ofVariable hvalid
  have hequal : Constraint.allEqual ∈ Expr.arrayConstraints := by simp [Expr.arrayConstraints]
  have hposted : Constraint.allEqual [declared.toExpr] =
      .ok (.ofGlobal .allEqual [.array [declared.toExpr]]) := rfl
  have hitem : Postable.BuiltFrom Vocabulary.withoutRaw
      (.item (.ofGlobal .allEqual [.array [declared.toExpr]])) :=
    Postable.builtFrom_onArray hequal (List.forall_mem_singleton.mpr hx) hposted
  have hcreated : Branching.create .bool [declared] .inputOrder .indomainMin = .ok single := rfl
  have hsingle : Search.BuiltFrom Vocabulary.withoutRaw (.branching single) :=
    .branching (List.forall_mem_singleton.mpr hvalid) hcreated
  have hsearch :
      Search.BuiltFrom Vocabulary.withoutRaw (.sequence [.sequence [.branching single]]) :=
    .sequence (List.forall_mem_singleton.mpr
      (.sequence (List.forall_mem_singleton.mpr hsingle)))
  have hreached : ReachableWithoutRaw model := by
    apply ReachableWithoutRaw.run .empty
    simp only [List.forall_mem_cons]
    exact ⟨trivial, trivial, List.forall_mem_singleton.mpr hitem, hsearch, trivial,
      List.forall_mem_nil _⟩
  have hobjective : model.objective = some ⟨.satisfy, none⟩ := rfl
  have hlines : model.requiredIncludes.map includeItem ++ model.constants.map Constant.declaration
      ++ model.vars.map Variable.declaration ++ model.constraints.map Constraint.text = lines := by
    decide
  have hlast : model.solveItem ⟨.satisfy, none⟩ = last := by decide
  obtain ⟨text, hrender, -, hsplit, hstatements, -⟩ := reachable_text_framed hreached hobjective
  rw [hlines, hlast] at hsplit hstatements
  exact ⟨hreached, text, hrender, hsplit, hstatements⟩

end Model

end MiniZincModels
