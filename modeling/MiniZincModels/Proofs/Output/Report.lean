import MiniZincModels.Proofs.Model.Names
import MiniZincModels.Proofs.Output.Stream

/-!
# Reports on the variables of a model

A solver reports values under the names which the model declares.  These names are
valid and pairwise different, and none of them is the name of the objective, so what
is looked up in the solutions that were read is what was reported.
-/

namespace MiniZincModels

/-- A solution as a solver knows it: the values of the variables, and that of the objective
if there is one. -/
structure Report where
  value : Variable → Value
  objective : Option Value

namespace Report

/-- The values of the variables under the names of these. -/
def assignments (report : Report) (model : Model) : List (String × Value) :=
  model.vars.map fun declared => (declared.name, report.value declared)

/-- All that is reported, the objective included. -/
def entries (report : Report) (model : Model) : List (String × Value) :=
  report.assignments model ++ report.objective.toList.map fun value =>
    (Solution.objectiveName, value)

/-- No float in the reported values is a not-a-number. -/
structure HasNumbers (report : Report) (model : Model) : Prop where
  vars : ∀ declared ∈ model.vars, (report.value declared).HasNumbers
  objective : ∀ value ∈ report.objective, value.HasNumbers

end Report

/-- The solution gives back what was reported, and lists it in the order of the names. -/
structure Solution.Reports (solution : Solution) (model : Model) (report : Report) : Prop where
  get : ∀ declared ∈ model.vars, solution.get? declared = some (report.value declared)
  objective : solution.objective? = report.objective
  listed : solution.toList.Perm (report.assignments model)
  ordered : (solution.toList.map Prod.fst).Pairwise (· < ·)

namespace Model

variable {model : Model} {report : Report} {order : List (String × Value)}

/-- No variable has the name under which the objective is reported. -/
theorem Reachable.name_ne_objectiveName (reached : Reachable model) {declared : Variable}
    (hmem : declared ∈ model.vars) : declared.name ≠ Solution.objectiveName := by
  intro hname
  have hvalid := reached.isValid_of_mem_vars hmem
  rw [hname] at hvalid
  exact absurd hvalid (by decide)

theorem Reachable.isPrintable_of_mem_entries (reached : Reachable model)
    (hnumbers : report.HasNumbers model) :
    ∀ entry ∈ report.entries model, Solution.IsPrintable entry := by
  intro entry hentry
  rw [Report.entries, List.mem_append] at hentry
  rcases hentry with hentry | hentry
  · obtain ⟨declared, hmem, rfl⟩ := List.mem_map.mp hentry
    have hvalid := reached.isValid_of_mem_vars hmem
    exact ⟨Identifier.ne_empty hvalid, Identifier.isNameCharacter_of_mem hvalid,
      hnumbers.vars declared hmem⟩
  · obtain ⟨value, hmem, rfl⟩ := List.mem_map.mp hentry
    have hcharacters : ∀ c ∈ Solution.objectiveName.toList,
        Identifier.isNameCharacter c = true := by
      decide
    have hne : Solution.objectiveName ≠ "" := by decide
    exact ⟨hne, hcharacters, hnumbers.objective value (Option.mem_toList.mp hmem)⟩

theorem Reachable.nodup_names_entries (reached : Reachable model) (report : Report) :
    ((report.entries model).map Prod.fst).Nodup := by
  have hvars : ((report.assignments model).map Prod.fst) = model.vars.map Variable.name := by
    rw [Report.assignments, List.map_map]
    rfl
  rw [Report.entries, List.map_append, hvars]
  cases report.objective with
  | none => simpa using reached.nodup_vars
  | some value =>
    have hobjective : Solution.objectiveName ∉ model.vars.map Variable.name := by
      intro hmem
      obtain ⟨declared, hdeclared, hname⟩ := List.mem_map.mp hmem
      exact reached.name_ne_objectiveName hdeclared hname
    rw [Option.toList_some, List.map_singleton, List.map_singleton]
    exact reached.nodup_vars.append (by simp) (by simpa using hobjective)

theorem Reachable.objective_mem_entries (reached : Reachable model) (value : Value) :
    (Solution.objectiveName, value) ∈ report.entries model ↔ report.objective = some value := by
  have hvars : (Solution.objectiveName, value) ∉ report.assignments model := by
    intro hmem
    obtain ⟨declared, hdeclared, heq⟩ := List.mem_map.mp hmem
    exact reached.name_ne_objectiveName hdeclared (congrArg Prod.fst heq)
  rw [Report.entries, List.mem_append]
  simp [hvars, Option.mem_toList]

theorem Reachable.filter_entries (reached : Reachable model) (report : Report) :
    (report.entries model).filter (fun entry => entry.1 ≠ Solution.objectiveName) =
      report.assignments model := by
  have hvars : ∀ entry ∈ report.assignments model,
      decide (entry.1 ≠ Solution.objectiveName) = true := by
    intro entry hentry
    obtain ⟨declared, hmem, rfl⟩ := List.mem_map.mp hentry
    exact decide_eq_true (reached.name_ne_objectiveName hmem)
  rw [Report.entries, List.filter_append, List.filter_eq_self.mpr hvars]
  simp

/-- In whatever order the values are assigned, they make a solution which gives them back. -/
theorem Reachable.reports_ofList (reached : Reachable model)
    (horder : order.Perm (report.entries model)) :
    (Solution.ofList order).Reports model report := by
  have hnodup : (order.map Prod.fst).Nodup :=
    (horder.map Prod.fst).nodup_iff.mpr (reached.nodup_names_entries report)
  constructor
  · intro declared hmem
    apply (Solution.find?_ofList_eq_some hnodup).mpr
    apply horder.mem_iff.mpr
    exact List.mem_append_left _ (List.mem_map_of_mem hmem)
  · apply Option.ext
    intro value
    calc (Solution.ofList order).objective? = some value
        ↔ (Solution.objectiveName, value) ∈ order := Solution.find?_ofList_eq_some hnodup
      _ ↔ (Solution.objectiveName, value) ∈ report.entries model := horder.mem_iff
      _ ↔ report.objective = some value := reached.objective_mem_entries value
  · have hassigned : (Solution.ofList order).assignments.Perm (report.entries model) :=
      (Solution.perm_assignments_ofList hnodup).trans horder
    rw [Solution.toList, ← reached.filter_entries report]
    exact hassigned.filter _
  · exact (Solution.ascending_ofList order).sublist (List.filter_sublist.map Prod.fst)

theorem exists_report_of_mem {orders : List (List (String × Value))} {reports : List Report}
    (horders : List.Forall₂ (fun order report => order.Perm (report.entries model))
      orders reports) (hmem : order ∈ orders) :
    ∃ report ∈ reports, order.Perm (report.entries model) := by
  induction horders with
  | nil => cases hmem
  | cons hfirst hrest ih =>
    rcases List.mem_cons.mp hmem with rfl | hmem
    · exact ⟨_, List.mem_cons_self, hfirst⟩
    · obtain ⟨report, hreport, hperm⟩ := ih hmem
      exact ⟨report, List.mem_cons_of_mem _ hreport, hperm⟩

/-- What is written for the variables of a reachable model is read back.  The values of each
solution may come in any order, and blank lines, comments, blanks around the lines and the
line endings do not matter. -/
theorem reachable_read_reports (reached : Reachable model) {reports : List Report}
    (hnumbers : ∀ report ∈ reports, report.HasNumbers model)
    {orders : List (List (String × Value))}
    (horders : List.Forall₂ (fun order report => order.Perm (report.entries model))
      orders reports)
    {marker : Option (String × SolveStatus)}
    (hmarker : ∀ entry ∈ marker, entry ∈ SolveStatus.markers) {transcript : Transcript}
    (hlines : Interspersed (SolveResult.streamLines orders marker) transcript.allLines) :
    ∃ result, SolveResult.read transcript.text = .ok result ∧
      List.Forall₂ (fun solution report => solution.Reports model report)
        result.solutions reports ∧
      result.status = SolveResult.streamStatus reports marker := by
  have hprintable : ∀ order ∈ orders, ∀ entry ∈ order, Solution.IsPrintable entry := by
    intro order horder entry hentry
    obtain ⟨report, hreport, hperm⟩ := exists_report_of_mem horders horder
    apply reached.isPrintable_of_mem_entries (hnumbers report hreport)
    exact hperm.mem_iff.mp hentry
  have hstatus : SolveResult.streamStatus orders marker =
      SolveResult.streamStatus reports marker := by
    cases horders <;> rfl
  refine ⟨_, SolveResult.read_transcript hprintable hmarker hlines, ?_, hstatus⟩
  rw [List.forall₂_map_left_iff]
  exact horders.imp fun order report horder => reached.reports_ofList horder

/-- A comment, an indented line with a carriage return, the value of the objective before
that of the variable, and an empty line before the marker. -/
theorem read_reports_of_set_variable :
    let model := empty.advance (.operation (.addVariable "x"
      ((Definition.ofKind .intSet).withValues [1, 2, 5])))
    let bare (content : List Char) (hcontent : '\n' ∉ [] ++ content ++ []) : Line :=
      ⟨[], content, [], rfl, rfl, hcontent⟩
    let indented : Line := ⟨[' ', '\t'], "x = \x7b1, 5\x7d;".toList, [' '], by decide,
      by decide, by decide⟩
    let transcript : Transcript :=
      ⟨[(bare "% solved".toList (by decide), .lineFeed),
        (bare "_objective = -3;".toList (by decide), .lineFeed),
        (indented, .carriageReturnLineFeed),
        (bare "----------".toList (by decide), .lineFeed),
        (bare [] (by decide), .lineFeed)],
        bare "==========".toList (by decide)⟩
    let report : Report := ⟨fun _ => .set (IntSet.ofList [1, 5]), some (.int (-3))⟩
    ∃ result, SolveResult.read transcript.text = .ok result ∧
      List.Forall₂ (fun solution report => solution.Reports model report)
        result.solutions [report] ∧
      result.status = .complete := by
  intro model bare indented transcript report
  have hreached : Reachable model := ReachableBy.empty.step _ trivial
  have hnumbers : ∀ one ∈ [report], one.HasNumbers model := by
    intro one hmem
    rw [List.mem_singleton] at hmem
    subst hmem
    exact ⟨fun _ _ => trivial, fun value hvalue => by cases hvalue; trivial⟩
  have horder : (report.entries model).reverse.Perm (report.entries model) :=
    List.reverse_perm _
  have hmarker : ∀ entry ∈ some ("==========", SolveStatus.complete),
      entry ∈ SolveStatus.markers := by
    rintro entry ⟨⟩
    decide
  have hcontents :
      SolveResult.streamLines [(report.entries model).reverse] (some ("==========", .complete)) =
        ["_objective = -3;".toList, indented.content, "----------".toList,
          "==========".toList] := by
    decide
  have hlines : Interspersed
      (SolveResult.streamLines [(report.entries model).reverse] (some ("==========", .complete)))
      transcript.allLines := by
    rw [hcontents]
    exact .comment _ rfl (.line (bare _ _) (.line indented (.line (bare _ _)
      (.blank _ rfl (.line (bare _ _) .nil)))))
  exact reachable_read_reports hreached hnumbers (.cons horder .nil) hmarker hlines

end Model

end MiniZincModels
