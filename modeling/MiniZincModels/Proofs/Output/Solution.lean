import Mathlib.Data.List.Nodup
import Mathlib.Data.String.Basic
import MiniZincModels.Output.Solution
import MiniZincModels.Proofs.Identifier
import MiniZincModels.Proofs.Output.Value

/-!
# Solutions read back

The assignments of a solution are held in the strict order of their names, and a name
has the value that was assigned to it last.  A text of one statement for each
assignment is read as the solution of these assignments.
-/

namespace MiniZincModels.Solution

/-! ## Assignments in order -/

section Assignments

variable {name other : String} {value : Value} {entries : List (String × Value)}

/-- The names are in strictly ascending order, so no name is there twice. -/
def Ascending (entries : List (String × Value)) : Prop :=
  (entries.map Prod.fst).Pairwise (· < ·)

theorem mem_names_assignOrdered :
    other ∈ (assignOrdered name value entries).map Prod.fst ↔
      other = name ∨ other ∈ entries.map Prod.fst := by
  induction entries with
  | nil => simp [assignOrdered]
  | cons entry rest ih =>
    rw [assignOrdered]
    by_cases hlt : name < entry.1
    · rw [if_pos hlt, List.map_cons, List.mem_cons]
    · rw [if_neg hlt]
      by_cases heq : name = entry.1
      · rw [if_pos heq, List.map_cons, List.map_cons, List.mem_cons, List.mem_cons, heq]
        tauto
      · rw [if_neg heq, List.map_cons, List.map_cons, List.mem_cons, List.mem_cons, ih]
        tauto

theorem ascending_assignOrdered (h : Ascending entries) :
    Ascending (assignOrdered name value entries) := by
  induction entries with
  | nil => simp [Ascending, assignOrdered]
  | cons entry rest ih =>
    rw [Ascending, List.map_cons, List.pairwise_cons] at h
    rw [assignOrdered]
    by_cases hlt : name < entry.1
    · rw [if_pos hlt, Ascending, List.map_cons, List.map_cons, List.pairwise_cons,
        List.forall_mem_cons]
      refine ⟨⟨hlt, ?_⟩, List.pairwise_cons.mpr h⟩
      intro later hlater
      exact lt_trans hlt (h.1 later hlater)
    · rw [if_neg hlt]
      by_cases heq : name = entry.1
      · rw [if_pos heq, Ascending, List.map_cons, List.pairwise_cons, heq]
        exact h
      · rw [if_neg heq, Ascending, List.map_cons, List.pairwise_cons]
        refine ⟨?_, ih h.2⟩
        intro later hlater
        rcases mem_names_assignOrdered.mp hlater with rfl | hlater
        · exact lt_of_le_of_ne (not_lt.mp hlt) (Ne.symm heq)
        · exact h.1 later hlater

/-- The value that was assigned last is found, and every other name keeps its value. -/
theorem find?_assign (solution : Solution) :
    (solution.assign name value).find? other =
      if name = other then some value else solution.find? other := by
  obtain ⟨entries⟩ := solution
  rw [find?, assign, find?]
  induction entries with
  | nil => by_cases h : name = other <;> simp [assignOrdered, h]
  | cons entry rest ih =>
    rw [assignOrdered]
    by_cases hlt : name < entry.1
    · rw [if_pos hlt]
      by_cases h : name = other
      · simp [h]
      · rw [if_neg h, List.find?_cons_of_neg (by simpa using h)]
    · rw [if_neg hlt]
      by_cases heq : name = entry.1
      · rw [if_pos heq]
        by_cases h : name = other
        · simp [h]
        · have hentry : entry.1 ≠ other := heq ▸ h
          rw [if_neg h, List.find?_cons_of_neg (by simpa using h),
            List.find?_cons_of_neg (by simpa using hentry)]
      · rw [if_neg heq]
        by_cases hentry : entry.1 = other
        · have h : name ≠ other := hentry ▸ heq
          simp [hentry, h]
        · rw [List.find?_cons_of_neg (by simpa using hentry), ih,
            List.find?_cons_of_neg (by simpa using hentry)]

theorem ascending_ofList (entries : List (String × Value)) :
    Ascending (ofList entries).assignments := by
  have hfold : ∀ solution : Solution, Ascending solution.assignments →
      Ascending (entries.foldl (fun solution entry => solution.assign entry.1 entry.2)
        solution).assignments := by
    induction entries with
    | nil => exact fun _ h => h
    | cons entry rest ih => exact fun solution h => ih _ (ascending_assignOrdered h)
  exact hfold empty (by simp [Ascending, empty])

/-- The assignments are searched from the last one to the first. -/
theorem find?_ofList (entries : List (String × Value)) (name : String) :
    (ofList entries).find? name =
      (entries.reverse.find? fun entry => entry.1 = name).map Prod.snd := by
  have hfold : ∀ solution : Solution,
      (entries.foldl (fun solution entry => solution.assign entry.1 entry.2) solution).find? name =
        ((entries.reverse.find? fun entry => entry.1 = name).map Prod.snd).or
          (solution.find? name) := by
    induction entries with
    | nil => simp
    | cons entry rest ih =>
      intro solution
      rw [List.foldl_cons, ih, find?_assign, List.reverse_cons, List.find?_append]
      cases rest.reverse.find? fun entry => entry.1 = name with
      | some found => simp
      | none => by_cases h : entry.1 = name <;> simp [h]
  rw [ofList, hfold]
  simp [find?, empty]

theorem find?_eq_some_iff (hnodup : (entries.map Prod.fst).Nodup) :
    (entries.find? fun entry => entry.1 = name).map Prod.snd = some value ↔
      (name, value) ∈ entries := by
  constructor
  · intro h
    obtain ⟨entry, hfound, hvalue⟩ := Option.map_eq_some_iff.mp h
    have hname : entry.1 = name := by simpa using List.find?_some hfound
    rw [← hname, ← hvalue]
    exact List.mem_of_find?_eq_some hfound
  · intro hmem
    have hsome : (entries.find? fun entry => entry.1 = name).isSome = true := by
      rw [List.find?_isSome]
      exact ⟨(name, value), hmem, by simp⟩
    obtain ⟨entry, hfound⟩ := Option.isSome_iff_exists.mp hsome
    have hname : entry.1 = name := by simpa using List.find?_some hfound
    have hentry : entry = (name, value) :=
      List.inj_on_of_nodup_map hnodup (List.mem_of_find?_eq_some hfound) hmem hname
    rw [hfound, hentry]
    rfl

/-- If no name is assigned twice, the solution has exactly the values assigned. -/
theorem find?_ofList_eq_some (hnodup : (entries.map Prod.fst).Nodup) :
    (ofList entries).find? name = some value ↔ (name, value) ∈ entries := by
  have hreverse : (entries.reverse.map Prod.fst).Nodup := by
    rwa [List.map_reverse, List.nodup_reverse]
  rw [find?_ofList, find?_eq_some_iff hreverse, List.mem_reverse]

theorem perm_assignments_ofList (hnodup : (entries.map Prod.fst).Nodup) :
    (ofList entries).assignments.Perm entries := by
  have hascending : ((ofList entries).assignments.map Prod.fst).Nodup :=
    (ascending_ofList entries).imp ne_of_lt
  rw [List.perm_ext_iff_of_nodup hascending.of_map hnodup.of_map]
  intro entry
  calc entry ∈ (ofList entries).assignments
      ↔ (ofList entries).find? entry.1 = some entry.2 := (find?_eq_some_iff hascending).symm
    _ ↔ entry ∈ entries := find?_ofList_eq_some hnodup

end Assignments

/-! ## Statements -/

section Statements

/-- The statement which assigns a value to a name. -/
def statement (entry : String × Value) : List Char :=
  entry.1.toList ++ ' ' :: '=' :: ' ' :: entry.2.text.toList

/-- An assignment that has a statement: the name consists of name characters, and no float
in the value is a not-a-number. -/
structure IsPrintable (entry : String × Value) : Prop where
  name_ne : entry.1 ≠ ""
  isNameCharacter : ∀ c ∈ entry.1.toList, Identifier.isNameCharacter c = true
  hasNumbers : entry.2.HasNumbers

variable {entry : String × Value} {entries : List (String × Value)}

theorem IsPrintable.not_mem_name (h : IsPrintable entry) {c : Char}
    (hc : Identifier.isNameCharacter c = false) : c ∉ entry.1.toList := by
  intro hmem
  rw [h.isNameCharacter c hmem] at hc
  cases hc

theorem IsPrintable.isTight_name (h : IsPrintable entry) : Text.IsTight entry.1.toList :=
  Text.isTight_of_forall fun c hc => Text.not_isBlank_of_isNameCharacter (h.isNameCharacter c hc)

/-- The first character of a statement is the first one of the name. -/
theorem IsPrintable.head (h : IsPrintable entry) :
    ∃ first rest, statement entry = first :: rest ∧ Identifier.isNameCharacter first = true := by
  have hne : entry.1.toList ≠ [] := fun hnil => h.name_ne (String.toList_eq_nil_iff.mp hnil)
  obtain ⟨first, rest, hname⟩ := List.exists_cons_of_ne_nil hne
  refine ⟨first, _, by rw [statement, hname, List.cons_append], ?_⟩
  exact h.isNameCharacter first (hname ▸ List.mem_cons_self)

theorem IsPrintable.statement_ne_nil (h : IsPrintable entry) : statement entry ≠ [] := by
  obtain ⟨first, rest, heq, -⟩ := h.head
  exact heq ▸ List.cons_ne_nil first rest

theorem IsPrintable.isTight_statement (h : IsPrintable entry) : Text.IsTight (statement entry) := by
  have hvalue := Value.isElement_text entry.2 h.hasNumbers
  obtain ⟨first, rest, heq, hfirst⟩ := h.head
  constructor
  · rw [heq]
    simpa using Text.not_isBlank_of_isNameCharacter hfirst
  · obtain ⟨c, others, htext⟩ := List.exists_cons_of_ne_nil hvalue.ne_nil
    have hlast := hvalue.isTight.2
    rw [htext] at hlast
    simpa [statement, htext] using hlast

theorem IsPrintable.not_mem_statement (h : IsPrintable entry) :
    ';' ∉ statement entry ∧ '\n' ∉ statement entry := by
  have hvalue := Value.isElement_text entry.2 h.hasNumbers
  constructor
  · simp [statement, h.not_mem_name, hvalue.oneStatement, Identifier.isNameCharacter]
  · simp [statement, h.not_mem_name, hvalue.oneLine, Identifier.isNameCharacter]

/-- A statement is read as the assignment it was written for. -/
theorem IsPrintable.readAssignment_statement (h : IsPrintable entry) :
    readAssignment (statement entry) = .ok entry := by
  have hcut : Text.cutAt? '=' (statement entry) =
      some (entry.1.toList ++ [' '], ' ' :: entry.2.text.toList) := by
    have hname : '=' ∉ entry.1.toList ++ [' '] := by
      simp [h.not_mem_name, Identifier.isNameCharacter]
    rw [← Text.cutAt?_append hname, statement, List.append_assoc]
    rfl
  have htrim : Text.trim (entry.1.toList ++ [' ']) = entry.1.toList := by
    rw [Text.trim_append_right _ (by decide), Text.trim_eq_self h.isTight_name]
  have hvalue : Value.read (' ' :: entry.2.text.toList) = .ok entry.2 := by
    have hblank : Text.allBlank [' '] = true := by decide
    have hnone : Text.allBlank [] = true := rfl
    simpa using Value.read_text h.hasNumbers hblank hnone
  rw [readAssignment, hcut]
  simp only [hvalue, htrim, String.ofList_toList]

/-- The text of a solution: each statement ended by a semicolon, on a line of its own. -/
def lines (entries : List (String × Value)) : List Char :=
  entries.flatMap fun entry => statement entry ++ [';', '\n']

theorem statements_lines (h : ∀ entry ∈ entries, IsPrintable entry) :
    statements (lines entries) = entries.map statement := by
  have hblanks : ∀ before, Text.allBlank before = true → ';' ∉ before →
      statements (before ++ lines entries) = entries.map statement := by
    induction entries with
    | nil =>
      intro before hbefore hnot
      have htrim := Text.trim_append_left [] hbefore
      rw [List.append_nil, Text.trim_eq_self Text.isTight_nil] at htrim
      simp [lines, statements, Text.splitAt_of_not_mem hnot, htrim]
    | cons entry rest ih =>
      intro before hbefore hnot
      rw [List.forall_mem_cons] at h
      have hpiece : ';' ∉ before ++ statement entry := by
        simp [hnot, h.1.not_mem_statement.1]
      have htrim : Text.trim (before ++ statement entry) = statement entry := by
        rw [Text.trim_append_left _ hbefore, Text.trim_eq_self h.1.isTight_statement]
      have hcut : before ++ lines (entry :: rest) =
          (before ++ statement entry) ++ ';' :: (['\n'] ++ lines rest) := by
        simp [lines]
      have hrest := ih h.2 ['\n'] (by decide) (by decide)
      rw [statements] at hrest
      rw [statements, hcut, Text.splitAt_append hpiece, List.map_cons, htrim,
        List.filter_cons_of_pos (by simpa using h.1.statement_ne_nil), hrest, List.map_cons]
  simpa using hblanks [] rfl (by simp)

/-- A text of statements is read as the solution which they make. -/
theorem read_lines (h : ∀ entry ∈ entries, IsPrintable entry) :
    read (lines entries) = .ok (ofList entries) := by
  have hread : (entries.map statement).mapM readAssignment = .ok entries := by
    rw [Outcome.mapM_eq_ok, List.forall₂_map_left_iff, List.forall₂_same]
    intro entry hmem
    exact (h entry hmem).readAssignment_statement
  rw [read, statements_lines h, hread]
  rfl

end Statements

end MiniZincModels.Solution
