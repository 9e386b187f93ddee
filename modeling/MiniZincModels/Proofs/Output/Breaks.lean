import MiniZincModels.Proofs.Output.Concatenation
import MiniZincModels.Proofs.Output.Joining
import MiniZincModels.Proofs.Output.Layout

/-!
# Broken statements in a stream

A statement that assigns an array is read alike on one line and on several, if the lines are
broken behind commas.  There are two exceptions.  If a list that is folded into index ranges is
broken, the stream is refused, although it can be read with the statement on one line.  And a
break in front of a percent sign makes a comment of the rest of the line, which is dropped.
-/

namespace MiniZincModels

/-! ## One statement among others -/

namespace Solution

open Text (trim trimEnd allBlank)

/-- A text behind which no statement is left open. -/
def IsEnded (text : List Char) : Prop :=
  ∀ c ∈ (trimEnd text).getLast?, c = ';'

section Statements

variable {text left before value earlier later : List Char}

theorem statements_append_separator (left right : List Char) :
    statements (left ++ ';' :: right) = statements left ++ statements right := by
  rw [statements, Text.splitAt_append_separator, List.map_append, List.filter_append]
  rfl

theorem statements_of_not_mem (hone : ';' ∉ text) (hne : trim text ≠ []) :
    statements text = [trim text] := by
  rw [statements, Text.splitAt_of_not_mem hone, List.map_singleton,
    List.filter_cons_of_pos (by simpa using hne), List.filter_nil]

/-- Blanks in front of a text are trimmed with its first statement. -/
theorem statements_append_left (hblank : allBlank left = true) (text : List Char) :
    statements (left ++ text) = statements text := by
  have hone : ';' ∉ left := fun hmem =>
    absurd (List.all_eq_true.mp hblank ';' hmem) (by decide)
  obtain ⟨piece, pieces, htext⟩ := List.exists_cons_of_ne_nil (Text.splitAt_ne_nil ';' text)
  rw [statements, Text.splitAt_append_left hone htext, List.map_cons,
    Text.trim_append_left _ hblank, ← List.map_cons, ← htext, statements]

theorem statements_append_of_isEnded (hended : IsEnded left) (right : List Char) :
    statements (left ++ right) = statements left ++ statements right := by
  obtain ⟨blanks, hblanks, heq⟩ := Text.exists_eq_trimEnd left
  have hnone : statements blanks = [] := by
    have hdropped := statements_append_left hblanks []
    rwa [List.append_nil] at hdropped
  cases hlast : (trimEnd left).getLast? with
  | none =>
    rw [List.getLast?_eq_none_iff.mp hlast, List.nil_append] at heq
    rw [heq, hnone, statements_append_left hblanks, List.nil_append]
  | some c =>
    obtain rfl := hended c hlast
    obtain ⟨front, hfront⟩ := List.getLast?_eq_some_iff.mp hlast
    rw [hfront, List.append_assoc, List.singleton_append] at heq
    rw [heq, List.append_assoc, List.cons_append, statements_append_separator,
      statements_append_left hblanks, statements_append_separator, hnone, List.append_nil]

theorem readAssignment_eq_ok (hbefore : '=' ∉ before) {entry : String × Value} :
    readAssignment (trim (before ++ '=' :: value)) = .ok entry ↔
      ∃ found, Value.read value = .ok found ∧ entry = (String.ofList (trim before), found) := by
  have hcut : Text.cutAt? '=' (trim (before ++ '=' :: value)) =
      some (Text.trimStart before, trimEnd value) := by
    have hstart : '=' ∉ Text.trimStart before := fun hmem =>
      hbefore ((List.dropWhile_sublist _).mem hmem)
    rw [Text.trim_append_cons (by decide), Text.cutAt?_append hstart]
  rw [readAssignment, hcut]
  simp only [Text.trim_trimStart, Value.read_eq_of_trim (Text.trim_trimEnd value)]
  cases Value.read value with
  | error fault => simp
  | ok found => simp [eq_comm]

/-- An assignment among other statements is read by reading its value. -/
theorem read_assignment_eq_ok (hended : IsEnded earlier) (hbefore : '=' ∉ before ∧ ';' ∉ before)
    (hvalue : ';' ∉ value) {solution : Solution} :
    read (earlier ++ (before ++ '=' :: (value ++ ';' :: later))) = .ok solution ↔
      ∃ first found last, (statements earlier).mapM readAssignment = .ok first ∧
        Value.read value = .ok found ∧ (statements later).mapM readAssignment = .ok last ∧
        solution = ofList (first ++ (String.ofList (trim before), found) :: last) := by
  have hone : ';' ∉ before ++ '=' :: value := by simp [hbefore.2, hvalue]
  have hne : trim (before ++ '=' :: value) ≠ [] := by
    rw [Text.trim_append_cons (by decide)]
    simp
  have hparts : statements (earlier ++ (before ++ '=' :: (value ++ ';' :: later))) =
      statements earlier ++ ([trim (before ++ '=' :: value)] ++ statements later) := by
    rw [statements_append_of_isEnded hended, ← List.cons_append, ← List.append_assoc,
      statements_append_separator, statements_of_not_mem hone hne]
  have hread : ∀ entries, [trim (before ++ '=' :: value)].mapM readAssignment = .ok entries ↔
      ∃ found, Value.read value = .ok found ∧
        entries = [(String.ofList (trim before), found)] := by
    intro entries
    rw [Outcome.mapM_eq_ok, List.forall₂_cons_left_iff]
    simp only [readAssignment_eq_ok hbefore.1, List.forall₂_nil_left_iff]
    constructor
    · rintro ⟨_, _, ⟨found, hfound, rfl⟩, rfl, rfl⟩
      exact ⟨found, hfound, rfl⟩
    · rintro ⟨found, hfound, rfl⟩
      exact ⟨_, _, ⟨found, hfound, rfl⟩, rfl, rfl⟩
  rw [read, hparts, Outcome.map_eq_ok]
  simp only [Outcome.mapM_append_eq_ok, hread]
  constructor
  · rintro ⟨_, ⟨first, _, hfirst, ⟨_, last, ⟨found, hfound, rfl⟩, hlast, rfl⟩, rfl⟩, rfl⟩
    exact ⟨first, found, last, hfirst, hfound, hlast, rfl⟩
  · rintro ⟨first, found, last, hfirst, hfound, hlast, rfl⟩
    exact ⟨_, ⟨first, _, hfirst, ⟨_, last, ⟨found, hfound, rfl⟩, hlast, rfl⟩, rfl⟩, rfl⟩

end Statements

end Solution

/-! ## Runs that go on alike -/

namespace SolveResult

section Runs

variable {p : Prop} {first second : Progress} {result : SolveResult}

/-- Whatever follows, the first solution that is pending can be read exactly if the second one can
and the condition holds, and then they are the same. -/
structure Progress.IsLike (p : Prop) (first second : Progress) : Prop where
  marker : first.marker = second.marker
  solutions : first.solutions = second.solutions
  spoken : Text.allBlank first.pending = false ∧ Text.allBlank second.pending = false
  read : ∀ extra solution, Solution.read (first.pending ++ extra) = .ok solution ↔
    Solution.read (second.pending ++ extra) = .ok solution ∧ p

/-- The result of the lines that are left. -/
def Progress.run (progress : Progress) (lines : List (List Char)) :
    Except OutputError SolveResult :=
  progress.takeLines lines >>= Progress.finish

theorem run_cons (progress : Progress) (line : List Char) (rest : List (List Char)) :
    progress.run (line :: rest) = progress.takeLine line >>= fun next => next.run rest := by
  rw [Progress.run, Progress.takeLines]
  cases progress.takeLine line <;> rfl

/-- Up to the separator both runs do the same to what is pending, and behind it they are the
same. -/
theorem run_eq_ok_iff (h : first.IsLike p second) (lines : List (List Char)) :
    first.run lines = .ok result ↔ second.run lines = .ok result ∧ p := by
  induction lines generalizing first second with
  | nil =>
    have hopen : ∀ {progress : Progress}, Text.allBlank progress.pending = false →
        progress.run [] = .error .unterminated := by
      intro progress hpending
      change progress.finish = _
      rw [Progress.finish, hpending, if_neg Bool.false_ne_true]
    rw [hopen h.spoken.1, hopen h.spoken.2]
    simp
  | cons line rest ih =>
    obtain ⟨marker, solutions, pending⟩ := first
    obtain ⟨_, _, other⟩ := second
    obtain ⟨rfl, rfl, hspoken, hread⟩ := h
    rw [run_cons, run_cons, Progress.takeLine, Progress.takeLine]
    dsimp only at hspoken hread ⊢
    split
    · have hsolution := hread []
      rw [List.append_nil, List.append_nil] at hsolution
      simp only [Outcome.bind_eq_ok, Outcome.map_eq_ok, hsolution]
      constructor
      · rintro ⟨_, ⟨solution, ⟨hother, hp⟩, rfl⟩, hrest⟩
        exact ⟨⟨_, ⟨solution, hother, rfl⟩, hrest⟩, hp⟩
      · rintro ⟨⟨_, ⟨solution, hother, rfl⟩, hrest⟩, hp⟩
        exact ⟨_, ⟨solution, ⟨hother, hp⟩, rfl⟩, hrest⟩
    · cases SolveStatus.ofMarker? line with
      | some status => exact ih ⟨rfl, rfl, hspoken, hread⟩
      | none =>
        by_cases hidle : isIdle line = true
        · simp only [hidle, if_true]
          exact ih ⟨rfl, rfl, hspoken, hread⟩
        · simp only [hidle]
          refine ih ⟨rfl, rfl, ?_, fun extra solution => ?_⟩
          · simp only [List.append_assoc, Text.allBlank, List.all_append] at hspoken ⊢
            simp [hspoken]
          · simp only [List.append_assoc]
            exact hread (line ++ (['\n'] ++ extra)) solution

end Runs

/-! ## Broken arrays -/

section Breaks

open Text (closeGaps closeGapsFrom)

variable {name earlier text line before after : List Char}
variable {solution : Solution} {result : SolveResult}

/-- An array on several lines, among other statements, is read as the text which the lines make. -/
theorem read_joined_eq_ok (hname : IsName name) (hearlier : Solution.IsEnded earlier)
    (hgaps : '\n' ∉ closeGaps text) (hone : ';' ∉ text) (later : List Char) :
    Solution.read (earlier ++ joined (trimmedLines (assignmentText name text)) ++ later) =
        .ok solution ↔
      ∃ first found last, (Solution.statements earlier).mapM Solution.readAssignment = .ok first ∧
        Value.read text = .ok found ∧
        (Solution.statements ('\n' :: later)).mapM Solution.readAssignment = .ok last ∧
        solution = Solution.ofList (first ++ (String.ofList name, found) :: last) := by
  obtain ⟨before, value, hjoined, hbefore, hequals, hsemicolon, hvalue⟩ :=
    exists_joined_assignmentText hname hgaps
  have hread : ∀ found, Value.read value = .ok found ↔ Value.read text = .ok found := by
    intro found
    rw [Value.read_eq_ok_congr hvalue, Value.read_space_cons]
  have htextOne : ';' ∉ closeGapsFrom false .outside (' ' :: text) := by
    simp [Text.mem_closeGapsFrom_iff (by decide : Text.isBlank ';' = false), hone]
  have hvalueOne : ';' ∉ value :=
    Text.not_mem_of_closeGapsFrom_eq (by decide) htextOne (hvalue false)
  have hparts : earlier ++ joined (trimmedLines (assignmentText name text)) ++ later =
      earlier ++ (before ++ '=' :: (value ++ ';' :: ('\n' :: later))) := by
    simp [hjoined]
  rw [hparts, Solution.read_assignment_eq_ok hearlier ⟨hequals, hsemicolon⟩ hvalueOne, hbefore]
  simp only [hread]

/-- If a semicolon in its ranges cuts an array, no solution can be read. -/
theorem read_joined_ne_ok (hname : IsName name) (hearlier : Solution.IsEnded earlier)
    (hgaps : '\n' ∉ closeGaps text) (hline : Value.IsArrayText line)
    (hsame : closeGaps text = closeGaps line) (hcut : ';' ∈ line) (later : List Char)
    (solution : Solution) :
    Solution.read (earlier ++ joined (trimmedLines (assignmentText name text)) ++ later) ≠
      .ok solution := by
  obtain ⟨before, value, hjoined, -, hequals, hsemicolon, hvalue⟩ :=
    exists_joined_assignmentText hname hgaps
  obtain ⟨ranges, tail, rfl, hone, hhead, hopening, hbracket⟩ := hline.exists_ranges hcut
  have hclosed : closeGaps value = ' ' :: closeGaps ranges ++ ';' :: closeGaps tail := by
    calc closeGaps value = ' ' :: closeGaps text := hvalue false
      _ = ' ' :: (closeGaps ranges ++ ';' :: closeGaps tail) := by
        rw [hsame, closeGaps, Text.closeGapsFrom_cut (by decide)]
        rfl
  obtain ⟨front, behind, rfl, hfront, -⟩ := Text.exists_of_closeGapsFrom_eq_cut (by decide) hclosed
  have hrangesOne : ';' ∉ ' ' :: closeGaps ranges := by
    simp [mt Text.mem_of_mem_closeGapsFrom hone, closeGaps]
  have hfrontOne : ';' ∉ front := Text.not_mem_of_closeGapsFrom_eq (by decide) hrangesOne hfront
  have hparts : earlier ++ joined (trimmedLines (assignmentText name text)) ++ later =
      earlier ++ (before ++ '=' :: (front ++ ';' :: (behind ++ ';' :: '\n' :: later))) := by
    simp [hjoined]
  rw [hparts]
  intro hread
  obtain ⟨-, found, -, -, hfound, -⟩ :=
    (Solution.read_assignment_eq_ok hearlier ⟨hequals, hsemicolon⟩ hfrontOne).mp hread
  have hranges := ((Value.read_closeGaps front found).mp hfound).1
  rw [closeGaps, hfront, Value.read_space_cons] at hranges
  refine Value.read_ranges_ne_ok ?_ ?_ ?_ found hranges
  · obtain ⟨rest, rfl⟩ := List.head?_eq_some_iff.mp hhead
    rfl
  · exact (Text.mem_closeGapsFrom_iff (by decide)).mpr hopening
  · exact mt Text.mem_of_mem_closeGapsFrom hbracket

/-- Whether every statement of a text is ended, so that a further one can follow. -/
def EndsStatement (text : List Char) : Prop :=
  ∀ progress, Progress.start.takeLines (trimmedLines text) = .ok progress →
    Solution.IsEnded progress.pending

theorem takeLines_assignmentText (hname : IsName name) (hgaps : '\n' ∉ closeGaps text)
    (hcomment : ∀ line ∈ trimmedLines (assignmentText name text), line.head? ≠ some '%')
    (progress : Progress) :
    progress.takeLines (trimmedLines (assignmentText name text)) =
      .ok { progress with
        pending := progress.pending ++ joined (trimmedLines (assignmentText name text)) } := by
  have hbroken := isBrokenAtCommas_assignmentText hname hgaps
  exact takeLines_joined (getLast?_of_mem_trimmedLines hbroken) hcomment progress

/-- On one line an assignment is no comment, because it begins with the name. -/
theorem head?_of_mem_trimmedLines (hname : IsName name) (hone : '\n' ∉ text) :
    ∀ line ∈ trimmedLines (assignmentText name text), line.head? ≠ some '%' := by
  have hline : '\n' ∉ assignmentText name text := by
    have hnot : '\n' ∉ name := hname.not_mem (by decide)
    simp [assignmentText, hone, hnot]
  obtain ⟨first, rest, rfl⟩ := List.exists_cons_of_ne_nil hname.ne_nil
  have hfirst := hname.isNameCharacter first List.mem_cons_self
  have hhead : (assignmentText (first :: rest) text).head? = some first := rfl
  rw [trimmedLines_of_not_mem hline, List.forall_mem_singleton, Text.head?_trim, hhead]
  · rintro ⟨⟩
    exact absurd hfirst (by decide)
  · rw [hhead]
    rintro _ ⟨⟩
    exact Text.not_isBlank_of_isNameCharacter hfirst

theorem allBlank_joined (hname : IsName name) (hgaps : '\n' ∉ closeGaps text)
    (earlier : List Char) :
    Text.allBlank (earlier ++ joined (trimmedLines (assignmentText name text))) = false := by
  obtain ⟨before, value, hjoined, -⟩ := exists_joined_assignmentText hname hgaps
  have hequals : Text.isBlank '=' = false := by decide
  simp [hjoined, Text.allBlank, hequals]

/-- The stream is read up to the statement, which is joined, and then to its end. -/
theorem read_assignmentText (hname : IsName name)
    (hends : before = [] ∨ before.getLast? = some '\n') (hgaps : '\n' ∉ closeGaps text)
    (hcomment : ∀ line ∈ trimmedLines (assignmentText name text), line.head? ≠ some '%')
    (after : List Char) :
    read (before ++ (assignmentText name text ++ '\n' :: after)) =
      Progress.start.takeLines (trimmedLines before) >>= fun progress =>
        Progress.run
          { progress with
            pending := progress.pending ++ joined (trimmedLines (assignmentText name text)) }
          (trimmedLines after) := by
  have hlines : trimmedLines (assignmentText name text ++ '\n' :: after) =
      trimmedLines (assignmentText name text) ++ trimmedLines after := by
    rw [trimmedLines, Text.splitAt_append_separator, List.map_append]
    rfl
  rw [read, takeLines_trimmedLines_append hends, hlines]
  cases Progress.start.takeLines (trimmedLines before) with
  | error error => rfl
  | ok progress =>
    change progress.takeLines (trimmedLines (assignmentText name text) ++ trimmedLines after) >>=
      Progress.finish = _
    rw [takeLines_append, takeLines_assignmentText hname hgaps hcomment]
    rfl

/-- A line that begins with a percent sign is dropped, wherever it stands.  So a list is lost if it
stands behind ranges that a break turns into such a line. -/
theorem read_comment (hends : before = [] ∨ before.getLast? = some '\n') (hone : '\n' ∉ line)
    (hcomment : (Text.trim line).head? = some '%') (after : List Char) :
    read (before ++ (line ++ '\n' :: after)) = read (before ++ after) := by
  have hidle : isIdle (Text.trim line) = true := by simp [isIdle, hcomment]
  have hlines : trimmedLines (line ++ '\n' :: after) = Text.trim line :: trimmedLines after := by
    rw [trimmedLines, Text.splitAt_append_separator, List.map_append,
      Text.splitAt_of_not_mem hone]
    rfl
  have hdropped (progress : Progress) :
      progress.takeLines (trimmedLines (line ++ '\n' :: after)) =
        progress.takeLines (trimmedLines after) := by
    rw [hlines, Progress.takeLines, takeLine_idle hidle]
    rfl
  rw [read, read, takeLines_trimmedLines_append hends, takeLines_trimmedLines_append hends]
  simp only [hdropped]

example : read "x = array2d(1..1, % 2, [1, 2]);\n----------\n".toList =
    .ok ⟨.satisfied, [⟨[("x", .array [.int 1, .int 2])]⟩]⟩ := rfl

example : read "x = array2d(1..1,\n% 2, [1, 2]);\n----------\n".toList =
    .error (.badValue "x = array2d(1..1,".toList (.unrecognised "array2d(1..1,".toList)) := rfl

/-- The joined lines of an array are read like the array on one line, unless a folded list is
broken. -/
theorem isLike_broken_array (hname : IsName name) {progress : Progress}
    (hended : Solution.IsEnded progress.pending) (hline : Value.IsArrayText line)
    (hone : '\n' ∉ line) (hgaps : closeGaps text = closeGaps line) :
    Progress.IsLike (¬ Value.BreaksFold text)
      { progress with
        pending := progress.pending ++ joined (trimmedLines (assignmentText name text)) }
      { progress with
        pending := progress.pending ++ joined (trimmedLines (assignmentText name line)) } := by
  have hlineGaps : '\n' ∉ closeGaps line := mt Text.mem_of_mem_closeGapsFrom hone
  have htextGaps : '\n' ∉ closeGaps text := hgaps ▸ hlineGaps
  have hcut : ';' ∈ text ↔ ';' ∈ line := by
    calc ';' ∈ text ↔ ';' ∈ closeGaps text := (Text.mem_closeGapsFrom_iff (by decide)).symm
      _ ↔ ';' ∈ closeGaps line := by rw [hgaps]
      _ ↔ ';' ∈ line := Text.mem_closeGapsFrom_iff (by decide)
  refine ⟨rfl, rfl, ⟨allBlank_joined hname htextGaps _, allBlank_joined hname hlineGaps _⟩,
    fun later solution => ?_⟩
  by_cases hlineCut : ';' ∈ line
  · have htext := read_joined_ne_ok hname hended htextGaps hline hgaps hlineCut later solution
    have hother := read_joined_ne_ok hname hended hlineGaps hline rfl hlineCut later solution
    simp only [htext, hother, false_and]
  · rw [read_joined_eq_ok hname hended htextGaps (mt hcut.mp hlineCut),
      read_joined_eq_ok hname hended hlineGaps hlineCut]
    simp only [Value.read_broken hone hgaps]
    constructor
    · rintro ⟨first, found, last, hfirst, ⟨hfound, hwhole⟩, hlast, rfl⟩
      exact ⟨⟨first, found, last, hfirst, hfound, hlast, rfl⟩, hwhole⟩
    · rintro ⟨⟨first, found, last, hfirst, hfound, hlast, rfl⟩, hwhole⟩
      exact ⟨first, found, last, hfirst, ⟨hfound, hwhole⟩, hlast, rfl⟩

/-- An array that is broken in its gaps, into lines which are no comments, is read as on one line,
unless a folded list is broken: then the stream is refused. -/
theorem read_broken_array (hname : IsName name)
    (hends : before = [] ∨ before.getLast? = some '\n') (hbefore : EndsStatement before)
    (hline : Value.IsArrayText line) (hone : '\n' ∉ line) (hgaps : closeGaps text = closeGaps line)
    (hcomment : ∀ part ∈ trimmedLines (assignmentText name text), part.head? ≠ some '%') :
    read (before ++ (assignmentText name text ++ '\n' :: after)) = .ok result ↔
      read (before ++ (assignmentText name line ++ '\n' :: after)) = .ok result ∧
        ¬ Value.BreaksFold text := by
  have hlineGaps : '\n' ∉ closeGaps line := mt Text.mem_of_mem_closeGapsFrom hone
  rw [read_assignmentText hname hends (hgaps ▸ hlineGaps) hcomment,
    read_assignmentText hname hends hlineGaps (head?_of_mem_trimmedLines hname hone)]
  cases hprogress : Progress.start.takeLines (trimmedLines before) with
  | error error => simp [bind, Except.bind]
  | ok progress =>
    have hlike := isLike_broken_array hname (hbefore progress hprogress) hline hone hgaps
    exact run_eq_ok_iff hlike (trimmedLines after)

/-- Lists in a list, and a folded one that is broken between its ranges. -/
theorem read_broken_array_of_nested_lists :
    let before := "a = [1,\n2];\n".toList
    let line := "[[1, 2], array2d(1..1, 1..2, [3, 4])]".toList
    let text := "[[1,\n   2],\n  array2d(1..1,\n    1..2,\n    [3, 4])]".toList
    let after := "----------\n".toList
    let result : SolveResult := ⟨.satisfied, [⟨[("a", .array [.int 1, .int 2]),
      ("x", .array [.array [.int 1, .int 2], .array [.int 3, .int 4]])]⟩]⟩
    text ≠ line ∧ closeGaps text = closeGaps line ∧ ¬ Value.BreaksFold text ∧
      read (before ++ (assignmentText ['x'] text ++ '\n' :: after)) = .ok result := by
  intro before line text after result
  have hgaps : closeGaps text = closeGaps line := by decide
  have hread : Value.read text =
      .ok (.array [.array [.int 1, .int 2], .array [.int 3, .int 4]]) := rfl
  have hwhole : ¬ Value.BreaksFold text := ((Value.read_closeGaps text _).mp hread).2
  have hbefore : EndsStatement before := by
    intro progress hprogress
    have hpending : Progress.start.takeLines (trimmedLines before) =
      .ok ⟨none, [], "a = [1,\n2];\n".toList⟩ := rfl
    rw [hpending] at hprogress
    cases hprogress
    have hlast : (Text.trimEnd "a = [1,\n2];\n".toList).getLast? = some ';' := by decide
    intro c hc
    exact (Option.some.inj (hlast.symm.trans hc)).symm
  have hlist : Value.IsArrayText
      ('[' :: ("[1, 2], array2d(1..1, 1..2, [3, 4])".toList ++ [']'])) := .list (by decide)
  have hline : Value.IsArrayText line := hlist
  exact ⟨by decide, hgaps, hwhole, (read_broken_array ⟨by decide, by decide⟩ (.inr rfl) hbefore
    hline (by decide) hgaps (by decide)).mpr ⟨rfl, hwhole⟩⟩

/-- With a break in it the list of an array of two dimensions is not found. -/
theorem broken_folded_list_refused :
    let line := "array2d(1..2, 1..2, [1, 2, 3, 4])".toList
    let text := "array2d(1..2, 1..2, [1, 2,\n3, 4])".toList
    let after := "----------\n".toList
    Value.IsArrayText line ∧ closeGaps text = closeGaps line ∧
      read (assignmentText ['x'] line ++ '\n' :: after) = .ok ⟨.satisfied,
        [⟨[("x", .array [.int 1, .int 2, .int 3, .int 4])]⟩]⟩ ∧
      ∀ result, read (assignmentText ['x'] text ++ '\n' :: after) ≠ .ok result := by
  intro line text after
  let array : Value.FoldedArray := ⟨['2'], "1..2, 1..2, ".toList, "1, 2, 3, 4".toList, [],
    by decide, by decide, by decide, rfl⟩
  have hline : Value.IsArrayText line := .folded array (by decide)
  refine ⟨hline, by decide, rfl, fun result hread => ?_⟩
  cases hread

end Breaks

end SolveResult

end MiniZincModels
