import MiniZincModels.Output.Stream
import MiniZincModels.Proofs.Output.Solution

/-!
# Streams read back

The output of a run is laid out in lines: the lines of each solution and its
separator, and at the end perhaps a marker.  Blank lines, comments and the blanks
around a line do not matter, so the stream is read as the solutions that were
written to it.
-/

namespace MiniZincModels

/-! ## Lines -/

/-- How a line ends. -/
inductive LineEnding
  | lineFeed
  | carriageReturnLineFeed

/-- What stands before the line feed. -/
def LineEnding.carriage : LineEnding → List Char
  | lineFeed => []
  | carriageReturnLineFeed => ['\r']

def LineEnding.text (ending : LineEnding) : List Char :=
  ending.carriage ++ ['\n']

/-- A line with blanks before and behind its content. -/
structure Line where
  indent : List Char
  content : List Char
  trailing : List Char
  blankIndent : Text.allBlank indent = true
  blankTrailing : Text.allBlank trailing = true
  oneLine : '\n' ∉ indent ++ content ++ trailing

namespace Line

def text (line : Line) : List Char :=
  line.indent ++ line.content ++ line.trailing

theorem trim_text_of_isTight {line : Line} (h : Text.IsTight line.content) :
    Text.trim line.text = line.content :=
  Text.trim_padded line.blankIndent line.blankTrailing h

theorem head?_trim_text {line : Line} {c : Char} (hhead : line.content.head? = some c)
    (hc : Text.isBlank c = false) : (Text.trim line.text).head? = some c := by
  have hfirst : (line.content ++ line.trailing).head? = some c := by
    rw [List.head?_append, hhead, Option.some_or]
  rw [text, List.append_assoc, Text.trim_append_left _ line.blankIndent, Text.head?_trim, hfirst]
  simpa [hfirst] using hc

end Line

/-- The output of a run: lines with their endings, and a last line without one, which may
be empty. -/
structure Transcript where
  lines : List (Line × LineEnding)
  last : Line

namespace Transcript

def allLines (transcript : Transcript) : List Line :=
  transcript.lines.map Prod.fst ++ [transcript.last]

def text (transcript : Transcript) : List Char :=
  (transcript.lines.flatMap fun line => line.1.text ++ line.2.text) ++ transcript.last.text

/-- However the lines end, they are found again. -/
theorem trimmedLines_text (transcript : Transcript) :
    SolveResult.trimmedLines transcript.text =
      transcript.allLines.map fun line => Text.trim line.text := by
  have htext : transcript.text =
      ((transcript.lines.map fun line => line.1.text ++ line.2.carriage).flatMap fun line =>
        line ++ ['\n']) ++ transcript.last.text := by
    rw [text, List.flatMap_map]
    congr 2
    funext line
    rw [LineEnding.text, List.append_assoc]
  have hlines : ∀ line ∈ transcript.lines.map fun line => line.1.text ++ line.2.carriage,
      '\n' ∉ line := by
    intro line hmem
    obtain ⟨⟨source, ending⟩, -, rfl⟩ := List.mem_map.mp hmem
    have hcarriage : '\n' ∉ ending.carriage := by
      cases ending <;> decide
    rw [List.mem_append, not_or]
    exact ⟨source.oneLine, hcarriage⟩
  have hlast : '\n' ∉ transcript.last.text := transcript.last.oneLine
  have htrim : ∀ line : Line × LineEnding,
      Text.trim (line.1.text ++ line.2.carriage) = Text.trim line.1.text := by
    intro line
    apply Text.trim_append_right
    cases line.2 <;> decide
  rw [SolveResult.trimmedLines, htext, Text.splitAt_lines hlines hlast, List.map_append,
    List.map_map, allLines, List.map_append, List.map_map]
  congr 1
  exact List.map_congr_left fun line _ => htrim line

end Transcript

/-- The lines have the given contents in their order, with blank lines and comments in
between. -/
inductive Interspersed : List (List Char) → List Line → Prop
  | nil : Interspersed [] []
  | line {contents : List (List Char)} {lines : List Line} (line : Line)
      (rest : Interspersed contents lines) :
      Interspersed (line.content :: contents) (line :: lines)
  | blank {contents : List (List Char)} {lines : List Line} (line : Line)
      (isBlank : line.content = []) (rest : Interspersed contents lines) :
      Interspersed contents (line :: lines)
  | comment {contents : List (List Char)} {lines : List Line} (line : Line)
      (isComment : line.content.head? = some '%') (rest : Interspersed contents lines) :
      Interspersed contents (line :: lines)

/-! ## Taking one line -/

namespace SolveResult

variable {progress : Progress} {line : List Char}

theorem takeLines_cons {next : Progress} (h : progress.takeLine line = .ok next)
    (rest : List (List Char)) : progress.takeLines (line :: rest) = next.takeLines rest := by
  rw [Progress.takeLines, h]
  rfl

theorem ne_separator (hhead : line.head? ≠ some '-') : line ≠ solutionSeparator.toList := by
  rintro rfl
  exact hhead (by decide)

theorem ofMarker?_eq_none (hhead : line.head? ≠ some '=') : SolveStatus.ofMarker? line = none := by
  have hmarkers : ∀ marker ∈ SolveStatus.markers, marker.1.toList.head? = some '=' := by decide
  rw [SolveStatus.ofMarker?, Option.map_eq_none_iff, List.find?_eq_none]
  intro marker hmem heq
  rw [decide_eq_true_eq] at heq
  exact hhead (heq ▸ hmarkers marker hmem)

/-- A line that says nothing leaves everything as it is. -/
theorem takeLine_idle (hidle : isIdle line = true) : progress.takeLine line = .ok progress := by
  have hhead : line.head? ≠ some '-' ∧ line.head? ≠ some '=' := by
    cases line with
    | nil => simp
    | cons c rest =>
      have hc : c = '%' := by simpa [isIdle] using hidle
      rw [hc, List.head?_cons]
      decide
  rw [Progress.takeLine, if_neg (ne_separator hhead.1), ofMarker?_eq_none hhead.2]
  simp only [hidle, if_true]

/-- The lines between the others are passed over. -/
theorem takeLines_interspersed {contents : List (List Char)} {lines : List Line}
    (h : Interspersed contents lines) (htight : ∀ content ∈ contents, Text.IsTight content)
    (progress : Progress) :
    progress.takeLines (lines.map fun line => Text.trim line.text) =
      progress.takeLines contents := by
  induction h generalizing progress with
  | nil => rfl
  | line line rest ih =>
    rw [List.forall_mem_cons] at htight
    rw [List.map_cons, Line.trim_text_of_isTight htight.1, Progress.takeLines, Progress.takeLines]
    congr 1
    funext next
    exact ih htight.2 next
  | blank line hblank rest ih =>
    have hidle : isIdle (Text.trim line.text) = true := by
      rw [Line.trim_text_of_isTight (hblank ▸ Text.isTight_nil), hblank]
      rfl
    rw [List.map_cons, takeLines_cons (takeLine_idle hidle)]
    exact ih htight progress
  | comment line hcomment rest ih =>
    have hidle : isIdle (Text.trim line.text) = true := by
      rw [isIdle, Line.head?_trim_text hcomment (by decide)]
      simp
    rw [List.map_cons, takeLines_cons (takeLine_idle hidle)]
    exact ih htight progress

/-! ## Taking the lines of solutions -/

open Solution (statement IsPrintable)

/-- A line of a solution, without the blanks around it. -/
def statementLine (entry : String × Value) : List Char :=
  statement entry ++ [';']

theorem isTight_statementLine {entry : String × Value} (h : IsPrintable entry) :
    Text.IsTight (statementLine entry) := by
  obtain ⟨first, rest, heq, hfirst⟩ := h.head
  have hblank := Text.not_isBlank_of_isNameCharacter hfirst
  rw [statementLine, heq]
  exact Text.isTight_enclosed hblank (by decide)

theorem takeLine_statement {entry : String × Value} (h : IsPrintable entry) :
    progress.takeLine (statementLine entry) =
      .ok { progress with
        pending := progress.pending ++ (statement entry ++ [';', '\n']) } := by
  obtain ⟨first, rest, heq, hfirst⟩ := h.head
  have hhead : ∀ c, Identifier.isNameCharacter c = false →
      (statementLine entry).head? ≠ some c := by
    intro c hc hsome
    rw [statementLine, heq, List.cons_append, List.head?_cons, Option.some.injEq] at hsome
    rw [hsome, hc] at hfirst
    cases hfirst
  have hidle : ¬ isIdle (statementLine entry) = true := by
    rw [isIdle, Bool.or_eq_true, decide_eq_true_eq, not_or]
    refine ⟨?_, hhead '%' (by decide)⟩
    simp [statementLine]
  rw [Progress.takeLine, if_neg (ne_separator (hhead '-' (by decide))),
    ofMarker?_eq_none (hhead '=' (by decide))]
  simp only [if_neg hidle]
  rw [statementLine, List.append_assoc, List.append_assoc]
  rfl

/-- The lines which report a solution. -/
def solutionLines (entries : List (String × Value)) : List (List Char) :=
  entries.map statementLine ++ [solutionSeparator.toList]

/-- The lines of a stream: those of its solutions, and a marker line at the end. -/
def streamLines (solutions : List (List (String × Value)))
    (marker : Option (String × SolveStatus)) : List (List Char) :=
  solutions.flatMap solutionLines ++ marker.toList.map fun entry => entry.1.toList

/-- The status of a stream: the one that is marked, or what the number of solutions says. -/
def streamStatus {α : Type} (solutions : List α) : Option (String × SolveStatus) → SolveStatus
  | some entry => entry.2
  | none => if solutions.isEmpty then .unknown else .satisfied

theorem takeLines_statements {entries : List (String × Value)}
    (h : ∀ entry ∈ entries, IsPrintable entry) (rest : List (List Char)) (progress : Progress) :
    progress.takeLines (entries.map statementLine ++ rest) =
      Progress.takeLines
        { progress with pending := progress.pending ++ Solution.lines entries } rest := by
  induction entries generalizing progress with
  | nil => simp [Solution.lines]
  | cons entry entries ih =>
    rw [List.forall_mem_cons] at h
    rw [List.map_cons, List.cons_append, takeLines_cons (takeLine_statement h.1), ih h.2]
    simp [Solution.lines]

theorem isTight_marker {entry : String × SolveStatus} (h : entry ∈ SolveStatus.markers) :
    Text.IsTight entry.1.toList := by
  have hmarkers : ∀ marker ∈ SolveStatus.markers, ∀ c ∈ marker.1.toList,
      Text.isBlank c = false := by
    decide
  exact Text.isTight_of_forall (hmarkers entry h)

theorem takeLine_marker {entry : String × SolveStatus} (h : entry ∈ SolveStatus.markers)
    (progress : Progress) :
    progress.takeLine entry.1.toList = .ok { progress with marker := some entry.2 } := by
  have hmarkers : ∀ marker ∈ SolveStatus.markers, marker.1.toList ≠ solutionSeparator.toList ∧
      SolveStatus.ofMarker? marker.1.toList = some marker.2 := by
    decide
  rw [Progress.takeLine, if_neg (hmarkers entry h).1, (hmarkers entry h).2]

theorem takeLine_separator {solution : Solution}
    (hread : Solution.read progress.pending = .ok solution) :
    progress.takeLine solutionSeparator.toList =
      .ok { progress with solutions := progress.solutions ++ [solution], pending := [] } := by
  rw [Progress.takeLine, if_pos rfl, hread]
  rfl

/-- The lines of a solution add that solution to those which were read. -/
theorem takeLines_solution {entries : List (String × Value)}
    (h : ∀ entry ∈ entries, IsPrintable entry) (rest : List (List Char)) {progress : Progress}
    (hpending : progress.pending = []) :
    progress.takeLines (solutionLines entries ++ rest) =
      Progress.takeLines
        { progress with solutions := progress.solutions ++ [Solution.ofList entries] } rest := by
  have hread : Solution.read (progress.pending ++ Solution.lines entries) =
      .ok (Solution.ofList entries) := by
    rw [hpending, List.nil_append, Solution.read_lines h]
  rw [solutionLines, List.append_assoc, takeLines_statements h, List.singleton_append,
    takeLines_cons (takeLine_separator hread), hpending]

theorem takeLines_solutions {solutions : List (List (String × Value))}
    (h : ∀ entries ∈ solutions, ∀ entry ∈ entries, IsPrintable entry)
    (rest : List (List Char)) {progress : Progress} (hpending : progress.pending = []) :
    progress.takeLines (solutions.flatMap solutionLines ++ rest) =
      Progress.takeLines
        { progress with solutions := progress.solutions ++ solutions.map Solution.ofList }
        rest := by
  induction solutions generalizing progress with
  | nil => simp
  | cons entries solutions ih =>
    rw [List.forall_mem_cons] at h
    rw [List.flatMap_cons, List.append_assoc, takeLines_solution h.1 _ hpending,
      ih h.2 (by exact hpending)]
    simp

theorem isTight_of_mem_streamLines {solutions : List (List (String × Value))}
    (hprintable : ∀ entries ∈ solutions, ∀ entry ∈ entries, IsPrintable entry)
    {marker : Option (String × SolveStatus)}
    (hmarker : ∀ entry ∈ marker, entry ∈ SolveStatus.markers) :
    ∀ content ∈ streamLines solutions marker, Text.IsTight content := by
  intro content hmem
  rw [streamLines, List.mem_append] at hmem
  rcases hmem with hmem | hmem
  · obtain ⟨entries, hentries, hmem⟩ := List.mem_flatMap.mp hmem
    rw [solutionLines, List.mem_append, List.mem_singleton] at hmem
    rcases hmem with hmem | rfl
    · obtain ⟨entry, hentry, rfl⟩ := List.mem_map.mp hmem
      exact isTight_statementLine (hprintable entries hentries entry hentry)
    · exact Text.isTight_of_forall (by decide)
  · obtain ⟨entry, hentry, rfl⟩ := List.mem_map.mp hmem
    exact isTight_marker (hmarker entry (Option.mem_toList.mp hentry))

/-- A stream is read as the solutions that were written to it, with the status that is
marked at its end. -/
theorem read_transcript {solutions : List (List (String × Value))}
    (hprintable : ∀ entries ∈ solutions, ∀ entry ∈ entries, IsPrintable entry)
    {marker : Option (String × SolveStatus)}
    (hmarker : ∀ entry ∈ marker, entry ∈ SolveStatus.markers) {transcript : Transcript}
    (hlines : Interspersed (streamLines solutions marker) transcript.allLines) :
    read transcript.text =
      .ok ⟨streamStatus solutions marker, solutions.map Solution.ofList⟩ := by
  have htight := isTight_of_mem_streamLines hprintable hmarker
  have hstart : Progress.start.pending = [] := rfl
  rw [read, Transcript.trimmedLines_text, takeLines_interspersed hlines htight, streamLines,
    takeLines_solutions hprintable _ hstart]
  cases marker with
  | none =>
    cases solutions with
    | nil => rfl
    | cons entries solutions => rfl
  | some entry =>
    have hentry := takeLine_marker (hmarker entry rfl)
    rw [Option.toList_some, List.map_singleton, takeLines_cons (hentry _)]
    rfl

end SolveResult

end MiniZincModels
