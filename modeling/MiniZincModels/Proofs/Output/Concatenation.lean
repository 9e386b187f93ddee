import MiniZincModels.Proofs.Output.Stream

/-!
# Streams one behind the other

What a stream says does not depend on what was read before it.  A stream that can be read
leaves no solution open, so a second one behind it adds its solutions to those of the first,
and its markers take the place of the earlier ones.
-/

namespace MiniZincModels.SolveResult

/-- The status of the last line which is a marker. -/
def lastMarker? (text : List Char) : Option SolveStatus :=
  ((trimmedLines text).filterMap SolveStatus.ofMarker?).getLast?

section Lines

variable {progress after : Progress} {lines : List (List Char)}

/-- What is known if the progress was made behind an earlier one. -/
def Progress.behind (earlier progress : Progress) : Progress :=
  ⟨progress.marker.or earlier.marker, earlier.solutions ++ progress.solutions, progress.pending⟩

/-- A line changes the progress alike, whatever was read before. -/
theorem takeLine_behind (earlier progress : Progress) (line : List Char) :
    (earlier.behind progress).takeLine line = (progress.takeLine line).map earlier.behind := by
  rw [Progress.takeLine, Progress.takeLine]
  split
  · cases hread : Solution.read progress.pending with
    | error error => simp [Progress.behind, hread, Except.map]
    | ok solution => simp [Progress.behind, hread, Except.map]
  · cases SolveStatus.ofMarker? line with
    | some status => simp [Progress.behind, Except.map]
    | none =>
      dsimp only
      split <;> rfl

theorem takeLines_behind (earlier progress : Progress) (lines : List (List Char)) :
    (earlier.behind progress).takeLines lines =
      (progress.takeLines lines).map earlier.behind := by
  induction lines generalizing progress with
  | nil => rfl
  | cons line rest ih =>
    rw [Progress.takeLines, Progress.takeLines, takeLine_behind]
    cases progress.takeLine line with
    | error error => rfl
    | ok next => exact ih next

theorem takeLines_append (progress : Progress) (first second : List (List Char)) :
    progress.takeLines (first ++ second) =
      progress.takeLines first >>= fun next => next.takeLines second := by
  induction first generalizing progress with
  | nil => rfl
  | cons line rest ih =>
    rw [List.cons_append, Progress.takeLines, Progress.takeLines]
    cases progress.takeLine line with
    | error error => rfl
    | ok next => exact ih next

/-- A line that is no marker keeps the one which is known. -/
theorem marker_of_takeLine {line : List Char} (h : progress.takeLine line = .ok after) :
    after.marker = (SolveStatus.ofMarker? line).or progress.marker := by
  rw [Progress.takeLine] at h
  split at h
  · rename_i hseparator
    have hmarker : SolveStatus.ofMarker? line = none := by
      rw [hseparator]
      decide
    obtain ⟨solution, -, rfl⟩ := Outcome.map_eq_ok.mp h
    rw [hmarker, Option.none_or]
  · cases hmarker : SolveStatus.ofMarker? line with
    | some status =>
      simp only [hmarker, Except.ok.injEq] at h
      rw [← h, Option.some_or]
    | none =>
      simp only [hmarker] at h
      split at h <;> cases h <;> rfl

theorem marker_of_takeLines (h : progress.takeLines lines = .ok after) :
    after.marker = ((lines.filterMap SolveStatus.ofMarker?).getLast?).or progress.marker := by
  induction lines generalizing progress with
  | nil =>
    cases h
    rfl
  | cons line rest ih =>
    obtain ⟨next, hnext, hrest⟩ := Outcome.bind_eq_ok.mp h
    rw [ih hrest, marker_of_takeLine hnext, List.filterMap_cons]
    cases SolveStatus.ofMarker? line with
    | none => rw [Option.none_or]
    | some status =>
      dsimp only
      rw [List.getLast?_cons, Option.some_or, Option.some_or]
      cases (rest.filterMap SolveStatus.ofMarker?).getLast? <;> rfl

/-- What is pending is either nothing or says something. -/
def Progress.IsSpoken (progress : Progress) : Prop :=
  progress.pending = [] ∨ Text.allBlank progress.pending = false

theorem isSpoken_of_takeLine {line : List Char} (hprogress : progress.IsSpoken)
    (hline : Text.IsTight line) (h : progress.takeLine line = .ok after) : after.IsSpoken := by
  rw [Progress.takeLine] at h
  split at h
  · obtain ⟨solution, -, rfl⟩ := Outcome.map_eq_ok.mp h
    exact .inl rfl
  · split at h
    · cases h
      exact hprogress
    · split at h
      · cases h
        exact hprogress
      · rename_i hidle
        cases h
        cases line with
        | nil => exact absurd rfl hidle
        | cons c rest =>
          have hc : Text.isBlank c = false := hline.1 c rfl
          right
          simp [Text.allBlank, hc]

theorem isSpoken_of_takeLines (hprogress : progress.IsSpoken)
    (hlines : ∀ line ∈ lines, Text.IsTight line) (h : progress.takeLines lines = .ok after) :
    after.IsSpoken := by
  induction lines generalizing progress with
  | nil =>
    cases h
    exact hprogress
  | cons line rest ih =>
    rw [List.forall_mem_cons] at hlines
    obtain ⟨next, hnext, hrest⟩ := Outcome.bind_eq_ok.mp h
    exact ih (isSpoken_of_takeLine hprogress hlines.1 hnext) hlines.2 hrest

end Lines

section Texts

variable {text first second : List Char} {result left right : SolveResult}

theorem isTight_of_mem_trimmedLines : ∀ line ∈ trimmedLines text, Text.IsTight line := by
  rw [trimmedLines, List.forall_mem_map]
  exact fun line _ => Text.isTight_trim line

/-- The status that is reported without a marker. -/
def defaultStatus (solutions : List Solution) : SolveStatus :=
  if solutions.isEmpty then .unknown else .satisfied

/-- A stream can be read if its lines can be taken and leave nothing open. -/
theorem read_eq_ok :
    read text = .ok result ↔
      Progress.start.takeLines (trimmedLines text) =
          .ok ⟨lastMarker? text, result.solutions, []⟩ ∧
        result.status = (lastMarker? text).getD (defaultStatus result.solutions) := by
  constructor
  · intro h
    obtain ⟨progress, hlines, hfinish⟩ := Outcome.bind_eq_ok.mp h
    have hmarker := marker_of_takeLines hlines
    have hspoken : progress.IsSpoken :=
      isSpoken_of_takeLines (.inl rfl) isTight_of_mem_trimmedLines hlines
    obtain ⟨marker, found, pending⟩ := progress
    rw [Progress.start, Option.or_none] at hmarker
    obtain rfl : marker = lastMarker? text := hmarker
    rw [Progress.finish] at hfinish
    split at hfinish
    · rename_i hblank
      obtain rfl : pending = [] := hspoken.resolve_right (by simpa using hblank)
      cases hfinish
      exact ⟨hlines, rfl⟩
    · cases hfinish
  · rintro ⟨hlines, hstatus⟩
    obtain ⟨status, solutions⟩ := result
    obtain rfl : status = (lastMarker? text).getD (defaultStatus solutions) := hstatus
    exact Outcome.bind_eq_ok.mpr ⟨_, hlines, rfl⟩

/-- Behind a text that ends with a line feed the lines of another text follow, with at most an
empty line between. -/
theorem takeLines_trimmedLines_append (hends : first = [] ∨ first.getLast? = some '\n')
    (progress : Progress) (second : List Char) :
    progress.takeLines (trimmedLines (first ++ second)) =
      progress.takeLines (trimmedLines first) >>= fun next =>
        next.takeLines (trimmedLines second) := by
  rcases hends with rfl | hends
  · rfl
  · obtain ⟨lines, rfl⟩ := List.getLast?_eq_some_iff.mp hends
    have hline : trimmedLines (lines ++ ['\n']) = trimmedLines lines ++ [[]] := by
      rw [trimmedLines, Text.splitAt_append_separator, List.map_append]
      rfl
    have hlines : trimmedLines (lines ++ ['\n'] ++ second) =
        trimmedLines lines ++ trimmedLines second := by
      rw [trimmedLines, List.append_assoc, List.singleton_append, Text.splitAt_append_separator,
        List.map_append]
      rfl
    rw [hline, hlines, takeLines_append, takeLines_append]
    cases progress.takeLines (trimmedLines lines) with
    | error error => rfl
    | ok next => rfl

/-- A stream behind another one adds its solutions, and the last marker of both counts. -/
theorem read_append (hends : first = [] ∨ first.getLast? = some '\n')
    (hfirst : read first = .ok left) (hsecond : read second = .ok right) :
    read (first ++ second) =
      .ok ⟨((lastMarker? second).or (lastMarker? first)).getD
          (defaultStatus (left.solutions ++ right.solutions)),
        left.solutions ++ right.solutions⟩ := by
  have hlines : Progress.start.takeLines (trimmedLines (first ++ second)) =
      .ok ⟨(lastMarker? second).or (lastMarker? first), left.solutions ++ right.solutions, []⟩ := by
    have hstart : Progress.mk (lastMarker? first) left.solutions [] =
        Progress.behind ⟨lastMarker? first, left.solutions, []⟩ .start := by
      simp [Progress.behind, Progress.start]
    rw [takeLines_trimmedLines_append hends, (read_eq_ok.mp hfirst).1]
    change Progress.takeLines ⟨lastMarker? first, left.solutions, []⟩ (trimmedLines second) = _
    rw [hstart, takeLines_behind, (read_eq_ok.mp hsecond).1]
    rfl
  have hmarker : lastMarker? (first ++ second) = (lastMarker? second).or (lastMarker? first) := by
    have hlast := marker_of_takeLines hlines
    rw [Progress.start, Option.or_none] at hlast
    exact hlast.symm
  rw [read_eq_ok, hmarker]
  exact ⟨hlines, rfl⟩

/-- The marker of the first stream counts, although the second one adds a solution. -/
theorem read_append_of_late_solution :
    let first := "=====UNKNOWN=====\n% restart\n".toList
    let second := "x = 1;\n----------\n".toList
    first.getLast? = some '\n' ∧ read first = .ok ⟨.unknown, []⟩ ∧
      read second = .ok ⟨.satisfied, [⟨[("x", .int 1)]⟩]⟩ ∧
      read (first ++ second) = .ok ⟨.unknown, [⟨[("x", .int 1)]⟩]⟩ := by
  intro first second
  have hfirst : read first = .ok ⟨.unknown, []⟩ := rfl
  have hsecond : read second = .ok ⟨.satisfied, [⟨[("x", .int 1)]⟩]⟩ := rfl
  exact ⟨rfl, hfirst, hsecond, read_append (.inr rfl) hfirst hsecond⟩

end Texts

end MiniZincModels.SolveResult
