import MiniZincModels.Proofs.Output.Stream
import MiniZincModels.Proofs.Text.Gap

/-!
# Statements over several lines

A statement may be broken in its gaps.  The lines are trimmed and joined with line feeds between
them, so the joined text differs from the statement in blanks that do not matter: both are the
same text without gaps, and both have a line feed in the same gaps.
-/

namespace MiniZincModels.SolveResult

open Text (closeGapsFrom isBlank)

/-- The lines that are not empty, each with a line feed behind it. -/
def joined (lines : List (List Char)) : List Char :=
  lines.flatMap fun line => if line.isEmpty then [] else line ++ ['\n']

/-- A text which ends with a semicolon and is broken behind commas only. -/
inductive IsBrokenAtCommas : List Char → Prop
  | last {line : List Char} (oneLine : '\n' ∉ line) (ends : line.getLast? = some ';') :
      IsBrokenAtCommas line
  | blank {line rest : List Char} (oneLine : '\n' ∉ line) (isBlank : Text.allBlank line = true)
      (following : IsBrokenAtCommas rest) : IsBrokenAtCommas (line ++ '\n' :: rest)
  | comma {before after rest : List Char} (oneLine : '\n' ∉ before ∧ '\n' ∉ after)
      (isBlank : Text.allBlank after = true) (following : IsBrokenAtCommas rest) :
      IsBrokenAtCommas (before ++ ',' :: (after ++ '\n' :: rest))

section Joined

variable {line rest text before after : List Char} {lines : List (List Char)}

theorem joined_nil_cons (lines : List (List Char)) : joined ([] :: lines) = joined lines := rfl

theorem joined_cons (hline : line ≠ []) (lines : List (List Char)) :
    joined (line :: lines) = line ++ '\n' :: joined lines := by
  rw [joined, List.flatMap_cons, if_neg (by simpa using hline), List.append_assoc]
  rfl

theorem trimmedLines_append (hline : '\n' ∉ line) (rest : List Char) :
    trimmedLines (line ++ '\n' :: rest) = Text.trim line :: trimmedLines rest := by
  rw [trimmedLines, Text.splitAt_append hline, List.map_cons]
  rfl

theorem trimmedLines_of_not_mem (hline : '\n' ∉ line) : trimmedLines line = [Text.trim line] := by
  rw [trimmedLines, Text.splitAt_of_not_mem hline, List.map_singleton]

/-- If no line feed is left without the gaps, a text is broken behind commas only. -/
theorem isBrokenAtCommas_of_closeGapsFrom (hgaps : '\n' ∉ closeGapsFrom false .gap text)
    (hends : text.getLast? = some ';') : IsBrokenAtCommas text := by
  induction hlength : text.length using Nat.strong_induction_on generalizing text with
  | _ length ih =>
  subst hlength
  by_cases hbreak : '\n' ∈ text
  · obtain ⟨line, rest, rfl, hline⟩ := List.eq_append_cons_of_mem hbreak
    have hrest : rest.getLast? = some ';' := by
      rw [List.getLast?_append, List.getLast?_cons] at hends
      cases hlast : rest.getLast? with
      | none => simp [hlast] at hends
      | some c => simpa [hlast] using hends
    have hfollowing : '\n' ∉ closeGapsFrom false .gap rest → IsBrokenAtCommas rest := by
      refine fun hrestGaps => ih rest.length ?_ hrestGaps hrest rfl
      rw [List.length_append, List.length_cons]
      omega
    by_cases hblank : Text.allBlank line = true
    · have hdropped := Text.closeGapsFrom_afterBreak_line hblank false rest
      exact .blank hline hblank (hfollowing (hdropped ▸ hgaps))
    · obtain ⟨before, c, after, hc, hafter, rfl⟩ :=
        Text.exists_last_of_not_allBlank (by simpa using hblank)
      rw [List.mem_append, List.mem_cons, not_or, not_or] at hline
      rw [List.append_assoc, List.cons_append] at hgaps ⊢
      by_cases hcomma : c = ','
      · subst hcomma
        rw [Text.closeGapsFrom_append_cons hc, Text.Place.behind, if_pos rfl,
          Text.closeGapsFrom_gap_append hafter hline.2.2, Text.closeGapsFrom_gap_break] at hgaps
        exact .comma ⟨hline.1, hline.2.2⟩ hafter (hfollowing fun hmem =>
          hgaps (List.mem_append_right _ (List.mem_cons_of_mem _ hmem)))
      · have hnone : ',' ∉ after := fun hmem =>
          absurd (List.all_eq_true.mp hafter ',' hmem) (by decide)
        rw [Text.closeGapsFrom_cut ⟨hc, hcomma⟩,
          Text.closeGapsFrom_append_of_not_mem hnone] at hgaps
        exact absurd (by simp [closeGapsFrom]) hgaps
  · exact .last hbreak hends

theorem trimmedLines_last (hline : '\n' ∉ before ++ [';']) :
    trimmedLines (before ++ [';']) = [Text.trimStart before ++ [';']] := by
  rw [trimmedLines_of_not_mem hline, Text.trim_append_cons (by decide),
    Text.trimEnd_of_allBlank rfl]

theorem trimmedLines_comma (hline : '\n' ∉ before ∧ '\n' ∉ after)
    (hblank : Text.allBlank after = true) (rest : List Char) :
    trimmedLines (before ++ ',' :: (after ++ '\n' :: rest)) =
      (Text.trimStart before ++ [',']) :: trimmedLines rest := by
  have hfirst : '\n' ∉ before ++ ',' :: after := by simp [hline]
  rw [← List.cons_append, ← List.append_assoc, trimmedLines_append hfirst,
    Text.trim_append_cons (by decide), Text.trimEnd_of_allBlank hblank]

/-- Joining the lines of a text keeps what stands outside gaps, and a line feed in each gap that
has one. -/
theorem closeGapsFrom_joined (h : IsBrokenAtCommas text) (keep : Bool) :
    closeGapsFrom keep (.afterBreak keep) (joined (trimmedLines text)) =
      closeGapsFrom keep (.afterBreak keep) text ++ ['\n'] := by
  induction h with
  | last oneLine ends =>
    obtain ⟨before, rfl⟩ := List.getLast?_eq_some_iff.mp ends
    rw [trimmedLines_last oneLine, joined_cons (by simp), List.append_assoc, List.singleton_append,
      Text.closeGapsFrom_cut (by decide), Text.closeGapsFrom_cut (by decide),
      Text.closeGapsFrom_afterBreak_trimStart, List.append_assoc]
    rfl
  | blank oneLine isBlank following ih =>
    rw [trimmedLines_append oneLine, Text.trim_of_allBlank isBlank, joined_nil_cons, ih,
      Text.closeGapsFrom_afterBreak_line isBlank]
  | @comma before after rest oneLine isBlank following ih =>
    -- The blanks in front of the line and those behind its comma are in gaps.
    have hgap : closeGapsFrom keep (.behind ',') ('\n' :: joined (trimmedLines rest)) =
        closeGapsFrom keep (.behind ',') (after ++ '\n' :: rest) ++ ['\n'] := by
      rw [Text.Place.behind, if_pos rfl, Text.closeGapsFrom_gap_append isBlank oneLine.2,
        Text.closeGapsFrom_gap_break, Text.closeGapsFrom_gap_break, ih, List.append_assoc]
    rw [trimmedLines_comma oneLine isBlank, joined_cons (by simp), List.append_assoc,
      List.singleton_append, Text.closeGapsFrom_append_cons (by decide),
      Text.closeGapsFrom_append_cons (by decide), Text.closeGapsFrom_afterBreak_trimStart, hgap,
      List.append_assoc, List.cons_append]

/-- No line of such a text is taken for a separator or for a marker. -/
theorem getLast?_of_mem_trimmedLines (h : IsBrokenAtCommas text) :
    ∀ line ∈ trimmedLines text, ∀ c ∈ line.getLast?, c = ',' ∨ c = ';' := by
  induction h with
  | last oneLine ends =>
    obtain ⟨before, rfl⟩ := List.getLast?_eq_some_iff.mp ends
    rw [trimmedLines_last oneLine]
    simp
  | blank oneLine isBlank following ih =>
    rw [trimmedLines_append oneLine, Text.trim_of_allBlank isBlank, List.forall_mem_cons]
    exact ⟨by simp, ih⟩
  | comma oneLine isBlank following ih =>
    rw [trimmedLines_comma oneLine isBlank, List.forall_mem_cons]
    exact ⟨by simp, ih⟩

/-- Lines that end with a comma or a semicolon and are no comments are joined behind the text that
is pending. -/
theorem takeLines_joined
    (hends : ∀ line ∈ lines, ∀ c ∈ line.getLast?, c = ',' ∨ c = ';')
    (hcomment : ∀ line ∈ lines, line.head? ≠ some '%') (progress : Progress) :
    progress.takeLines lines =
      .ok { progress with pending := progress.pending ++ joined lines } := by
  induction lines generalizing progress with
  | nil => simp [Progress.takeLines, joined]
  | cons line rest ih =>
    rw [List.forall_mem_cons] at hends hcomment
    by_cases hempty : line = []
    · subst hempty
      rw [takeLines_cons (takeLine_idle rfl), joined_nil_cons]
      exact ih hends.2 hcomment.2 progress
    · have hseparator : line ≠ solutionSeparator.toList := by
        rintro rfl
        exact absurd (hends.1 '-' (by decide)) (by decide)
      have hmarker : SolveStatus.ofMarker? line = none := by
        have hmarkers : ∀ marker ∈ SolveStatus.markers, marker.1.toList.getLast? = some '=' := by
          decide
        rw [SolveStatus.ofMarker?, Option.map_eq_none_iff, List.find?_eq_none]
        intro marker hmem heq
        rw [decide_eq_true_eq] at heq
        exact absurd (hends.1 '=' (heq ▸ hmarkers marker hmem)) (by decide)
      have hidle : ¬ isIdle line = true := by
        simp [isIdle, hempty, hcomment.1]
      have hline : progress.takeLine line =
          .ok { progress with pending := progress.pending ++ line ++ ['\n'] } := by
        rw [Progress.takeLine, if_neg hseparator, hmarker]
        simp only [if_neg hidle]
      rw [takeLines_cons hline, ih hends.2 hcomment.2, joined_cons hempty]
      simp

end Joined

/-- A text that can stand as a name in an assignment. -/
structure IsName (name : List Char) : Prop where
  ne_nil : name ≠ []
  isNameCharacter : ∀ c ∈ name, Identifier.isNameCharacter c = true

section Assignments

variable {name text : List Char}

theorem IsName.not_mem (hname : IsName name) {c : Char}
    (hc : Identifier.isNameCharacter c = false) : c ∉ name := by
  intro hmem
  rw [hname.isNameCharacter c hmem] at hc
  cases hc

theorem IsName.isTight (hname : IsName name) : Text.IsTight name :=
  Text.isTight_of_forall fun c hc =>
    Text.not_isBlank_of_isNameCharacter (hname.isNameCharacter c hc)

/-- The statement that assigns what a text says to a name. -/
def assignmentText (name text : List Char) : List Char :=
  name ++ ' ' :: '=' :: ' ' :: (text ++ [';'])

/-- Gaps of an assignment are gaps of its text. -/
theorem closeGapsFrom_assignmentText (hname : IsName name) (keep : Bool)
    (place : Text.Place) (text : List Char) :
    closeGapsFrom keep place (assignmentText name text) =
      (name ++ [' ']) ++ '=' :: (closeGapsFrom keep .outside (' ' :: text) ++ [';']) := by
  have hcomma : ',' ∉ name ++ [' '] := by
    simp [hname.not_mem, Identifier.isNameCharacter]
  have hhead : ∀ c ∈ (name ++ [' ']).head?, isBlank c = false := by
    intro c hc
    rw [List.head?_append_of_ne_nil _ hname.ne_nil] at hc
    exact hname.isTight.1 c hc
  have hparts : assignmentText name text = (name ++ [' ']) ++ '=' :: (' ' :: text ++ [';']) := by
    simp [assignmentText]
  rw [hparts, Text.closeGapsFrom_cut (by decide), Text.closeGapsFrom_of_head hhead,
    Text.closeGapsFrom_of_not_mem hcomma, Text.closeGapsFrom_cut (by decide),
    Text.closeGapsFrom_nil]

theorem isBrokenAtCommas_assignmentText (hname : IsName name)
    (hgaps : '\n' ∉ Text.closeGaps text) : IsBrokenAtCommas (assignmentText name text) := by
  have hends : assignmentText name text = name ++ ' ' :: '=' :: ' ' :: text ++ [';'] := by
    simp [assignmentText]
  refine isBrokenAtCommas_of_closeGapsFrom ?_ (by rw [hends, List.getLast?_concat])
  have hblank : closeGapsFrom false .outside (' ' :: text) = ' ' :: Text.closeGaps text := rfl
  rw [closeGapsFrom_assignmentText hname, hblank]
  simp [hname.not_mem, Identifier.isNameCharacter, hgaps]

/-- The joined lines of an assignment are an assignment to the same name, and its text has the same
gaps and the same breaks. -/
theorem exists_joined_assignmentText (hname : IsName name) (hgaps : '\n' ∉ Text.closeGaps text) :
    ∃ before value,
      joined (trimmedLines (assignmentText name text)) = before ++ '=' :: (value ++ [';', '\n']) ∧
        Text.trim before = name ∧ '=' ∉ before ∧ ';' ∉ before ∧
        ∀ keep, closeGapsFrom keep .outside value = closeGapsFrom keep .outside (' ' :: text) := by
  have hbroken := isBrokenAtCommas_assignmentText hname hgaps
  have hjoined : ∀ keep, closeGapsFrom keep (.afterBreak keep)
      (joined (trimmedLines (assignmentText name text))) =
        (name ++ [' ']) ++ '=' :: (closeGapsFrom keep .outside (' ' :: text) ++ ';' :: ['\n']) := by
    intro keep
    rw [closeGapsFrom_joined hbroken, closeGapsFrom_assignmentText hname]
    simp
  obtain ⟨before, behind, heq, hbefore, hbehind⟩ :=
    Text.exists_of_closeGapsFrom_eq_cut (by decide) (hjoined false)
  obtain ⟨value, last, rfl, -, hlast⟩ := Text.exists_of_closeGapsFrom_eq_cut (by decide) hbehind
  obtain rfl : last = ['\n'] := Text.eq_of_closeGapsFrom_eq (by decide) hlast
  have hword : '=' ∉ name ++ [' '] ∧ ';' ∉ name ++ [' '] := by
    simp [hname.not_mem, Identifier.isNameCharacter]
  have hequals : '=' ∉ before := Text.not_mem_of_closeGapsFrom_eq (by decide) hword.1 hbefore
  have hsemicolon : ';' ∉ before := Text.not_mem_of_closeGapsFrom_eq (by decide) hword.2 hbefore
  refine ⟨before, value, heq, ?_, hequals, hsemicolon, fun keep => ?_⟩
  · have htrim := Text.trim_closeGapsFrom false (.afterBreak false) before
    rw [hbefore, Text.trim_append_right _ (by decide),
      Text.trim_eq_self hname.isTight] at htrim
    exact Text.eq_of_closeGapsFrom_eq (hname.not_mem (by decide)) htrim.symm
  · have hparts := hjoined keep
    rw [heq, Text.closeGapsFrom_cut (by decide), Text.closeGapsFrom_cut (by decide)] at hparts
    have hcut := congrArg (Text.cutAt? '=') hparts
    rw [Text.cutAt?_append (mt Text.mem_of_mem_closeGapsFrom hequals), Text.cutAt?_append hword.1,
      Option.some.injEq, Prod.mk.injEq] at hcut
    have hbreak : closeGapsFrom keep .outside ['\n'] = ['\n'] := rfl
    exact List.append_cancel_right (hbreak ▸ hcut.2)

end Assignments

end MiniZincModels.SolveResult
