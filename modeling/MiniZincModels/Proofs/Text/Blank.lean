import MiniZincModels.Proofs.Text.Characters

/-!
# Trimming and splitting

Blanks around a text do not matter where the text is trimmed, and a text can be put
together from pieces without the separator and taken apart again.
-/

namespace MiniZincModels.Text

section Trimming

variable {text blanks before after : List Char}

/-- A text that neither starts nor ends with a blank. -/
def IsTight (text : List Char) : Prop :=
  (∀ c ∈ text.head?, isBlank c = false) ∧ ∀ c ∈ text.getLast?, isBlank c = false

theorem isTight_nil : IsTight [] := by
  simp [IsTight]

theorem isTight_of_forall (h : ∀ c ∈ text, isBlank c = false) : IsTight text :=
  ⟨fun c hc => h c (List.mem_of_mem_head? hc), fun c hc => h c (List.mem_of_mem_getLast? hc)⟩

theorem isTight_enclosed {first last : Char} (hfirst : isBlank first = false)
    (hlast : isBlank last = false) : IsTight (first :: (text ++ [last])) := by
  refine ⟨by simpa using hfirst, ?_⟩
  rw [← List.cons_append, List.getLast?_concat]
  simpa using hlast

theorem isTight_append {left right : List Char} (hleft : IsTight left) (hright : IsTight right)
    (hne : left ≠ [] ∧ right ≠ []) (inner : List Char) : IsTight (left ++ (inner ++ right)) := by
  obtain ⟨first, rest, rfl⟩ := List.exists_cons_of_ne_nil hne.1
  have hlast := List.getLast?_eq_some_getLast hne.2
  refine ⟨hleft.1, ?_⟩
  rw [← List.append_assoc, List.getLast?_append, hlast, Option.some_or, ← hlast]
  exact hright.2

/-- A blank is none of the characters that are no blanks. -/
theorem ne_of_isBlank {c mark : Char} (hc : isBlank c = true) (hmark : isBlank mark = false) :
    c ≠ mark := by
  rintro rfl
  rw [hc] at hmark
  cases hmark

theorem isDigit_of_isBlank {c : Char} (hc : isBlank c = true) : c.isDigit = false := by
  rw [Bool.eq_false_iff]
  intro hdigit
  exact forall_isDigit (p := fun d => c ≠ d)
    (fun d hd => ne_of_isBlank hc ((by decide : ∀ d ∈ _, isBlank d = false) d hd)) hdigit rfl

theorem trimStart_eq_self (h : ∀ c ∈ text.head?, isBlank c = false) : trimStart text = text := by
  cases text with
  | nil => rfl
  | cons c rest =>
    have hc : isBlank c = false := h c rfl
    rw [trimStart, List.dropWhile_cons_of_neg (by simp [hc])]

theorem trimEnd_eq_self (h : ∀ c ∈ text.getLast?, isBlank c = false) : trimEnd text = text := by
  have hreverse : trimStart text.reverse = text.reverse :=
    trimStart_eq_self (by rwa [List.head?_reverse])
  rw [trimStart] at hreverse
  rw [trimEnd, hreverse, List.reverse_reverse]

theorem head?_trimEnd (h : ∀ c ∈ text.head?, isBlank c = false) :
    (trimEnd text).head? = text.head? := by
  cases text with
  | nil => rfl
  | cons c rest =>
    have hc : isBlank c = false := h c rfl
    have hlast : [c].dropWhile isBlank = [c] := List.dropWhile_cons_of_neg (by simp [hc])
    rw [trimEnd, List.reverse_cons, List.dropWhile_append, hlast]
    by_cases hrest : (rest.reverse.dropWhile isBlank).isEmpty = true <;> simp [hrest]

/-- Trimming keeps a first character that is no blank. -/
theorem head?_trim (h : ∀ c ∈ text.head?, isBlank c = false) : (trim text).head? = text.head? := by
  rw [trim, trimStart_eq_self h, head?_trimEnd h]

theorem trim_eq_self (h : IsTight text) : trim text = text := by
  rw [trim, trimStart_eq_self h.1, trimEnd_eq_self h.2]

theorem trimStart_append (text : List Char) (h : allBlank blanks = true) :
    trimStart (blanks ++ text) = trimStart text :=
  List.dropWhile_append_of_pos (by simpa [allBlank] using h)

theorem trimStart_append_cons {c : Char} (hc : isBlank c = false) (before after : List Char) :
    trimStart (before ++ c :: after) = trimStart before ++ c :: after := by
  have hkept : (c :: after).dropWhile isBlank = c :: after :=
    List.dropWhile_cons_of_neg (by simp [hc])
  rw [trimStart, List.dropWhile_append, hkept, trimStart]
  by_cases hbefore : (before.dropWhile isBlank).isEmpty = true
  · rw [if_pos hbefore, List.isEmpty_iff.mp hbefore, List.nil_append]
  · rw [if_neg hbefore]

theorem trimEnd_append (text : List Char) (h : allBlank blanks = true) :
    trimEnd (text ++ blanks) = trimEnd text := by
  have hreverse : allBlank blanks.reverse = true := by
    simpa [allBlank] using h
  have htrimmed := trimStart_append text.reverse hreverse
  rw [trimStart, trimStart] at htrimmed
  rw [trimEnd, List.reverse_append, htrimmed, trimEnd]

theorem trimEnd_of_allBlank (h : allBlank blanks = true) : trimEnd blanks = [] :=
  trimEnd_append [] h

theorem trimEnd_append_cons {c : Char} (hc : isBlank c = false) :
    trimEnd (before ++ c :: after) = before ++ c :: trimEnd after := by
  have hreverse : (before ++ c :: after).reverse = after.reverse ++ c :: before.reverse := by simp
  have htrimmed := trimStart_append_cons hc after.reverse before.reverse
  rw [trimStart, trimStart] at htrimmed
  rw [trimEnd, hreverse, htrimmed, trimEnd]
  simp

/-- Both sides of a character that is no blank are trimmed on their own. -/
theorem trim_append_cons {c : Char} (hc : isBlank c = false) :
    trim (before ++ c :: after) = trimStart before ++ c :: trimEnd after := by
  rw [trim, trimStart_append_cons hc, trimEnd_append_cons hc]

theorem exists_last_of_not_allBlank (h : allBlank text = false) :
    ∃ before c after, isBlank c = false ∧ allBlank after = true ∧ text = before ++ c :: after := by
  induction text with
  | nil => cases h
  | cons d rest ih =>
    by_cases hrest : allBlank rest = true
    · refine ⟨[], d, rest, ?_, hrest, rfl⟩
      rw [allBlank, List.all_cons, ← allBlank, hrest, Bool.and_true] at h
      exact h
    · obtain ⟨before, c, after, hc, hafter, rfl⟩ := ih (by simpa using hrest)
      exact ⟨d :: before, c, after, hc, hafter, rfl⟩

theorem trim_append_left (text : List Char) (h : allBlank blanks = true) :
    trim (blanks ++ text) = trim text := by
  rw [trim, trimStart_append text h, trim]

theorem trim_append_right (text : List Char) (h : allBlank blanks = true) :
    trim (text ++ blanks) = trim text := by
  induction text with
  | nil =>
    have hblanks := trim_append_left [] h
    rwa [List.append_nil] at hblanks
  | cons c rest ih =>
    by_cases hc : isBlank c = true
    · have hfirst : allBlank [c] = true := by simpa [allBlank] using hc
      have hleft := trim_append_left (rest ++ blanks) hfirst
      have hright := trim_append_left rest hfirst
      exact hleft.trans (ih.trans hright.symm)
    · have hhead : ∀ first ∈ (c :: rest).head?, isBlank first = false := by simpa using hc
      have hhead' : ∀ first ∈ (c :: rest ++ blanks).head?, isBlank first = false := by
        simpa using hc
      rw [trim, trimStart_eq_self hhead', trimEnd_append _ h, trim, trimStart_eq_self hhead]

theorem trim_of_allBlank (h : allBlank blanks = true) : trim blanks = [] :=
  trim_append_right [] h

/-- Trimming takes a tight text out of the blanks around it. -/
theorem trim_padded (hbefore : allBlank before = true) (hafter : allBlank after = true)
    (htext : IsTight text) : trim (before ++ text ++ after) = text := by
  rw [trim_append_right _ hafter, trim_append_left _ hbefore, trim_eq_self htext]

theorem exists_eq_trimEnd (text : List Char) :
    ∃ after, allBlank after = true ∧ text = trimEnd text ++ after := by
  refine ⟨(text.reverse.takeWhile isBlank).reverse, ?_, ?_⟩
  · rw [allBlank, List.all_reverse]
    exact List.all_takeWhile
  · rw [trimEnd, ← List.reverse_append, List.takeWhile_append_dropWhile, List.reverse_reverse]

theorem trim_trimStart (text : List Char) : trim (trimStart text) = trim text := by
  have hblanks : allBlank (text.takeWhile isBlank) = true := List.all_takeWhile
  have hsplit : text.takeWhile isBlank ++ trimStart text = text := List.takeWhile_append_dropWhile
  rw [← trim_append_left _ hblanks, hsplit]

theorem trim_trimEnd (text : List Char) : trim (trimEnd text) = trim text := by
  obtain ⟨after, hafter, heq⟩ := exists_eq_trimEnd text
  rw [← trim_append_right _ hafter, ← heq]

/-- What trimming takes away are blanks at both ends. -/
theorem exists_eq_trim (text : List Char) :
    ∃ before after, allBlank before = true ∧ allBlank after = true ∧
      text = before ++ trim text ++ after := by
  obtain ⟨after, hafter, heq⟩ := exists_eq_trimEnd (trimStart text)
  refine ⟨text.takeWhile isBlank, after, List.all_takeWhile, hafter, ?_⟩
  rw [List.append_assoc, trim, ← heq, trimStart, List.takeWhile_append_dropWhile]

/-- Trimming adds nothing. -/
theorem mem_of_mem_trim {c : Char} (h : c ∈ trim text) : c ∈ text := by
  obtain ⟨before, after, -, -, heq⟩ := exists_eq_trim text
  rw [heq]
  exact List.mem_append_left _ (List.mem_append_right _ h)

/-- What is no blank is not trimmed away. -/
theorem mem_trim {c : Char} (hc : isBlank c = false) (h : c ∈ text) : c ∈ trim text := by
  have hnot : ∀ blanks : List Char, allBlank blanks = true → c ∉ blanks := by
    intro blanks hblanks hmem
    rw [List.all_eq_true.mp hblanks c hmem] at hc
    cases hc
  obtain ⟨before, after, hbefore, hafter, heq⟩ := exists_eq_trim text
  rw [heq, List.mem_append, List.mem_append] at h
  exact (h.resolve_right (hnot after hafter)).resolve_left (hnot before hbefore)

/-- Nothing is left to be trimmed. -/
theorem isTight_trim (text : List Char) : IsTight (trim text) := by
  have hdropped : ∀ others : List Char, ∀ c ∈ (others.dropWhile isBlank).head?,
      isBlank c = false := by
    intro others c hc
    have hhead := List.head?_dropWhile_not isBlank others
    rw [Option.mem_def.mp hc] at hhead
    exact hhead
  constructor
  · rw [trim, trimStart, head?_trimEnd (hdropped text)]
    exact hdropped text
  · rw [trim, trimEnd, List.getLast?_reverse]
    exact hdropped _

theorem length_trim_le (text : List Char) : (trim text).length ≤ text.length := by
  obtain ⟨before, after, -, -, heq⟩ := exists_eq_trim text
  have hlength := congrArg List.length heq
  rw [List.length_append, List.length_append] at hlength
  omega

end Trimming

theorem eq_append_of_afterStart? {start text rest : List Char}
    (h : afterStart? start text = some rest) : text = start ++ rest := by
  induction start generalizing text with
  | nil => exact Option.some.inj h
  | cons s start ih =>
    cases text with
    | nil => cases h
    | cons c text =>
      rw [afterStart?] at h
      split at h
      · rename_i hc
        rw [hc, List.cons_append, ← ih h]
      · cases h

section Splitting

variable {separator : Char} {piece rest : List Char}

theorem splitAt_append (h : separator ∉ piece) :
    splitAt separator (piece ++ separator :: rest) = piece :: splitAt separator rest := by
  induction piece with
  | nil => simp [splitAt]
  | cons c piece ih =>
    rw [List.mem_cons, not_or] at h
    rw [List.cons_append, splitAt, if_neg (Ne.symm h.1), ih h.2]

/-- A separator parts the pieces in front of it from those behind it. -/
theorem splitAt_append_separator (left right : List Char) :
    splitAt separator (left ++ separator :: right) =
      splitAt separator left ++ splitAt separator right := by
  induction left with
  | nil => simp [splitAt]
  | cons c left ih =>
    rw [List.cons_append, splitAt, splitAt, ih]
    by_cases hc : c = separator
    · rw [if_pos hc, if_pos hc, List.cons_append]
    · rw [if_neg hc, if_neg hc]
      cases hpieces : splitAt separator left with
      | nil => exact absurd hpieces (splitAt_ne_nil separator left)
      | cons piece pieces => rfl

/-- What stands in front of a text without a separator belongs to the first piece. -/
theorem splitAt_append_left {text : List Char} {pieces : List (List Char)} (h : separator ∉ rest)
    (htext : splitAt separator text = piece :: pieces) :
    splitAt separator (rest ++ text) = (rest ++ piece) :: pieces := by
  induction rest with
  | nil => exact htext
  | cons c rest ih =>
    rw [List.mem_cons, not_or] at h
    rw [List.cons_append, splitAt, if_neg (Ne.symm h.1), ih h.2]
    rfl

theorem splitAt_of_not_mem (h : separator ∉ piece) : splitAt separator piece = [piece] := by
  induction piece with
  | nil => rfl
  | cons c piece ih =>
    rw [List.mem_cons, not_or] at h
    rw [splitAt, if_neg (Ne.symm h.1), ih h.2]

/-- Lines that are each ended by the separator, and a last one behind them. -/
theorem splitAt_lines {lines : List (List Char)} {last : List Char}
    (hlines : ∀ line ∈ lines, separator ∉ line) (hlast : separator ∉ last) :
    splitAt separator ((lines.flatMap fun line => line ++ [separator]) ++ last) =
      lines ++ [last] := by
  induction lines with
  | nil => exact splitAt_of_not_mem hlast
  | cons line lines ih =>
    rw [List.forall_mem_cons] at hlines
    rw [List.flatMap_cons, List.append_assoc, List.append_assoc, List.singleton_append,
      splitAt_append hlines.1, ih hlines.2, List.cons_append]

theorem cutAt?_append (h : separator ∉ piece) :
    cutAt? separator (piece ++ separator :: rest) = some (piece, rest) := by
  induction piece with
  | nil => simp [cutAt?]
  | cons c piece ih =>
    rw [List.mem_cons, not_or] at h
    rw [List.cons_append, cutAt?, if_neg (Ne.symm h.1), ih h.2]
    rfl

end Splitting

end MiniZincModels.Text
