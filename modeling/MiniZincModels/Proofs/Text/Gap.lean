import MiniZincModels.Proofs.Text.Blank

/-!
# Gaps behind commas

The blanks behind a comma are a gap, and a text may be broken over several lines in its gaps.
Two texts that differ in their gaps only are the same once the gaps are closed.  Closing them goes
along with trimming, with cutting the text at a mark, and with every character that is no blank.
A second way of closing leaves one line feed in each gap in which a line is broken, so that texts
are also compared by the gaps with breaks.
-/

namespace MiniZincModels.Text

/-- Where a text is read: outside gaps, in a gap, or in a gap behind a break that is noted. -/
inductive Place
  | outside
  | gap
  | broken

/-- A gap begins behind a comma. -/
def Place.behind (c : Char) : Place :=
  if c = ',' then .gap else .outside

/-- Closes the gaps; if breaks are kept, a line feed stays in each gap that has one. -/
def closeGapsFrom (keep : Bool) : Place → List Char → List Char
  | _, [] => []
  | .outside, c :: rest => c :: closeGapsFrom keep (.behind c) rest
  | .gap, c :: rest =>
    if isBlank c then
      if keep = true ∧ c = '\n' then c :: closeGapsFrom keep .broken rest
      else closeGapsFrom keep .gap rest
    else c :: closeGapsFrom keep (.behind c) rest
  | .broken, c :: rest =>
    if isBlank c then closeGapsFrom keep .broken rest
    else c :: closeGapsFrom keep (.behind c) rest

/-- The text without the blanks behind its commas. -/
def closeGaps (text : List Char) : List Char :=
  closeGapsFrom false .outside text

/-- The text with a line feed in the gaps that have one, and no other blanks behind commas. -/
def markBreaks (text : List Char) : List Char :=
  closeGapsFrom true .outside text

section Gaps

variable {keep : Bool} {place : Place} {c : Char} {text before after rest : List Char}

@[simp]
theorem closeGapsFrom_nil (keep : Bool) (place : Place) : closeGapsFrom keep place [] = [] := by
  cases place <;> rfl

/-- What is no blank stays. -/
theorem closeGapsFrom_cons (hc : isBlank c = false) (keep : Bool) (place : Place)
    (rest : List Char) :
    closeGapsFrom keep place (c :: rest) = c :: closeGapsFrom keep (.behind c) rest := by
  cases place <;> simp [closeGapsFrom, hc]

/-- In front of what is no blank, it does not matter where the text is read. -/
theorem closeGapsFrom_of_head (h : ∀ c ∈ text.head?, isBlank c = false) (keep : Bool)
    (place : Place) : closeGapsFrom keep place text = closeGapsFrom keep .outside text := by
  cases text with
  | nil => rw [closeGapsFrom_nil, closeGapsFrom_nil]
  | cons c rest => rw [closeGapsFrom_cons (h c rfl), closeGapsFrom_cons (h c rfl)]

/-- A blank stays or goes, whatever follows. -/
theorem exists_closeGapsFrom_cons (hc : isBlank c = true) (keep : Bool) (place : Place) :
    ∃ shown next, (shown = [] ∨ shown = [c]) ∧
      ∀ rest, closeGapsFrom keep place (c :: rest) = shown ++ closeGapsFrom keep next rest := by
  cases place with
  | outside => exact ⟨[c], .behind c, .inr rfl, fun _ => rfl⟩
  | gap =>
    by_cases hkept : keep = true ∧ c = '\n'
    · refine ⟨[c], .broken, .inr rfl, fun rest => ?_⟩
      rw [closeGapsFrom, if_pos hc, if_pos hkept, List.singleton_append]
    · refine ⟨[], .gap, .inl rfl, fun rest => ?_⟩
      rw [closeGapsFrom, if_pos hc, if_neg hkept, List.nil_append]
  | broken => exact ⟨[], .broken, .inl rfl, fun _ => by simp [closeGapsFrom, hc]⟩

/-- Nothing is added. -/
theorem mem_of_mem_closeGapsFrom (h : c ∈ closeGapsFrom keep place text) : c ∈ text := by
  induction text generalizing place with
  | nil => simp at h
  | cons d rest ih =>
    by_cases hd : isBlank d = true
    · obtain ⟨shown, next, hshown, heq⟩ := exists_closeGapsFrom_cons hd keep place
      rw [heq, List.mem_append] at h
      rcases h with h | h
      · rcases hshown with rfl | rfl
        · cases h
        · exact List.mem_cons.mpr (.inl (List.mem_singleton.mp h))
      · exact List.mem_cons_of_mem _ (ih h)
    · rw [closeGapsFrom_cons (by simpa using hd), List.mem_cons] at h
      exact List.mem_cons.mpr (h.imp_right ih)

/-- What is no blank is found in both texts. -/
theorem mem_closeGapsFrom_iff (hc : isBlank c = false) :
    c ∈ closeGapsFrom keep place text ↔ c ∈ text := by
  refine ⟨mem_of_mem_closeGapsFrom, fun h => ?_⟩
  induction text generalizing place with
  | nil => cases h
  | cons d rest ih =>
    by_cases hd : isBlank d = true
    · obtain ⟨shown, next, -, heq⟩ := exists_closeGapsFrom_cons hd keep place
      have hne : c ≠ d := (ne_of_isBlank hd hc).symm
      rw [heq]
      exact List.mem_append_right _ (ih ((List.mem_cons.mp h).resolve_left hne))
    · rw [closeGapsFrom_cons (by simpa using hd), List.mem_cons]
      exact (List.mem_cons.mp h).imp_right ih

/-- Without a comma there is no gap. -/
theorem closeGapsFrom_append_of_not_mem (h : ',' ∉ before) (after : List Char) :
    closeGapsFrom keep .outside (before ++ after) =
      before ++ closeGapsFrom keep .outside after := by
  induction before with
  | nil => rfl
  | cons d rest ih =>
    rw [List.mem_cons, not_or] at h
    have hbehind : Place.behind d = .outside := if_neg (Ne.symm h.1)
    rw [List.cons_append, closeGapsFrom, hbehind, ih h.2, List.cons_append]

theorem closeGapsFrom_of_not_mem (h : ',' ∉ text) : closeGapsFrom keep .outside text = text := by
  have happend :
      closeGapsFrom keep .outside (text ++ []) = text ++ closeGapsFrom keep .outside [] :=
    closeGapsFrom_append_of_not_mem h []
  rwa [List.append_nil, closeGapsFrom_nil, List.append_nil] at happend

/-- A text is cut in front of and behind a character that is no blank. -/
theorem closeGapsFrom_append_cons (hc : isBlank c = false) (keep : Bool) (place : Place)
    (before after : List Char) :
    closeGapsFrom keep place (before ++ c :: after) =
      closeGapsFrom keep place before ++ c :: closeGapsFrom keep (.behind c) after := by
  induction before generalizing place with
  | nil => rw [List.nil_append, closeGapsFrom_cons hc, closeGapsFrom_nil, List.nil_append]
  | cons d rest ih =>
    by_cases hd : isBlank d = true
    · obtain ⟨shown, next, -, heq⟩ := exists_closeGapsFrom_cons hd keep place
      rw [List.cons_append, heq, heq, ih, List.append_assoc]
    · have hd : isBlank d = false := by simpa using hd
      rw [List.cons_append, closeGapsFrom_cons hd, closeGapsFrom_cons hd, ih, List.cons_append]

/-- Where the closed text can be cut, the text can. -/
theorem exists_of_closeGapsFrom_eq_append_cons (hc : isBlank c = false)
    (h : closeGapsFrom keep place text = before ++ c :: after) :
    ∃ first second, text = first ++ c :: second ∧ closeGapsFrom keep place first = before ∧
      closeGapsFrom keep (.behind c) second = after := by
  induction text generalizing place before with
  | nil => simp at h
  | cons d rest ih =>
    by_cases hd : isBlank d = true
    · obtain ⟨shown, next, hshown, heq⟩ := exists_closeGapsFrom_cons hd keep place
      rw [heq] at h
      have hrest : ∃ shorter, before = shown ++ shorter ∧
          closeGapsFrom keep next rest = shorter ++ c :: after := by
        rcases hshown with rfl | rfl
        · exact ⟨before, rfl, h⟩
        · cases before with
          | nil =>
            have hdc : d = c := (List.cons.inj h).1
            rw [hdc, hc] at hd
            cases hd
          | cons e shorter =>
            obtain ⟨rfl, hrest⟩ := List.cons.inj h
            exact ⟨shorter, rfl, hrest⟩
      obtain ⟨shorter, rfl, hrest⟩ := hrest
      obtain ⟨first, second, rfl, hfirst, hsecond⟩ := ih hrest
      exact ⟨d :: first, second, rfl, by rw [heq, hfirst], hsecond⟩
    · have hd : isBlank d = false := by simpa using hd
      rw [closeGapsFrom_cons hd] at h
      cases before with
      | nil =>
        obtain ⟨rfl, hrest⟩ := List.cons.inj h
        exact ⟨[], rest, rfl, closeGapsFrom_nil keep place, hrest⟩
      | cons e shorter =>
        obtain ⟨rfl, hrest⟩ := List.cons.inj h
        obtain ⟨first, second, rfl, hfirst, hsecond⟩ := ih hrest
        exact ⟨d :: first, second, rfl, by rw [closeGapsFrom_cons hd, hfirst], hsecond⟩

theorem not_mem_of_closeGapsFrom_eq (hc : isBlank c = false) (h : c ∉ after)
    (heq : closeGapsFrom keep place text = after) : c ∉ text := by
  rwa [← heq, mem_closeGapsFrom_iff hc] at h

theorem eq_of_closeGapsFrom_eq (h : ',' ∉ after) (heq : closeGapsFrom keep .outside text = after) :
    text = after := by
  have hcomma : ',' ∉ text := not_mem_of_closeGapsFrom_eq (by decide) h heq
  rw [← heq, closeGapsFrom_of_not_mem hcomma]

/-- Behind a character that is neither a blank nor a comma the text starts anew. -/
theorem closeGapsFrom_cut (hc : isBlank c = false ∧ c ≠ ',') (keep : Bool) (place : Place)
    (before after : List Char) :
    closeGapsFrom keep place (before ++ c :: after) =
      closeGapsFrom keep place before ++ c :: closeGapsFrom keep .outside after := by
  have hbehind : Place.behind c = .outside := if_neg hc.2
  rw [closeGapsFrom_append_cons hc.1, hbehind]

theorem exists_of_closeGapsFrom_eq_cut (hc : isBlank c = false ∧ c ≠ ',')
    (h : closeGapsFrom keep place text = before ++ c :: after) :
    ∃ first second, text = first ++ c :: second ∧ closeGapsFrom keep place first = before ∧
      closeGapsFrom keep .outside second = after := by
  have hbehind : Place.behind c = .outside := if_neg hc.2
  rw [← hbehind]
  exact exists_of_closeGapsFrom_eq_append_cons hc.1 h

/-! ## Breaks -/

/-- Behind a break that was noted, if breaks are kept, and else in the gap. -/
def Place.afterBreak (keep : Bool) : Place :=
  if keep then .broken else .gap

theorem closeGapsFrom_gap_break (keep : Bool) (rest : List Char) :
    closeGapsFrom keep .gap ('\n' :: rest) =
      (if keep then ['\n'] else []) ++ closeGapsFrom keep (.afterBreak keep) rest := by
  cases keep <;> rfl

/-- In a gap the blanks of one line are left out. -/
theorem closeGapsFrom_gap_append (hbefore : allBlank before = true) (hline : '\n' ∉ before)
    (keep : Bool) (rest : List Char) :
    closeGapsFrom keep .gap (before ++ rest) = closeGapsFrom keep .gap rest := by
  induction before with
  | nil => rfl
  | cons d blanks ih =>
    rw [allBlank, List.all_cons, Bool.and_eq_true] at hbefore
    rw [List.mem_cons, not_or] at hline
    have hkept : ¬ (keep = true ∧ d = '\n') := fun h => hline.1 h.2.symm
    rw [List.cons_append, closeGapsFrom, if_pos hbefore.1, if_neg hkept, ih hbefore.2 hline.2]

/-- Behind a break all blanks are left out. -/
theorem closeGapsFrom_afterBreak_append (hbefore : allBlank before = true) (keep : Bool)
    (rest : List Char) :
    closeGapsFrom keep (.afterBreak keep) (before ++ rest) =
      closeGapsFrom keep (.afterBreak keep) rest := by
  induction before with
  | nil => rfl
  | cons d blanks ih =>
    rw [allBlank, List.all_cons, Bool.and_eq_true] at hbefore
    rw [List.cons_append, ← ih hbefore.2]
    cases keep <;> simp [Place.afterBreak, closeGapsFrom, hbefore.1]

theorem closeGapsFrom_afterBreak_line (hbefore : allBlank before = true) (keep : Bool)
    (rest : List Char) :
    closeGapsFrom keep (.afterBreak keep) (before ++ '\n' :: rest) =
      closeGapsFrom keep (.afterBreak keep) rest := by
  have hbreak : allBlank ['\n'] = true := by decide
  rw [closeGapsFrom_afterBreak_append hbefore, ← List.singleton_append,
    closeGapsFrom_afterBreak_append hbreak]

theorem closeGapsFrom_afterBreak_trimStart (keep : Bool) (text : List Char) :
    closeGapsFrom keep (.afterBreak keep) (trimStart text) =
      closeGapsFrom keep (.afterBreak keep) text := by
  have hblanks : allBlank (text.takeWhile isBlank) = true := List.all_takeWhile
  have hsplit : text.takeWhile isBlank ++ trimStart text = text := List.takeWhile_append_dropWhile
  have hdropped := closeGapsFrom_afterBreak_append hblanks keep (trimStart text)
  rwa [hsplit, eq_comm] at hdropped

/-- A line feed is left exactly if there is one. -/
theorem mem_closeGapsFrom_of_break (hplace : place ≠ .broken) (h : '\n' ∈ text) :
    '\n' ∈ closeGapsFrom true place text := by
  induction text generalizing place with
  | nil => cases h
  | cons d rest ih =>
    have hbehind : Place.behind d ≠ .broken := by
      rw [Place.behind]
      split <;> nofun
    cases place with
    | broken => exact absurd rfl hplace
    | outside =>
      rw [closeGapsFrom, List.mem_cons]
      exact (List.mem_cons.mp h).imp_right (ih hbehind)
    | gap =>
      rw [closeGapsFrom]
      by_cases hd : d = '\n'
      · rw [if_pos (by rw [hd]; decide), if_pos ⟨rfl, hd⟩, hd]
        exact List.mem_cons_self
      · have hrest : '\n' ∈ rest := (List.mem_cons.mp h).resolve_left (Ne.symm hd)
        rw [if_neg (not_and_of_not_right _ hd)]
        split
        · exact ih nofun hrest
        · exact List.mem_cons_of_mem _ (ih hbehind hrest)

theorem mem_markBreaks_iff : '\n' ∈ markBreaks text ↔ '\n' ∈ text :=
  ⟨mem_of_mem_closeGapsFrom, mem_closeGapsFrom_of_break nofun⟩

/-! ## Trimming -/

theorem allBlank_closeGapsFrom (keep : Bool) (place : Place) (text : List Char) :
    allBlank (closeGapsFrom keep place text) = allBlank text := by
  induction text generalizing place with
  | nil => rw [closeGapsFrom_nil]
  | cons d rest ih =>
    by_cases hd : isBlank d = true
    · obtain ⟨shown, next, hshown, heq⟩ := exists_closeGapsFrom_cons hd keep place
      have hblank : shown.all isBlank = true := by
        rcases hshown with rfl | rfl <;> simp [hd]
      have hrest : (closeGapsFrom keep next rest).all isBlank = rest.all isBlank := ih next
      rw [heq, allBlank, allBlank, List.all_append, hblank, hrest, List.all_cons, hd]
    · rw [closeGapsFrom_cons (by simpa using hd)]
      simp [allBlank, hd]

theorem trimStart_closeGapsFrom (keep : Bool) (place : Place) (text : List Char) :
    trimStart (closeGapsFrom keep place text) = closeGapsFrom keep .outside (trimStart text) := by
  induction text generalizing place with
  | nil => rw [closeGapsFrom_nil]; rfl
  | cons d rest ih =>
    by_cases hd : isBlank d = true
    · obtain ⟨shown, next, hshown, heq⟩ := exists_closeGapsFrom_cons hd keep place
      have hblank : allBlank shown = true := by
        rcases hshown with rfl | rfl <;> simp [allBlank, hd]
      have hfirst : allBlank [d] = true := by simp [allBlank, hd]
      rw [heq, trimStart_append _ hblank, ih, ← List.singleton_append, trimStart_append _ hfirst]
    · have hd : isBlank d = false := by simpa using hd
      have hhead : ∀ other : List Char, ∀ c ∈ (d :: other).head?, isBlank c = false := by
        simpa using hd
      rw [closeGapsFrom_cons hd, trimStart_eq_self (hhead _), trimStart_eq_self (hhead _),
        closeGapsFrom_cons hd]

theorem trimEnd_closeGapsFrom (keep : Bool) (place : Place) (text : List Char) :
    trimEnd (closeGapsFrom keep place text) = closeGapsFrom keep place (trimEnd text) := by
  by_cases hblank : allBlank text = true
  · have hclosed : allBlank (closeGapsFrom keep place text) = true := by
      rw [allBlank_closeGapsFrom, hblank]
    rw [trimEnd_of_allBlank hclosed, trimEnd_of_allBlank hblank, closeGapsFrom_nil]
  · obtain ⟨before, c, after, hc, hafter, rfl⟩ :=
      exists_last_of_not_allBlank (by simpa using hblank)
    have hclosed : allBlank (closeGapsFrom keep (.behind c) after) = true := by
      rw [allBlank_closeGapsFrom, hafter]
    rw [closeGapsFrom_append_cons hc, trimEnd_append_cons hc,
      trimEnd_of_allBlank hclosed, trimEnd_append_cons hc, trimEnd_of_allBlank hafter,
      closeGapsFrom_append_cons hc, closeGapsFrom_nil]

/-- Trimming a text and closing its gaps go along with each other. -/
theorem trim_closeGapsFrom (keep : Bool) (place : Place) (text : List Char) :
    trim (closeGapsFrom keep place text) = closeGapsFrom keep .outside (trim text) := by
  rw [trim, trimStart_closeGapsFrom, trimEnd_closeGapsFrom, trim]

end Gaps

end MiniZincModels.Text
