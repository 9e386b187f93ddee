import MiniZincModels.Proofs.Expr.Operand
import MiniZincModels.Proofs.Output.Splitting

/-!
# Pieces of texts

Cutting a text at its commas outside brackets loses nothing: with commas between them the
pieces are the text again, and none of them has such a comma itself.  This holds of every
text, also if its brackets do not fit each other.  Texts that close all brackets they open,
and hold their commas inside them, are the pieces of the text they are joined to.
-/

namespace MiniZincModels.Value

variable {depth : Nat} {text rest piece : List Char} {pieces texts : List (List Char)}

/-! ## Depths -/

/-- The nesting depth behind a text that begins at a given depth. -/
def depthBehind (depth : Nat) (text : List Char) : Nat :=
  text.foldl depthAfter depth

/-- Every comma of a text that begins at a given depth stands inside brackets. -/
def HidesCommas (depth : Nat) (text : List Char) : Prop :=
  ∀ before after, text = before ++ ',' :: after → depthBehind depth before ≠ 0

theorem hidesCommas_nil (depth : Nat) : HidesCommas depth [] := by
  intro before after heq
  simp at heq

theorem hidesCommas_cons {c : Char} :
    HidesCommas depth (c :: rest) ↔
      ¬ (c = ',' ∧ depth = 0) ∧ HidesCommas (depthAfter depth c) rest := by
  constructor
  · intro h
    refine ⟨fun ⟨hcomma, hdepth⟩ => ?_, fun before after heq => ?_⟩
    · exact h [] rest (by rw [hcomma, List.nil_append]) hdepth
    · exact h (c :: before) after (by rw [heq, List.cons_append])
  · rintro ⟨hfirst, hrest⟩ before after heq
    cases before with
    | nil =>
      obtain ⟨rfl, -⟩ := List.cons.inj heq
      exact fun hdepth => hfirst ⟨rfl, hdepth⟩
    | cons first inner =>
      obtain ⟨rfl, hinner⟩ := List.cons.inj heq
      exact hrest inner after hinner

instance decidableHidesCommas : (depth : Nat) → (text : List Char) →
    Decidable (HidesCommas depth text)
  | depth, [] => isTrue (hidesCommas_nil depth)
  | depth, c :: rest =>
    have := decidableHidesCommas (depthAfter depth c) rest
    decidable_of_iff _ hidesCommas_cons.symm

/-! ## From a text to its pieces -/

theorem intercalate_attach (hpieces : pieces ≠ []) :
    [','].intercalate (attach text pieces) = text ++ [','].intercalate pieces := by
  obtain ⟨first, others, rfl⟩ := List.exists_cons_of_ne_nil hpieces
  cases others with
  | nil => simp [attach]
  | cons second others => simp [attach, List.intercalate_cons_cons]

/-- The pieces with commas between them are the text. -/
theorem intercalate_splitFrom (depth : Nat) (text : List Char) :
    [','].intercalate (splitFrom depth text) = text := by
  induction text generalizing depth with
  | nil => rfl
  | cons c rest ih =>
    by_cases hcut : c = ',' ∧ depth = 0
    · obtain ⟨first, others, hrest⟩ := List.exists_cons_of_ne_nil (splitFrom_ne_nil 0 rest)
      rw [splitFrom, if_pos hcut, hrest, List.intercalate_cons_cons, ← hrest, ih, hcut.1]
      rfl
    · rw [splitFrom_cons hcut, intercalate_attach (splitFrom_ne_nil _ rest), ih]
      rfl

/-- A piece is not cut, and all but the first one begin outside brackets. -/
theorem hidesCommas_of_splitFrom (h : splitFrom depth text = piece :: pieces) :
    HidesCommas depth piece ∧ ∀ other ∈ pieces, HidesCommas 0 other := by
  induction text generalizing depth piece pieces with
  | nil =>
    obtain ⟨rfl, rfl⟩ := List.cons.inj h
    exact ⟨hidesCommas_nil depth, by simp⟩
  | cons c rest ih =>
    by_cases hcut : c = ',' ∧ depth = 0
    · rw [splitFrom, if_pos hcut] at h
      obtain ⟨rfl, rfl⟩ := List.cons.inj h
      obtain ⟨first, others, hrest⟩ := List.exists_cons_of_ne_nil (splitFrom_ne_nil 0 rest)
      refine ⟨hidesCommas_nil depth, ?_⟩
      rw [hrest, List.forall_mem_cons]
      exact ih hrest
    · obtain ⟨first, others, hrest⟩ :=
        List.exists_cons_of_ne_nil (splitFrom_ne_nil (depthAfter depth c) rest)
      rw [splitFrom_cons hcut, hrest, attach] at h
      obtain ⟨rfl, rfl⟩ := List.cons.inj h
      obtain ⟨hfirst, hothers⟩ := ih hrest
      exact ⟨hidesCommas_cons.mpr ⟨hcut, hfirst⟩, hothers⟩

/-! ## From pieces to their text -/

/-- A text that hides its commas is not cut, whatever follows it. -/
theorem splitFrom_append (h : HidesCommas depth text) (rest : List Char) :
    splitFrom depth (text ++ rest) = attach text (splitFrom (depthBehind depth text) rest) := by
  induction text generalizing depth with
  | nil => exact isSolid_nil depth (Nat.zero_le depth) rest
  | cons c text ih =>
    obtain ⟨hfirst, htext⟩ := hidesCommas_cons.mp h
    rw [List.cons_append, splitFrom_cons hfirst, ih htext, ← attach_append]
    rfl

/-! ## Balanced texts -/

/-- No bracket is closed before it is opened, and all are closed.  Brackets of all sorts
count alike. -/
structure IsBalanced (text : List Char) : Prop where
  opensFirst : ∀ before, before <+: text → before.countP isClosing ≤ before.countP isOpening
  closesAll : text.countP isClosing = text.countP isOpening

theorem eq_of_isOpening {c : Char} (h : isOpening c = true) : c = '(' ∨ c = '[' ∨ c = '\x7b' := by
  simpa [isOpening, or_assoc] using h

theorem eq_of_isClosing {c : Char} (h : isClosing c = true) : c = ')' ∨ c = ']' ∨ c = '\x7d' := by
  simpa [isClosing, or_assoc] using h

theorem isClosing_of_isOpening {c : Char} (h : isOpening c = true) : isClosing c = false := by
  obtain rfl | rfl | rfl := eq_of_isOpening h <;> rfl

/-- Unless it closes a bracket that is not open, a character changes the depth by what it opens
and closes. -/
theorem depthAfter_add_countP {c : Char}
    (h : [c].countP isClosing ≤ depth + [c].countP isOpening) :
    depthAfter depth c + [c].countP isClosing = depth + [c].countP isOpening := by
  simp only [List.countP_singleton] at h ⊢
  rw [depthAfter]
  by_cases hopening : isOpening c = true
  · simp [hopening, isClosing_of_isOpening hopening]
  · by_cases hclosing : isClosing c = true
    · simp [hopening, hclosing] at h ⊢
      omega
    · simp [hopening, hclosing]

/-- As long as no closing bracket comes too early, the depth is the number of brackets that were
opened and not closed. -/
theorem depthBehind_add_countP
    (h : ∀ before, before <+: text →
      before.countP isClosing ≤ depth + before.countP isOpening) :
    depthBehind depth text + text.countP isClosing = depth + text.countP isOpening := by
  induction text generalizing depth with
  | nil => rfl
  | cons c rest ih =>
    have hstep := depthAfter_add_countP (h [c] ⟨rest, rfl⟩)
    have hafter : ∀ before, before <+: rest →
        before.countP isClosing ≤ depthAfter depth c + before.countP isOpening := by
      intro before hbefore
      have hwhole := h ([c] ++ before) (List.cons_prefix_cons.mpr ⟨rfl, hbefore⟩)
      rw [List.countP_append, List.countP_append] at hwhole
      omega
    have hrest := ih hafter
    rw [← List.singleton_append, List.countP_append, List.countP_append]
    have hbehind : depthBehind depth ([c] ++ rest) = depthBehind (depthAfter depth c) rest := rfl
    omega

theorem IsBalanced.depthBehind_add_countP (h : IsBalanced text) {before : List Char}
    (hbefore : before <+: text) (depth : Nat) :
    depthBehind depth before + before.countP isClosing = depth + before.countP isOpening :=
  Value.depthBehind_add_countP fun inner hinner =>
    (h.opensFirst inner (hinner.trans hbefore)).trans (Nat.le_add_left _ _)

/-- A balanced text that holds its commas inside brackets is not cut, wherever it stands. -/
theorem IsBalanced.isSolid (h : IsBalanced text) (hhides : HidesCommas 0 text) :
    IsSolid 0 text := by
  intro depth _ rest
  have hbehind : depthBehind depth text = depth := by
    have hcount := h.depthBehind_add_countP List.prefix_rfl depth
    have hcloses := h.closesAll
    omega
  have hdeeper : HidesCommas depth text := by
    intro before after heq
    have hbefore : before <+: text := ⟨_, heq.symm⟩
    have hopen := hhides before after heq
    have hcount := h.depthBehind_add_countP hbefore 0
    have hdeepCount := h.depthBehind_add_countP hbefore depth
    omega
  rw [splitFrom_append hdeeper, hbehind]

section Scan

variable {stack after : List Bracket} {c : Char}

/-- A bracket that is opened or closed in a scan is counted as such. -/
theorem countP_of_step (h : Bracket.step stack c = some after) :
    [c].countP isClosing + after.length = [c].countP isOpening + stack.length := by
  rw [Bracket.step] at h
  split at h
  · rename_i bracket hopened
    obtain rfl : bracket.opening = c := by simpa using List.find?_some hopened
    cases h
    have hcount : [bracket.opening].countP isClosing = 0 ∧
        [bracket.opening].countP isOpening = 1 := by
      cases bracket <;> decide
    simp [hcount, Nat.add_comm]
  · rename_i bracket hopened hclosed
    obtain rfl : bracket.closing = c := by simpa using List.find?_some hclosed
    have hcount : [bracket.closing].countP isClosing = 1 ∧
        [bracket.closing].countP isOpening = 0 := by
      cases bracket <;> decide
    cases stack with
    | nil => simp at h
    | cons top below =>
      split at h
      · cases h
        simp [hcount, Nat.add_comm]
      · cases h
  · rename_i hopened hclosed
    cases h
    have hnotOpening : isOpening c = false := by
      rw [Bool.eq_false_iff]
      intro hopening
      obtain rfl | rfl | rfl := eq_of_isOpening hopening <;> cases hopened
    have hnotClosing : isClosing c = false := by
      rw [Bool.eq_false_iff]
      intro hclosing
      obtain rfl | rfl | rfl := eq_of_isClosing hclosing <;> cases hclosed
    simp [hnotOpening, hnotClosing]

theorem countP_of_scan (h : Bracket.scan stack text = some after) :
    text.countP isClosing + after.length = text.countP isOpening + stack.length := by
  induction text generalizing stack with
  | nil =>
    cases h
    rfl
  | cons c rest ih =>
    rw [Bracket.scan, List.foldlM_cons, Option.bind_eq_bind, Option.bind_eq_some_iff] at h
    obtain ⟨middle, hstep, hrest⟩ := h
    have hfirst := countP_of_step hstep
    have hothers := ih hrest
    rw [← List.singleton_append, List.countP_append, List.countP_append]
    omega

/-- Texts whose brackets are nested are balanced. -/
theorem isBalanced_of_isNested {text : String} (h : Text.IsNested text) :
    IsBalanced text.toList where
  opensFirst before hbefore := by
    obtain ⟨rest, hrest⟩ := hbefore
    rw [Text.IsNested, ← hrest, Bracket.scan_append, Option.bind_eq_some_iff] at h
    obtain ⟨stack, hstack, -⟩ := h
    have hcount := countP_of_scan hstack
    rw [List.length_nil] at hcount
    omega
  closesAll := by simpa using countP_of_scan h

end Scan

/-! ## Cutting and joining -/

/-- The pieces of a text that is not blank are the text again when they are joined with commas,
and every comma in a piece stands inside brackets that the piece opens.  The other way round, some
texts whose brackets are balanced, and whose commas stand inside them, are the pieces of the text
they are joined to, unless there is but a blank one. -/
theorem splitElements_laws :
    (∀ text, Text.allBlank text = false →
      [','].intercalate (splitElements text) = text ∧
        ∀ piece ∈ splitElements text, HidesCommas 0 piece) ∧
    ∀ texts, texts ≠ [] → (∀ text ∈ texts, IsBalanced text ∧ HidesCommas 0 text) →
      (∀ text, texts = [text] → Text.allBlank text = false) →
      splitElements ([','].intercalate texts) = texts := by
  constructor
  · intro text hblank
    rw [splitElements, hblank, if_neg Bool.false_ne_true]
    obtain ⟨first, others, hpieces⟩ := List.exists_cons_of_ne_nil (splitFrom_ne_nil 0 text)
    refine ⟨intercalate_splitFrom 0 text, ?_⟩
    rw [hpieces, List.forall_mem_cons]
    exact hidesCommas_of_splitFrom hpieces
  · intro texts hsome htexts hblank
    exact splitElements_pieces hsome
      (fun text hmem => (htexts text hmem).1.isSolid (htexts text hmem).2) hblank

/-- Stray brackets of different sorts in one text, and nested lists in letters of two scripts. -/
theorem splitElements_laws_of_nested_lists :
    let stray := "1),(β,c],é".toList
    let nested := ["\x7b1,2\x7d".toList, " é(β,[γ,()])".toList, []]
    Text.allBlank stray = false ∧
      splitElements stray = ["1)".toList, "(β,c]".toList, "é".toList] ∧
      [','].intercalate (splitElements stray) = stray ∧
      (∀ text ∈ nested, IsBalanced text ∧ HidesCommas 0 text) ∧
      splitElements ([','].intercalate nested) = nested := by
  intro stray nested
  have hstray : Text.allBlank stray = false := by decide
  have hnested : ∀ text ∈ nested, IsBalanced text ∧ HidesCommas 0 text := by
    simp only [nested, List.forall_mem_cons, List.not_mem_nil, false_imp_iff, implies_true,
      and_true]
    have hempty : Text.IsNested "" := by decide
    exact ⟨⟨isBalanced_of_isNested (by decide), by decide⟩,
      ⟨isBalanced_of_isNested (by decide), by decide⟩,
      ⟨isBalanced_of_isNested hempty, by decide⟩⟩
  exact ⟨hstray, by decide, (splitElements_laws.1 stray hstray).1, hnested,
    splitElements_laws.2 nested (List.cons_ne_nil _ _) hnested (by simp [nested])⟩

end MiniZincModels.Value
