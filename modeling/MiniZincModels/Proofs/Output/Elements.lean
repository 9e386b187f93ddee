import MiniZincModels.Proofs.Expr.Operand
import MiniZincModels.Proofs.Output.Folded
import MiniZincModels.Proofs.Output.Value

/-!
# Elements read on their own

Each element of a list is read as if it stood alone.  Brackets that fit each other keep
the commas of one element together, and since elements are shorter than the text around
them, the depth that is left for them is never used up.
-/

namespace MiniZincModels.Value

/-! ## Nested texts are not cut -/

theorem isOpening_eq (c : Char) : isOpening c = (Bracket.opened? c).isSome := by
  rw [Bracket.opened?, List.isSome_find?, Bool.eq_iff_iff]
  simp only [isOpening, Bracket.all, Bracket.opening, List.any_cons, List.any_nil, Bool.or_eq_true,
    decide_eq_true_eq, beq_iff_eq]
  grind

theorem isClosing_eq (c : Char) : isClosing c = (Bracket.closed? c).isSome := by
  rw [Bracket.closed?, List.isSome_find?, Bool.eq_iff_iff]
  simp only [isClosing, Bracket.all, Bracket.closing, List.any_cons, List.any_nil, Bool.or_eq_true,
    decide_eq_true_eq, beq_iff_eq]
  grind

section Nested

variable {stack after : List Bracket} {text : List Char}

/-- The depth is the number of open brackets, above those that were open before. -/
theorem depthAfter_of_step {c : Char} (h : Bracket.step stack c = some after) (below : Nat) :
    depthAfter (below + stack.length) c = below + after.length := by
  rw [depthAfter, isOpening_eq, isClosing_eq]
  rw [Bracket.step] at h
  cases hopened : Bracket.opened? c with
  | some bracket =>
    simp only [hopened, Option.some.injEq] at h
    simp [← h, Nat.add_assoc]
  | none =>
    cases hclosed : Bracket.closed? c with
    | none =>
      simp only [hopened, hclosed, Option.some.injEq] at h
      simp [h]
    | some bracket =>
      simp only [hopened, hclosed] at h
      cases stack with
      | nil => simp at h
      | cons top rest =>
        split at h
        · obtain rfl := Option.some.inj h
          simp [← Nat.add_assoc]
        · cases h

/-- A text whose brackets fit is cut only at commas outside of them. -/
theorem splitFrom_of_scan (hscan : Bracket.scan stack text = some after)
    (hcomma : ∀ before behind, text = before ++ ',' :: behind → Bracket.scan stack before ≠ some [])
    (below : Nat) (rest : List Char) :
    splitFrom (below + stack.length) (text ++ rest) =
      attach text (splitFrom (below + after.length) rest) := by
  induction text generalizing stack with
  | nil =>
    cases hscan
    have hnil : IsSolid 0 [] := isSolid_nil
    exact hnil _ (Nat.zero_le _) rest
  | cons c text ih =>
    rw [Bracket.scan, List.foldlM_cons, Option.bind_eq_bind, Option.bind_eq_some_iff] at hscan
    obtain ⟨middle, hstep, hscan⟩ := hscan
    have hnot : ¬ (c = ',' ∧ below + stack.length = 0) := by
      rintro ⟨rfl, hdepth⟩
      have hstack : stack = [] := List.eq_nil_of_length_eq_zero (by omega)
      exact hcomma [] text rfl (congrArg some hstack)
    have hinner : ∀ before behind, text = before ++ ',' :: behind →
        Bracket.scan middle before ≠ some [] := by
      rintro before behind rfl
      rw [← Bracket.scan_cons_of_eq hstep]
      exact hcomma (c :: before) behind rfl
    rw [List.cons_append, splitFrom_cons hnot, depthAfter_of_step hstep, ih hscan hinner,
      ← attach_append]
    rfl

/-- A nested text without commas outside its brackets is cut nowhere. -/
theorem isSolid_of_isNested {text : String} (hnested : Text.IsNested text)
    (hcomma : ¬ Text.OccursOutside ',' text) : IsSolid 0 text.toList := by
  intro depth _ rest
  apply splitFrom_of_scan hnested
  intro before behind htext hbefore
  exact hcomma ⟨before, behind, htext, hbefore⟩

end Nested

/-! ## Parts are shorter than the whole -/

section Lengths

variable {text inner list piece padded : List Char} {depth : Nat}

theorem length_le_of_mem_attach {pieces : List (List Char)} {bound : Nat}
    (hpieces : ∀ piece ∈ pieces, piece.length ≤ bound) :
    ∀ piece ∈ attach text pieces, piece.length ≤ text.length + bound := by
  cases pieces with
  | nil => simp [attach]
  | cons first rest =>
    rw [List.forall_mem_cons] at hpieces
    rw [attach, List.forall_mem_cons, List.length_append]
    refine ⟨by omega, fun piece hmem => ?_⟩
    have hpiece := hpieces.2 piece hmem
    omega

theorem length_le_of_mem_splitFrom :
    ∀ piece ∈ splitFrom depth text, piece.length ≤ text.length := by
  induction text generalizing depth with
  | nil => simp [splitFrom]
  | cons c rest ih =>
    by_cases hc : c = ',' ∧ depth = 0
    · rw [splitFrom, if_pos hc, List.forall_mem_cons]
      refine ⟨Nat.zero_le _, fun piece hmem => ?_⟩
      exact Nat.le_succ_of_le (ih piece hmem)
    · rw [splitFrom_cons hc, List.length_cons, Nat.add_comm]
      exact length_le_of_mem_attach ih

theorem length_le_of_mem_splitElements :
    ∀ piece ∈ splitElements text, piece.length ≤ text.length := by
  rw [splitElements]
  split
  · simp
  · exact length_le_of_mem_splitFrom

theorem length_lt_of_enclosed? {opening closing : Char}
    (h : enclosed? opening closing text = some inner) : inner.length < text.length := by
  cases text with
  | nil => cases h
  | cons first rest =>
    rw [enclosed?] at h
    split at h
    · obtain rfl := Option.some.inj h
      rw [List.length_dropLast, List.length_cons]
      omega
    · cases h

theorem length_lt_of_foldedList? (h : foldedList? text = some list) :
    list.length < text.length := by
  obtain ⟨array, rfl, rfl⟩ := exists_foldedArray h
  exact array.length_list_lt

end Lengths

/-! ## The depth that is left -/

section Depth

variable {depth other : Nat} {padded text : List Char}

/-- How a text is read depends on how shorter texts are read. -/
theorem readNested_succ_congr
    (h : ∀ shorter : List Char, shorter.length < padded.length →
      readNested depth shorter = readNested other shorter) :
    readNested (depth + 1) padded = readNested (other + 1) padded := by
  have htrim := Text.length_trim_le padded
  rw [readNested, readNested]
  cases hsquare : enclosed? '[' ']' (Text.trim padded) with
  | some inner =>
    have hinner := length_lt_of_enclosed? hsquare
    have helements : (splitElements inner).mapM (readNested depth) =
        (splitElements inner).mapM (readNested other) := by
      refine Outcome.mapM_congr fun piece hmem => h piece ?_
      have hpiece := length_le_of_mem_splitElements piece hmem
      omega
    simp only [helements]
  | none =>
    cases hfolded : foldedList? (Text.trim padded) with
    | some list =>
      have hlist := length_lt_of_foldedList? hfolded
      simp only [h list (by omega)]
    | none => rfl

/-- All depths above the length of a text read it in the same way. -/
theorem readNested_eq_readNested (hdepth : text.length < depth) (hother : text.length < other) :
    readNested depth text = readNested other text := by
  induction depth generalizing other text with
  | zero => omega
  | succ depth ih =>
    cases other with
    | zero => omega
    | succ other => exact readNested_succ_congr fun shorter hshorter => ih (by omega) (by omega)

theorem readNested_eq_read (hdepth : text.length < depth) : readNested depth text = read text :=
  readNested_eq_readNested hdepth (Nat.lt_succ_self _)

/-- Blanks around a text do not change what is read. -/
theorem read_eq_of_trim {left right : List Char} (h : Text.trim left = Text.trim right) :
    read left = read right := by
  let depth := left.length + right.length
  calc read left = readNested (depth + 1) left := (readNested_eq_read (by omega)).symm
    _ = readNested (depth + 1) right := by rw [readNested, readNested, h]
    _ = read right := readNested_eq_read (by omega)

/-- A list in square brackets is read by reading each of its elements on its own. -/
theorem read_square {inner : List Char} (htrim : Text.trim text = '[' :: (inner ++ [']'])) :
    read text = ((splitElements inner).mapM read).map array := by
  have hlength := Text.length_trim_le text
  rw [htrim, List.length_cons, List.length_append] at hlength
  rw [read, readNested_square htrim (enclosed?_append _ _ _)]
  refine congrArg (Except.map array) (Outcome.mapM_congr fun piece hmem => readNested_eq_read ?_)
  have hpiece := length_le_of_mem_splitElements piece hmem
  omega

theorem read_list {texts : List String} (htexts : ∀ text ∈ texts, IsSolid 0 text.toList)
    (hblank : ∀ text, texts = [text] → Text.allBlank text.toList = false) :
    read ("[" ++ ",".intercalate texts ++ "]").toList =
      (texts.mapM fun text => read text.toList).map array := by
  have htext : ("[" ++ ",".intercalate texts ++ "]").toList =
      '[' :: ((",".intercalate texts).toList ++ [']']) := by
    simp
  have htight : Text.IsTight ('[' :: ((",".intercalate texts).toList ++ [']'])) :=
    Text.isTight_enclosed (by decide) (by decide)
  rw [htext, read_square (Text.trim_eq_self htight), splitElements_intercalate htexts hblank,
    List.mapM_map]
  rfl

end Depth

end MiniZincModels.Value
