import MiniZincModels.Output.Reader
import MiniZincModels.Proofs.Text.Blank

/-!
# Splitting lists of elements

A list is cut at its commas outside brackets.  A text that closes the brackets it
opens and holds its commas inside them is not cut, so elements of this form are
found again in the list that they were joined to.
-/

namespace MiniZincModels.Value

/-- Puts a text in front of the first piece. -/
def attach (text : List Char) : List (List Char) → List (List Char)
  | [] => [text]
  | piece :: pieces => (text ++ piece) :: pieces

theorem attach_append (left right : List Char) (pieces : List (List Char)) :
    attach (left ++ right) pieces = attach left (attach right pieces) := by
  cases pieces with
  | nil => rfl
  | cons piece pieces => rw [attach, attach, attach, List.append_assoc]

theorem splitFrom_cons {depth : Nat} {c : Char} (hc : ¬ (c = ',' ∧ depth = 0))
    (rest : List Char) :
    splitFrom depth (c :: rest) = attach [c] (splitFrom (depthAfter depth c) rest) := by
  rw [splitFrom, if_neg hc]
  cases splitFrom (depthAfter depth c) rest with
  | nil => rfl
  | cons piece pieces => rfl

theorem splitFrom_ne_nil (depth : Nat) (text : List Char) : splitFrom depth text ≠ [] := by
  cases text with
  | nil => simp [splitFrom]
  | cons c rest =>
    by_cases hc : c = ',' ∧ depth = 0
    · rw [splitFrom, if_pos hc]
      exact List.cons_ne_nil _ _
    · rw [splitFrom_cons hc]
      cases splitFrom (depthAfter depth c) rest with
      | nil => exact List.cons_ne_nil _ _
      | cons piece pieces => exact List.cons_ne_nil _ _

/-- A text that is cut nowhere if it starts at a depth of `level` or more, and behind
which the depth is what it was before. -/
def IsSolid (level : Nat) (text : List Char) : Prop :=
  ∀ depth, level ≤ depth → ∀ rest,
    splitFrom depth (text ++ rest) = attach text (splitFrom depth rest)

section Solid

variable {level : Nat} {text left right : List Char}

theorem isSolid_nil : IsSolid level [] := by
  intro depth _ rest
  cases hpieces : splitFrom depth rest with
  | nil => exact absurd hpieces (splitFrom_ne_nil depth rest)
  | cons piece pieces => rw [List.nil_append, hpieces, attach, List.nil_append]

theorem IsSolid.append (hleft : IsSolid level left) (hright : IsSolid level right) :
    IsSolid level (left ++ right) := by
  intro depth hdepth rest
  rw [List.append_assoc, hleft depth hdepth, hright depth hdepth, attach_append]

theorem IsSolid.mono (h : IsSolid level text) {higher : Nat} (hle : level ≤ higher) :
    IsSolid higher text :=
  fun depth hdepth rest => h depth (Nat.le_trans hle hdepth) rest

theorem isSolid_of_forall
    (h : ∀ c ∈ text, c ≠ ',' ∧ isOpening c = false ∧ isClosing c = false) :
    IsSolid level text := by
  induction text with
  | nil => exact isSolid_nil
  | cons c text ih =>
    rw [List.forall_mem_cons] at h
    obtain ⟨⟨hcomma, hopening, hclosing⟩, htext⟩ := h
    intro depth hdepth rest
    have hdepthAfter : depthAfter depth c = depth := by
      simp [depthAfter, hopening, hclosing]
    rw [List.cons_append, splitFrom_cons (by simp [hcomma]), hdepthAfter,
      ih htext depth hdepth rest, ← attach_append]
    rfl

theorem isSolid_of_allBlank (h : Text.allBlank text = true) : IsSolid level text := by
  have hmarks : ∀ mark ∈ [',', '(', '[', '\x7b', ')', ']', '\x7d'], Text.isBlank mark = false := by
    decide
  refine isSolid_of_forall fun c hc => ?_
  have hne : ∀ mark ∈ [',', '(', '[', '\x7b', ')', ']', '\x7d'], c ≠ mark := fun mark hmark =>
    Text.ne_of_isBlank (List.all_eq_true.mp h c hc) (hmarks mark hmark)
  simpa [isOpening, isClosing, and_assoc] using hne

/-- Inside brackets a comma does not cut. -/
theorem isSolid_comma : IsSolid 1 [','] := by
  intro depth hdepth rest
  rw [List.singleton_append, splitFrom_cons (by omega)]
  rfl

theorem isSolid_enclosed {opening closing : Char} (hopening : isOpening opening = true)
    (hclosing : isClosing closing = true) (hcomma : opening ≠ ',' ∧ closing ≠ ',')
    (hnot : isOpening closing = false) (h : IsSolid 1 text) :
    IsSolid 0 (opening :: (text ++ [closing])) := by
  intro depth _ rest
  have hopened : depthAfter depth opening = depth + 1 := by
    simp [depthAfter, hopening]
  have hclosed : depthAfter (depth + 1) closing = depth := by
    simp [depthAfter, hnot, hclosing]
  calc splitFrom depth (opening :: (text ++ [closing]) ++ rest)
      = splitFrom depth (opening :: (text ++ closing :: rest)) := by simp
    _ = attach [opening] (splitFrom (depth + 1) (text ++ closing :: rest)) := by
        rw [splitFrom_cons (by simp [hcomma.1]), hopened]
    _ = attach [opening] (attach text (splitFrom (depth + 1) (closing :: rest))) := by
        rw [h (depth + 1) (by omega)]
    _ = attach [opening] (attach text (attach [closing] (splitFrom depth rest))) := by
        rw [splitFrom_cons (by simp [hcomma.2]), hclosed]
    _ = attach (opening :: (text ++ [closing])) (splitFrom depth rest) := by
        rw [← attach_append, ← attach_append]
        rfl

end Solid

section Joined

variable {pieces : List (List Char)} {texts : List String}

theorem toList_joined_cons_cons (first second : String) (rest : List String) :
    (", ".intercalate (first :: second :: rest)).toList =
      first.toList ++ ',' :: ' ' :: (", ".intercalate (second :: rest)).toList := by
  rw [String.intercalate_cons_cons, String.toList_append, String.toList_append]
  simp

theorem isSolid_joined (htexts : ∀ text ∈ texts, IsSolid 0 text.toList) :
    IsSolid 1 (", ".intercalate texts).toList := by
  induction texts with
  | nil => exact isSolid_nil
  | cons first rest ih =>
    rw [List.forall_mem_cons] at htexts
    have hfirst : IsSolid 1 first.toList := htexts.1.mono (by omega)
    cases rest with
    | nil => simpa using hfirst
    | cons second rest =>
      have hblank : IsSolid 1 [' '] := isSolid_of_allBlank (by decide)
      rw [toList_joined_cons_cons]
      exact hfirst.append (isSolid_comma.append (hblank.append (ih htexts.2)))

theorem toList_intercalate_cons_cons (first second : String) (rest : List String) :
    (",".intercalate (first :: second :: rest)).toList =
      first.toList ++ ',' :: (",".intercalate (second :: rest)).toList := by
  rw [String.intercalate_cons_cons, String.toList_append, String.toList_append]
  simp

/-- Pieces with commas between them are cut at these commas and nowhere else. -/
theorem splitFrom_pieces (hsome : pieces ≠ []) (hpieces : ∀ piece ∈ pieces, IsSolid 0 piece) :
    splitFrom 0 ([','].intercalate pieces) = pieces := by
  induction pieces with
  | nil => exact absurd rfl hsome
  | cons first rest ih =>
    rw [List.forall_mem_cons] at hpieces
    cases rest with
    | nil => simpa [splitFrom, attach] using hpieces.1 0 (Nat.le_refl 0) []
    | cons second rest =>
      have hcut (after : List Char) : splitFrom 0 (',' :: after) = [] :: splitFrom 0 after := by
        rw [splitFrom, if_pos ⟨rfl, rfl⟩]
      rw [List.intercalate_cons_cons, List.append_assoc, hpieces.1 0 (Nat.le_refl 0),
        List.singleton_append, hcut, ih (List.cons_ne_nil _ _) hpieces.2, attach, List.append_nil]

/-- The commas between pieces are found again, whatever the pieces are, unless there is but a
blank one. -/
theorem splitElements_pieces (hsome : pieces ≠ []) (hpieces : ∀ piece ∈ pieces, IsSolid 0 piece)
    (hblank : ∀ piece, pieces = [piece] → Text.allBlank piece = false) :
    splitElements ([','].intercalate pieces) = pieces := by
  have hnot : Text.allBlank ([','].intercalate pieces) = false := by
    obtain ⟨first, rest, rfl⟩ := List.exists_cons_of_ne_nil hsome
    cases rest with
    | nil => simpa using hblank first rfl
    | cons second rest =>
      have hcomma : Text.isBlank ',' = false := by decide
      rw [List.intercalate_cons_cons, Text.allBlank, List.all_append, List.all_append,
        List.all_cons, hcomma, Bool.false_and, Bool.and_false, Bool.false_and]
  rw [splitElements, hnot]
  exact splitFrom_pieces hsome hpieces

theorem splitElements_intercalate (htexts : ∀ text ∈ texts, IsSolid 0 text.toList)
    (hblank : ∀ text, texts = [text] → Text.allBlank text.toList = false) :
    splitElements (",".intercalate texts).toList = texts.map String.toList := by
  cases texts with
  | nil => rfl
  | cons first rest =>
    have hcomma : ",".toList = [','] := rfl
    rw [String.toList_intercalate, hcomma]
    refine splitElements_pieces (by simp) (List.forall_mem_map.mpr htexts) fun piece heq => ?_
    obtain ⟨rfl, hrest⟩ := List.cons.inj heq
    rw [List.map_eq_nil_iff] at hrest
    exact hblank first (by rw [hrest])

theorem joined_eq_intercalate (first : String) (rest : List String) :
    ", ".intercalate (first :: rest) = ",".intercalate (first :: rest.map (" " ++ ·)) := by
  induction rest generalizing first with
  | nil => simp
  | cons second rest ih =>
    apply String.toList_inj.mp
    rw [toList_joined_cons_cons, ih, List.map_cons, toList_intercalate_cons_cons]
    cases rest <;> simp

/-- The pieces into which joined texts are cut, each but the first one behind a blank. -/
def joinedPieces : List String → List (List Char)
  | [] => []
  | first :: rest => first.toList :: rest.map fun text => ' ' :: text.toList

/-- Joined texts, none of which is blank, are found again. -/
theorem splitElements_joined (htexts : ∀ text ∈ texts, IsSolid 0 text.toList)
    (hblank : ∀ text ∈ texts, Text.allBlank text.toList = false) :
    splitElements (", ".intercalate texts).toList = joinedPieces texts := by
  cases texts with
  | nil => rfl
  | cons first rest =>
    have hspace : IsSolid 0 [' '] := isSolid_of_allBlank (by decide)
    rw [List.forall_mem_cons] at htexts
    rw [joined_eq_intercalate, splitElements_intercalate]
    · simp [joinedPieces]
    · rw [List.forall_mem_cons, List.forall_mem_map]
      refine ⟨htexts.1, fun text hmem => ?_⟩
      rw [String.toList_append]
      exact hspace.append (htexts.2 text hmem)
    · intro text heq
      obtain ⟨rfl, -⟩ := List.cons.inj heq
      exact hblank first List.mem_cons_self

end Joined

end MiniZincModels.Value
