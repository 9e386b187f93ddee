import MiniZincModels.Proofs.Output.Elements

/-!
# Layout of values

Blanks behind commas do not change what a value is read as, with one exception: the list of an
array of several dimensions is not found if there is a line feed in it.  So a text with gaps is
read as the text without them, or it is refused because of a broken list, in itself or in one of
its elements.
-/

namespace MiniZincModels.Value

open Text (closeGaps closeGapsFrom markBreaks trim)

/-! ## Cutting at commas -/

section Splitting

variable {depth : Nat} {keep : Bool} {place : Text.Place} {text piece : List Char}
variable {pieces : List (List Char)}

theorem depthAfter_of_isBlank {c : Char} (hc : Text.isBlank c = true) (depth : Nat) :
    depthAfter depth c = depth := by
  have hmarks : ∀ mark ∈ ['(', '[', '\x7b', ')', ']', '\x7d'], c ≠ mark := fun mark hmark =>
    Text.ne_of_isBlank hc ((by decide : ∀ mark ∈ ['(', '[', '\x7b', ')', ']', '\x7d'],
      Text.isBlank mark = false) mark hmark)
  simp only [List.forall_mem_cons] at hmarks
  simp [depthAfter, isOpening, isClosing, hmarks]

/-- The pieces of a text without gaps are the pieces of the text, each but the first one with its
gap in front. -/
theorem splitFrom_closeGapsFrom (h : splitFrom depth text = piece :: pieces) :
    splitFrom depth (closeGapsFrom keep place text) =
      closeGapsFrom keep place piece :: pieces.map (closeGapsFrom keep .gap) := by
  induction text generalizing depth place piece pieces with
  | nil =>
    obtain ⟨rfl, rfl⟩ := List.cons.inj h
    rw [Text.closeGapsFrom_nil]
    rfl
  | cons c rest ih =>
    by_cases hcut : c = ',' ∧ depth = 0
    · obtain ⟨rfl, rfl⟩ := hcut
      rw [splitFrom, if_pos ⟨rfl, rfl⟩] at h
      obtain ⟨rfl, rfl⟩ := List.cons.inj h
      obtain ⟨first, others, hrest⟩ := List.exists_cons_of_ne_nil (splitFrom_ne_nil 0 rest)
      rw [Text.closeGapsFrom_cons (by decide), splitFrom, if_pos ⟨rfl, rfl⟩, ih hrest, hrest,
        Text.closeGapsFrom_nil]
      rfl
    · obtain ⟨first, others, hrest⟩ :=
        List.exists_cons_of_ne_nil (splitFrom_ne_nil (depthAfter depth c) rest)
      rw [splitFrom_cons hcut, hrest, attach] at h
      obtain ⟨rfl, rfl⟩ := List.cons.inj h
      by_cases hc : Text.isBlank c = true
      · obtain ⟨shown, next, hshown, heq⟩ := Text.exists_closeGapsFrom_cons hc keep place
        rw [depthAfter_of_isBlank hc] at hrest
        have hblank : Text.allBlank shown = true := by
          rcases hshown with rfl | rfl <;> simp [Text.allBlank, hc]
        have hsolid : IsSolid 0 shown := isSolid_of_allBlank hblank
        rw [heq, hsolid depth (Nat.zero_le depth), ih hrest, List.singleton_append, heq, attach]
      · have hc : Text.isBlank c = false := by simpa using hc
        rw [Text.closeGapsFrom_cons hc, splitFrom_cons hcut, ih hrest, List.singleton_append,
          Text.closeGapsFrom_cons hc]
        rfl

/-- Up to the blanks around them, the elements of a list are its elements without their gaps. -/
theorem map_trim_splitElements (keep : Bool) (text : List Char) :
    (splitElements (closeGapsFrom keep .outside text)).map trim =
      (splitElements text).map fun piece => trim (closeGapsFrom keep .outside piece) := by
  rw [splitElements, splitElements, Text.allBlank_closeGapsFrom]
  split
  · rfl
  · obtain ⟨first, others, heq⟩ := List.exists_cons_of_ne_nil (splitFrom_ne_nil 0 text)
    rw [splitFrom_closeGapsFrom heq, heq, List.map_cons, List.map_cons, List.map_map]
    congr 1
    refine List.map_congr_left fun piece _ => ?_
    rw [Function.comp_apply, Text.trim_closeGapsFrom, Text.trim_closeGapsFrom]

end Splitting

/-! ## Texts that are no scalars -/

section Marks

variable {mark : Char} {text : List Char}

theorem mem_splitSign (hmark : mark ∈ [',', '(']) (h : mark ∈ text) :
    mark ∈ (Text.splitSign text).2 := by
  have hsigns : mark ≠ '-' ∧ mark ≠ '+' :=
    (by decide : ∀ mark ∈ [',', '('], mark ≠ '-' ∧ mark ≠ '+') mark hmark
  rw [Text.splitSign.eq_def]
  split
  · exact (List.mem_cons.mp h).resolve_left hsigns.1
  · exact (List.mem_cons.mp h).resolve_left hsigns.2
  · exact h

theorem readNatural?_of_mark (hmark : mark ∈ [',', '(']) (h : mark ∈ text) :
    Text.readNatural? text = none := by
  have hdigit : mark.isDigit = false :=
    (by decide : ∀ mark ∈ [',', '('], mark.isDigit = false) mark hmark
  rw [Text.readNatural?, if_neg]
  rintro ⟨-, hall⟩
  rw [List.all_eq_true.mp hall mark h] at hdigit
  cases hdigit

theorem readInteger?_of_mark (hmark : mark ∈ [',', '(']) (h : mark ∈ text) :
    Text.readInteger? text = none := by
  rw [Text.readInteger?]
  simp only [readNatural?_of_mark hmark (mem_splitSign hmark h)]

/-- A mark stands behind every run of other characters. -/
theorem mem_dropWhile_of_mark {p : Char → Bool} (hmark : p mark = false) (h : mark ∈ text) :
    mark ∈ text.dropWhile p := by
  rw [← List.takeWhile_append_dropWhile (p := p) (l := text), List.mem_append] at h
  refine h.resolve_left fun hmem => ?_
  rw [List.mem_takeWhile_imp hmem] at hmark
  cases hmark

theorem readExponent?_of_mark (hmark : mark ∈ [',', '(']) (h : mark ∈ text) :
    Binary64.readExponent? text = none := by
  rw [Binary64.readExponent?]
  simp only [readNatural?_of_mark hmark (mem_splitSign hmark h)]
  rfl

theorem readDecimal?_of_mark (hmark : mark ∈ [',', '(']) (h : mark ∈ text) (negative : Bool) :
    Binary64.readDecimal? negative text = none := by
  obtain ⟨hdigit, hpoint, hletter⟩ :=
    (by decide : ∀ mark ∈ [',', '('], mark.isDigit = false ∧ mark ≠ '.' ∧ mark ≠ 'e' ∧ mark ≠ 'E')
      mark hmark
  have hwhole := mem_dropWhile_of_mark hdigit h
  have hfraction : ∀ rest, text.dropWhile Char.isDigit = '.' :: rest →
      mark ∈ rest.dropWhile Char.isDigit := by
    intro rest hrest
    rw [hrest, List.mem_cons] at hwhole
    exact mem_dropWhile_of_mark hdigit (hwhole.resolve_left hpoint)
  fun_cases Binary64.readDecimal? negative text with
  | case1 => rfl
  | case2 whole afterWhole fraction digits _ hend =>
    have hafter : afterWhole = text.dropWhile Char.isDigit := rfl
    clear_value afterWhole
    split at hend
    · cases (Prod.mk.inj hend).2 ▸ hfraction _ hafter.symm
    · cases (Prod.mk.inj hend).2 ▸ hafter ▸ hwhole
  | case3 whole afterWhole fraction digits _ letter rest hexponent hend =>
    have hmem : mark ∈ letter :: rest := by
      have hafter : afterWhole = text.dropWhile Char.isDigit := rfl
      clear_value afterWhole
      split at hend
      · exact (Prod.mk.inj hend).2 ▸ hfraction _ hafter.symm
      · exact (Prod.mk.inj hend).2 ▸ hafter ▸ hwhole
    have hne : mark ≠ letter := by
      rintro rfl
      exact hexponent.elim hletter.1 hletter.2
    rw [readExponent?_of_mark hmark ((List.mem_cons.mp hmem).resolve_left hne)]
    rfl
  | case4 => rfl

theorem read?_of_mark (hmark : mark ∈ [',', '(']) (h : mark ∈ text) :
    Binary64.read? text = none := by
  have hlower : mark.toLower = mark :=
    (by decide : ∀ mark ∈ [',', '('], mark.toLower = mark) mark hmark
  have hmem : mark ∈ (Text.splitSign text).2.map Char.toLower :=
    List.mem_map.mpr ⟨mark, mem_splitSign hmark h, hlower⟩
  have hword : ∀ word ∈ [['i', 'n', 'f'], ['i', 'n', 'f', 'i', 'n', 'i', 't', 'y'],
      ['n', 'a', 'n']], (Text.splitSign text).2.map Char.toLower ≠ word := by
    intro word hw heq
    have hmarks : ∀ mark ∈ [',', '('], ∀ word ∈ [['i', 'n', 'f'],
        ['i', 'n', 'f', 'i', 'n', 'i', 't', 'y'], ['n', 'a', 'n']], mark ∉ word := by
      decide
    exact hmarks mark hmark word hw (heq ▸ hmem)
  simp only [List.forall_mem_cons] at hword
  rw [Binary64.read?]
  simp only [hword.1, hword.2.1, hword.2.2.1, or_self, if_false]
  exact readDecimal?_of_mark hmark (mem_splitSign hmark h) _

theorem takeBound?_of_mark {bound after : List Char} (hmark : mark ∈ [',', '(']) (h : mark ∈ text)
    (hbound : takeBound? text = some (bound, after)) : mark ∈ after := by
  have hdigit : Text.isDecimalDigit mark = false :=
    (by decide : ∀ mark ∈ [',', '('], Text.isDecimalDigit mark = false) mark hmark
  have hsign : mark ≠ '-' := (by decide : ∀ mark ∈ [',', '('], mark ≠ '-') mark hmark
  have hafter : ∀ unsigned sign : List Char, mark ∈ unsigned →
      (if (unsigned.takeWhile Text.isDecimalDigit).isEmpty then none
        else some (sign ++ unsigned.takeWhile Text.isDecimalDigit,
          unsigned.dropWhile Text.isDecimalDigit)) = some (bound, after) → mark ∈ after := by
    intro unsigned sign hmem heq
    split at heq
    · cases heq
    · obtain ⟨-, rfl⟩ := Prod.mk.inj (Option.some.inj heq)
      exact mem_dropWhile_of_mark hdigit hmem
  cases text with
  | nil => cases h
  | cons c rest =>
    by_cases hc : c = '-'
    · subst hc
      exact hafter rest ['-'] ((List.mem_cons.mp h).resolve_left hsign) hbound
    · rw [takeBound?] at hbound
      · exact hafter (c :: rest) [] h hbound
      · rintro _ ⟨⟩
        exact hc rfl

theorem rangeBounds?_of_mark (hmark : mark ∈ [',', '(']) (h : mark ∈ text) :
    rangeBounds? text = none := by
  have hblank : Text.isBlank mark = false :=
    (by decide : ∀ mark ∈ [',', '('], Text.isBlank mark = false) mark hmark
  have hpoint : mark ∉ ['.', '.'] := (by decide : ∀ mark ∈ [',', '('], mark ∉ ['.', '.']) mark hmark
  rw [Option.eq_none_iff_forall_ne_some]
  intro bounds hbounds
  simp only [rangeBounds?, Option.bind_eq_bind, Option.bind_eq_some_iff] at hbounds
  obtain ⟨⟨lower, afterLower⟩, hlower, afterDots, hdots, ⟨upper, afterUpper⟩, hupper, hend⟩ :=
    hbounds
  have hafterLower := mem_dropWhile_of_mark hblank (takeBound?_of_mark hmark h hlower)
  have hafterDots : mark ∈ afterDots := by
    have hsplit := Text.eq_append_of_afterStart? hdots
    rw [Text.trimStart] at hsplit
    rw [hsplit, List.mem_append] at hafterLower
    exact hafterLower.resolve_left hpoint
  have hafterUpper := takeBound?_of_mark hmark (mem_dropWhile_of_mark hblank hafterDots) hupper
  split at hend
  · rename_i hempty
    obtain rfl : afterUpper = [] := List.isEmpty_iff.mp hempty
    cases hafterUpper
  · cases hend

/-- A text with a comma or a parenthesis in it is no scalar, so outside brackets it is read as the
list that it folds. -/
theorem read_of_mark (hmark : mark ∈ [',', '(']) (h : mark ∈ text)
    (hcurly : enclosed? '\x7b' '\x7d' (trim text) = none)
    (hsquare : enclosed? '[' ']' (trim text) = none) :
    read text =
      match foldedList? (trim text) with
      | some list => read list
      | none => .error (.unrecognised (trim text)) := by
  have hblank : Text.isBlank mark = false :=
    (by decide : ∀ mark ∈ [',', '('], Text.isBlank mark = false) mark hmark
  have hmem := Text.mem_trim hblank h
  have hword : ∀ word ∈ [['t', 'r', 'u', 'e'], ['f', 'a', 'l', 's', 'e']], trim text ≠ word := by
    intro word hword heq
    have hmarks : ∀ mark ∈ [',', '('], ∀ word ∈ [['t', 'r', 'u', 'e'],
        ['f', 'a', 'l', 's', 'e']], mark ∉ word := by
      decide
    exact hmarks mark hmark word hword (heq ▸ hmem)
  simp only [List.forall_mem_cons] at hword
  have htrim := Text.length_trim_le text
  rw [read, readNested, if_neg hword.1, if_neg hword.2.1, readInteger?_of_mark hmark hmem]
  simp only [read?_of_mark hmark hmem, rangeBounds?_of_mark hmark hmem, hcurly, hsquare]
  cases hfolded : foldedList? (trim text) with
  | some list =>
    have hlist := length_lt_of_foldedList? hfolded
    exact readNested_eq_read (by omega)
  | none => rfl

end Marks

/-! ## Brackets -/

section Brackets

variable {opening closing : Char} {text inner : List Char} {keep : Bool} {place : Text.Place}

theorem enclosed?_eq_some_iff :
    enclosed? opening closing text = some inner ↔ text = opening :: (inner ++ [closing]) := by
  constructor
  · intro h
    cases text with
    | nil => cases h
    | cons first rest =>
      rw [enclosed?] at h
      split at h
      · rename_i hends
        obtain rfl := Option.some.inj h
        obtain ⟨front, rfl⟩ := List.getLast?_eq_some_iff.mp hends.2
        rw [hends.1, List.dropLast_concat]
      · cases h
  · rintro rfl
    exact enclosed?_append opening closing inner

/-- Closing the gaps of a text closes those between its brackets. -/
theorem enclosed?_closeGapsFrom (hopening : Text.isBlank opening = false ∧ opening ≠ ',')
    (hclosing : Text.isBlank closing = false ∧ closing ≠ ',') (keep : Bool) (text : List Char) :
    enclosed? opening closing (closeGapsFrom keep .outside text) =
      (enclosed? opening closing text).map (closeGapsFrom keep .outside) := by
  refine Option.ext fun found => ?_
  rw [Option.map_eq_some_iff, enclosed?_eq_some_iff]
  constructor
  · intro h
    rw [← List.nil_append (opening :: _)] at h
    obtain ⟨first, rest, rfl, hfirst, h⟩ := Text.exists_of_closeGapsFrom_eq_cut hopening h
    obtain ⟨inner, last, rfl, hinner, hlast⟩ := Text.exists_of_closeGapsFrom_eq_cut hclosing h
    obtain rfl : first = [] := Text.eq_of_closeGapsFrom_eq List.not_mem_nil hfirst
    obtain rfl : last = [] := Text.eq_of_closeGapsFrom_eq List.not_mem_nil hlast
    exact ⟨inner, enclosed?_append opening closing inner, hinner⟩
  · rintro ⟨inner, hinner, rfl⟩
    rw [enclosed?_eq_some_iff.mp hinner, ← List.nil_append (opening :: _),
      Text.closeGapsFrom_cut hopening, Text.closeGapsFrom_cut hclosing, Text.closeGapsFrom_nil]
    rfl

theorem trim_closeGapsFrom_enclosed (hopening : Text.isBlank opening = false ∧ opening ≠ ',')
    (hclosing : Text.isBlank closing = false ∧ closing ≠ ',')
    (htext : trim text = opening :: (inner ++ [closing])) :
    trim (closeGapsFrom keep place text) =
      opening :: (closeGapsFrom keep .outside inner ++ [closing]) := by
  rw [Text.trim_closeGapsFrom, ← enclosed?_eq_some_iff, enclosed?_closeGapsFrom hopening hclosing,
    enclosed?_eq_some_iff.mpr htext]
  rfl

end Brackets

/-! ## Broken lists -/

/-- A text that folds a list with a line feed in it, or a list with such an element. -/
inductive BreaksFold : List Char → Prop
  | folded {text : List Char} (array : FoldedArray) (htext : trim text = array.text)
      (hbreak : '\n' ∈ array.inner) : BreaksFold text
  | element {text inner piece : List Char} (htext : trim text = '[' :: (inner ++ [']']))
      (hpiece : piece ∈ splitElements inner) (hbreaks : BreaksFold piece) : BreaksFold text

section BreaksFold

variable {text other inner piece : List Char} {array : FoldedArray} {c : Char}

/-- Blanks around a text do not break it. -/
theorem breaksFold_congr (h : trim text = trim other) : BreaksFold text ↔ BreaksFold other := by
  have hmono : ∀ {left right : List Char}, trim left = trim right → BreaksFold left →
      BreaksFold right := by
    intro left right heq hbreaks
    cases hbreaks with
    | folded array htext hbreak => exact .folded array (heq ▸ htext) hbreak
    | element htext hpiece hbreaks => exact .element (heq ▸ htext) hpiece hbreaks
  exact ⟨hmono h, hmono h.symm⟩

theorem breaksFold_folded_iff (htext : trim text = array.text) :
    BreaksFold text ↔ '\n' ∈ array.inner := by
  refine ⟨fun h => ?_, .folded array htext⟩
  cases h with
  | folded other hother hbreak =>
    by_contra hinner
    have hfound := array.foldedList?_text
    rw [if_neg hinner, ← htext, hother, other.foldedList?_text, if_pos hbreak] at hfound
    cases hfound
  | element hother _ _ => cases htext.symm.trans hother

theorem breaksFold_list_iff (htext : trim text = '[' :: (inner ++ [']'])) :
    BreaksFold text ↔ ∃ piece ∈ splitElements inner, BreaksFold piece := by
  refine ⟨fun h => ?_, fun ⟨_, hpiece, hbreaks⟩ => .element htext hpiece hbreaks⟩
  cases h with
  | folded array hother _ => cases htext.symm.trans hother
  | element hother hpiece hbreaks =>
    have hends := htext.symm.trans hother
    rw [List.cons.injEq, List.append_cancel_right_eq] at hends
    exact ⟨_, hends.2 ▸ hpiece, hbreaks⟩

theorem not_breaksFold_of_curly (htext : trim text = '\x7b' :: inner) : ¬ BreaksFold text := by
  intro h
  cases h with
  | folded array hother _ => cases htext.symm.trans hother
  | element hother _ _ => cases htext.symm.trans hother

theorem mem_of_mem_splitFrom {depth : Nat} (hpiece : piece ∈ splitFrom depth text)
    (hc : c ∈ piece) : c ∈ text := by
  induction text generalizing depth piece with
  | nil =>
    obtain rfl := List.mem_singleton.mp hpiece
    exact hc
  | cons first rest ih =>
    by_cases hcut : first = ',' ∧ depth = 0
    · rw [splitFrom, if_pos hcut, List.mem_cons] at hpiece
      rcases hpiece with rfl | hpiece
      · cases hc
      · exact List.mem_cons_of_mem _ (ih hpiece hc)
    · obtain ⟨head, others, hrest⟩ :=
        List.exists_cons_of_ne_nil (splitFrom_ne_nil (depthAfter depth first) rest)
      rw [splitFrom_cons hcut, hrest, attach, List.mem_cons] at hpiece
      rcases hpiece with rfl | hpiece
      · refine List.mem_cons.mpr ((List.mem_cons.mp hc).imp_right fun hhead => ?_)
        exact ih (hrest ▸ List.mem_cons_self) hhead
      · exact List.mem_cons_of_mem _ (ih (hrest ▸ List.mem_cons_of_mem _ hpiece) hc)

theorem mem_of_mem_splitElements (hpiece : piece ∈ splitElements text) (hc : c ∈ piece) :
    c ∈ text := by
  rw [splitElements] at hpiece
  split at hpiece
  · cases hpiece
  · exact mem_of_mem_splitFrom hpiece hc

/-- There is a line feed in what breaks a list. -/
theorem mem_of_breaksFold (h : BreaksFold text) : '\n' ∈ text := by
  induction h with
  | folded array htext hbreak =>
    apply Text.mem_of_mem_trim
    rw [htext, array.text_eq, FoldedArray.behind]
    simp [hbreak]
  | element htext hpiece _ ih =>
    apply Text.mem_of_mem_trim
    rw [htext]
    exact List.mem_cons_of_mem _ (List.mem_append_left _ (mem_of_mem_splitElements hpiece ih))

/-- Which lists are broken is known from the gaps with breaks. -/
theorem breaksFold_of_markBreaks {marked : List Char} (h : BreaksFold marked)
    (heq : trim marked = trim (markBreaks text)) : BreaksFold text := by
  rw [markBreaks, Text.trim_closeGapsFrom] at heq
  induction h generalizing text with
  | folded array htext hbreak =>
    obtain ⟨other, hother, rfl⟩ := FoldedArray.exists_of_closeGapsFrom_eq (heq.symm.trans htext)
    exact .folded other hother (Text.mem_markBreaks_iff.mp hbreak)
  | element htext hpiece _ ih =>
    have hfound : enclosed? '[' ']' (closeGapsFrom true .outside (trim text)) = _ :=
      enclosed?_closeGapsFrom (by decide) (by decide) true (trim text)
    rw [← heq, enclosed?_eq_some_iff.mpr htext] at hfound
    obtain ⟨inner, hinner, rfl⟩ := Option.map_eq_some_iff.mp hfound.symm
    have hmem := List.mem_map_of_mem (f := trim) hpiece
    rw [map_trim_splitElements] at hmem
    obtain ⟨piece, hother, hsame⟩ := List.mem_map.mp hmem
    rw [Text.trim_closeGapsFrom] at hsame
    exact .element (enclosed?_eq_some_iff.mp hinner) hother (ih hsame.symm)

theorem breaksFold_markBreaks : BreaksFold (markBreaks text) ↔ BreaksFold text := by
  refine ⟨fun h => breaksFold_of_markBreaks h rfl, fun h => ?_⟩
  induction h with
  | folded array htext hbreak =>
    refine .folded (array.closed true) ?_ (Text.mem_markBreaks_iff.mpr hbreak)
    rw [markBreaks, Text.trim_closeGapsFrom, htext, array.closeGapsFrom_text]
  | @element text inner piece htext hpiece _ ih =>
    have htrim : trim (markBreaks text) = '[' :: (markBreaks inner ++ [']']) :=
      trim_closeGapsFrom_enclosed (by decide) (by decide) htext
    have hmem := List.mem_map_of_mem (f := fun piece => trim (markBreaks piece)) hpiece
    have hpieces : (splitElements (markBreaks inner)).map trim =
        (splitElements inner).map fun piece => trim (markBreaks piece) :=
      map_trim_splitElements true inner
    obtain ⟨other, hother, hsame⟩ := List.mem_map.mp (hpieces ▸ hmem)
    exact .element htrim hother ((breaksFold_congr hsame).mpr ih)

end BreaksFold

/-! ## Reading without gaps -/

section Reading

variable {text : List Char} {keep : Bool} {place : Text.Place}

theorem readInt_eq_ok_iff {value : Int64} :
    readInt text = .ok value ↔ Text.readInteger? (trim text) = some value := by
  rw [readInt]
  cases Text.readInteger? (trim text) with
  | none => simp
  | some found => simp

/-- There are no gaps in an integer. -/
theorem readInt_closeGaps {value : Int64} :
    readInt (closeGaps text) = .ok value ↔ readInt text = .ok value := by
  by_cases hcomma : ',' ∈ text
  · have hclosed : ',' ∈ closeGaps text := (Text.mem_closeGapsFrom_iff (by decide)).mpr hcomma
    rw [readInt_eq_ok_iff, readInt_eq_ok_iff,
      readInteger?_of_mark (by decide) (Text.mem_trim (by decide) hclosed),
      readInteger?_of_mark (by decide) (Text.mem_trim (by decide) hcomma)]
  · rw [closeGaps, Text.closeGapsFrom_of_not_mem hcomma]

/-- If blanks around the elements do not matter, those of a list without gaps are accepted as
those of the list are. -/
theorem mapM_splitElements_closeGaps {β : Type} {check : List Char → Except ValueFault β}
    {p : List Char → Prop} {results : List β}
    (htrim : ∀ piece result, check (trim piece) = .ok result ↔ check piece = .ok result)
    (hpiece : ∀ piece ∈ splitElements text, ∀ result,
      check piece = .ok result ↔ check (closeGaps piece) = .ok result ∧ p piece) :
    (splitElements text).mapM check = .ok results ↔
      (splitElements (closeGaps text)).mapM check = .ok results ∧
        ∀ piece ∈ splitElements text, p piece := by
  have htrimmed : (splitElements (closeGaps text)).mapM check = .ok results ↔
      (splitElements text).mapM (fun piece => check (trim (closeGaps piece))) = .ok results := by
    have hpieces : (splitElements (closeGaps text)).map trim =
        (splitElements text).map fun piece => trim (closeGaps piece) :=
      map_trim_splitElements false text
    rw [← Function.comp_def check, ← List.mapM_map, ← hpieces, List.mapM_map, Outcome.mapM_eq_ok,
      Outcome.mapM_eq_ok]
    simp only [Function.comp_apply, htrim]
  rw [htrimmed]
  refine Outcome.mapM_eq_ok_congr fun piece hmem result => ?_
  rw [htrim]
  exact hpiece piece hmem result

theorem read_space_cons (text : List Char) : read (' ' :: text) = read text := by
  have hblank : Text.allBlank [' '] = true := by decide
  exact read_eq_of_trim (Text.trim_append_left text hblank)

/-- A text that is read as it is read without its gaps, unless it breaks a folded list. -/
def IsReadWithoutGaps (text : List Char) : Prop :=
  ∀ value, read text = .ok value ↔ read (closeGaps text) = .ok value ∧ ¬ BreaksFold text

theorem isReadWithoutGaps_of_curly {inner : List Char}
    (htext : trim text = '\x7b' :: (inner ++ ['\x7d'])) : IsReadWithoutGaps text := by
  have hclosed : trim (closeGaps text) = '\x7b' :: (closeGaps inner ++ ['\x7d']) :=
    trim_closeGapsFrom_enclosed (by decide) (by decide) htext
  have hread : ∀ {text inner : List Char} {value : Value},
      trim text = '\x7b' :: (inner ++ ['\x7d']) → (read text = .ok value ↔
        ∃ values,
          (splitElements inner).mapM readInt = .ok values ∧ value = set (.ofList values)) := by
    intro text inner value htext
    rw [read, readNested_curly htext (enclosed?_append _ _ _), Outcome.map_eq_ok]
  have hpieces : ∀ values, (splitElements inner).mapM readInt = .ok values ↔
      (splitElements (closeGaps inner)).mapM readInt = .ok values ∧
        ∀ piece ∈ splitElements inner, True := by
    intro values
    refine mapM_splitElements_closeGaps (fun piece result => ?_) fun piece _ result => ?_
    · rw [readInt_eq_ok_iff, readInt_eq_ok_iff, Text.trim_eq_self (Text.isTight_trim piece)]
    · rw [readInt_closeGaps, and_true]
  intro value
  have hbreaks := not_breaksFold_of_curly htext
  rw [hread htext, hread hclosed]
  simp only [hpieces, hbreaks, implies_true, and_true, not_false_eq_true]

theorem isReadWithoutGaps_of_square {inner : List Char}
    (htext : trim text = '[' :: (inner ++ [']']))
    (hpieces : ∀ piece ∈ splitElements inner, IsReadWithoutGaps piece) :
    IsReadWithoutGaps text := by
  have hclosed : trim (closeGaps text) = '[' :: (closeGaps inner ++ [']']) :=
    trim_closeGapsFrom_enclosed (by decide) (by decide) htext
  have helements : ∀ values, (splitElements inner).mapM read = .ok values ↔
      (splitElements (closeGaps inner)).mapM read = .ok values ∧
        ∀ piece ∈ splitElements inner, ¬ BreaksFold piece := by
    intro values
    refine mapM_splitElements_closeGaps (fun piece result => ?_) fun piece hpiece result =>
      hpieces piece hpiece result
    rw [read_eq_of_trim (Text.trim_eq_self (Text.isTight_trim piece))]
  intro value
  rw [read_square htext, read_square hclosed, Outcome.map_eq_ok, Outcome.map_eq_ok,
    breaksFold_list_iff htext]
  simp only [helements, not_exists, not_and]
  exact ⟨fun ⟨values, ⟨hread, hnone⟩, hvalue⟩ => ⟨⟨values, hread, hvalue⟩, hnone⟩,
    fun ⟨⟨values, hread, hvalue⟩, hnone⟩ => ⟨values, ⟨hread, hnone⟩, hvalue⟩⟩

/-- The list in an array of several dimensions is read like any other, unless it is broken. -/
theorem read_folded_eq_ok {array : FoldedArray} {value : Value} (htext : trim text = array.text) :
    read text = .ok value ↔ '\n' ∉ array.inner ∧ read array.list = .ok value := by
  have hopening : '(' ∈ text := by
    apply Text.mem_of_mem_trim
    rw [htext, array.text_eq]
    simp
  rw [read_of_mark (by decide) hopening (htext ▸ rfl) (htext ▸ rfl), htext, array.foldedList?_text]
  by_cases hinner : '\n' ∈ array.inner <;> simp [hinner]

theorem isReadWithoutGaps_of_folded {array : FoldedArray} (htext : trim text = array.text)
    (hlist : IsReadWithoutGaps array.list) : IsReadWithoutGaps text := by
  have hclosed : trim (closeGaps text) = (array.closed false).text := by
    rw [closeGaps, Text.trim_closeGapsFrom, htext, array.closeGapsFrom_text]
  intro value
  rw [read_folded_eq_ok htext, read_folded_eq_ok hclosed, breaksFold_folded_iff htext, hlist value,
    closeGaps, array.closeGapsFrom_list]
  -- A list without a line feed keeps none when its gaps are closed, and breaks nothing inside.
  have hinner : '\n' ∉ array.inner →
      '\n' ∉ (array.closed false).inner ∧ ¬ BreaksFold array.list := by
    refine fun hnone => ⟨mt Text.mem_of_mem_closeGapsFrom hnone, fun hbreaks => hnone ?_⟩
    simpa [FoldedArray.list] using mem_of_breaksFold hbreaks
  tauto

/-- Outside brackets a text is no value if there is a comma in it, and else there is no gap. -/
theorem isReadWithoutGaps_of_bare (hcurly : enclosed? '\x7b' '\x7d' (trim text) = none)
    (hsquare : enclosed? '[' ']' (trim text) = none)
    (hfolded : ¬ ∃ array : FoldedArray, trim text = array.text) : IsReadWithoutGaps text := by
  intro value
  by_cases hcomma : ',' ∈ text
  · have htrim : trim (closeGaps text) = closeGapsFrom false .outside (trim text) :=
      Text.trim_closeGapsFrom false .outside text
    have hmem : ',' ∈ closeGaps text := (Text.mem_closeGapsFrom_iff (by decide)).mpr hcomma
    have hnone : foldedList? (trim text) = none := by
      rw [Option.eq_none_iff_forall_ne_some]
      intro list hlist
      obtain ⟨array, htext, -⟩ := exists_foldedArray hlist
      exact hfolded ⟨array, htext⟩
    have hclosed : foldedList? (trim (closeGaps text)) = none := by
      rw [Option.eq_none_iff_forall_ne_some, htrim]
      intro list hlist
      obtain ⟨array, htext, -⟩ := exists_foldedArray hlist
      obtain ⟨other, hother, -⟩ := FoldedArray.exists_of_closeGapsFrom_eq htext
      exact hfolded ⟨other, hother⟩
    rw [read_of_mark (by decide) hcomma hcurly hsquare, read_of_mark (by decide) hmem, hnone,
      hclosed]
    · simp
    · rw [htrim, enclosed?_closeGapsFrom (by decide) (by decide), hcurly, Option.map_none]
    · rw [htrim, enclosed?_closeGapsFrom (by decide) (by decide), hsquare, Option.map_none]
  · have hbreaks : ¬ BreaksFold text := by
      intro h
      cases h with
      | folded array htext _ => exact hfolded ⟨array, htext⟩
      | element htext _ _ =>
        rw [enclosed?_eq_some_iff.mpr htext] at hsquare
        cases hsquare
    rw [closeGaps, Text.closeGapsFrom_of_not_mem hcomma]
    exact ⟨fun hread => ⟨hread, hbreaks⟩, And.left⟩

/-- A text is read as it is read without its gaps, unless it breaks a folded list. -/
theorem read_closeGaps (text : List Char) : IsReadWithoutGaps text := by
  induction hlength : text.length using Nat.strong_induction_on generalizing text with
  | _ length ih =>
  subst hlength
  have htrim := Text.length_trim_le text
  cases hcurly : enclosed? '\x7b' '\x7d' (trim text) with
  | some inner => exact isReadWithoutGaps_of_curly (enclosed?_eq_some_iff.mp hcurly)
  | none =>
  cases hsquare : enclosed? '[' ']' (trim text) with
  | some inner =>
    have hinner := length_lt_of_enclosed? hsquare
    refine isReadWithoutGaps_of_square (enclosed?_eq_some_iff.mp hsquare) fun piece hpiece => ?_
    have hshorter := length_le_of_mem_splitElements piece hpiece
    exact ih piece.length (by omega) piece rfl
  | none =>
  by_cases hfolded : ∃ array : FoldedArray, trim text = array.text
  · obtain ⟨array, htext⟩ := hfolded
    have hlist := array.length_list_lt
    rw [← htext] at hlist
    exact isReadWithoutGaps_of_folded htext (ih array.list.length (by omega) array.list rfl)
  · exact isReadWithoutGaps_of_bare hcurly hsquare hfolded

/-- Texts with the same gaps and the same breaks are read alike. -/
theorem read_eq_ok_congr {other : List Char} {value : Value}
    (h : ∀ keep, closeGapsFrom keep .outside text = closeGapsFrom keep .outside other) :
    read text = .ok value ↔ read other = .ok value := by
  have hgaps : closeGaps text = closeGaps other := h false
  have hbreaks : BreaksFold text ↔ BreaksFold other := by
    calc BreaksFold text ↔ BreaksFold (markBreaks text) := breaksFold_markBreaks.symm
      _ ↔ BreaksFold (markBreaks other) := by rw [markBreaks, h true, markBreaks]
      _ ↔ BreaksFold other := breaksFold_markBreaks
  rw [read_closeGaps text value, read_closeGaps other value, hgaps, hbreaks]

/-- A text that is broken in its gaps is read as the text on one line, unless it breaks a list that
is folded. -/
theorem read_broken {line : List Char} (hline : '\n' ∉ line)
    (hgaps : closeGaps text = closeGaps line)
    (value : Value) : read text = .ok value ↔ read line = .ok value ∧ ¬ BreaksFold text := by
  have hnone : ¬ BreaksFold line := mt mem_of_breaksFold hline
  rw [read_closeGaps text value, read_closeGaps line value, hgaps, and_iff_left hnone]

end Reading

/-! ## Arrays -/

/-- The text of an array, of one dimension or folded into ranges, with no semicolon in its list. -/
inductive IsArrayText : List Char → Prop
  | list {inner : List Char} (oneStatement : ';' ∉ inner) : IsArrayText ('[' :: (inner ++ [']']))
  | folded (array : FoldedArray) (oneStatement : ';' ∉ array.inner) : IsArrayText array.text

section Arrays

variable {text : List Char}

/-- If a semicolon cuts the text, it stands in the ranges, so that no list is in front of it. -/
theorem IsArrayText.exists_ranges (h : IsArrayText text) (hcut : ';' ∈ text) :
    ∃ before after, text = before ++ ';' :: after ∧ ';' ∉ before ∧ before.head? = some 'a' ∧
      '(' ∈ before ∧ '[' ∉ before := by
  cases h with
  | list oneStatement => simp [oneStatement] at hcut
  | folded array oneStatement =>
    have hdigits : ';' ∉ array.digits ∧ '[' ∉ array.digits :=
      ⟨fun hmem => absurd (array.decimal ';' hmem) (by decide),
        fun hmem => absurd (array.decimal '[' hmem) (by decide)⟩
    have hblanks : ';' ∉ array.blanks := fun hmem =>
      absurd (List.all_eq_true.mp array.allBlank ';' hmem) (by decide)
    have hword : ';' ∉ array.word ∧ '[' ∉ array.word := by
      simp [FoldedArray.word, hdigits]
    have hranges : ';' ∈ array.ranges := by
      rw [array.text_eq] at hcut
      simpa [FoldedArray.behind, hword, oneStatement, hblanks] using hcut
    obtain ⟨before, after, hsplit, hbefore⟩ := List.eq_append_cons_of_mem hranges
    have hbracket : '[' ∉ before := fun hmem =>
      array.bracket_not_mem (hsplit ▸ List.mem_append_left _ hmem)
    refine ⟨array.word ++ '(' :: before, after ++ '[' :: array.behind, ?_, ?_, rfl, ?_, ?_⟩
    · rw [array.text_eq, hsplit]
      simp
    · simp [hword, hbefore]
    · simp
    · simp [hword, hbracket]

/-- Without a list behind them, ranges are no value. -/
theorem read_ranges_ne_ok (hhead : text.head? = some 'a') (hopening : '(' ∈ text)
    (hbracket : '[' ∉ text) (value : Value) : read text ≠ .ok value := by
  have hfirst : (trim text).head? = some 'a' := by
    rw [Text.head?_trim (by rw [hhead]; decide), hhead]
  have henclosed : ∀ opening closing, opening ≠ 'a' →
      enclosed? opening closing (trim text) = none := by
    intro opening closing hne
    rw [Option.eq_none_iff_forall_ne_some]
    intro inner hinner
    rw [enclosed?_eq_some_iff.mp hinner, List.head?_cons, Option.some.injEq] at hfirst
    exact hne hfirst
  have hfolded : foldedList? (trim text) = none := by
    rw [Option.eq_none_iff_forall_ne_some]
    intro list hlist
    obtain ⟨array, htext, -⟩ := exists_foldedArray hlist
    apply hbracket
    apply Text.mem_of_mem_trim
    rw [htext, array.text_eq]
    simp
  rw [read_of_mark (by decide) hopening (henclosed _ _ (by decide)) (henclosed _ _ (by decide)),
    hfolded]
  nofun

end Arrays

end MiniZincModels.Value
