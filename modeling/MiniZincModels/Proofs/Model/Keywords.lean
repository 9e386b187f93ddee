import MiniZincModels.Proofs.Expr.Plain
import MiniZincModels.Proofs.Model.DeclarationOrder
import MiniZincModels.Proofs.Text.Words

/-!
# Keywords and names

Every word of an item is a keyword, a name of the standard library, a number or a name
which the item declares or uses.  A name that can be declared is no keyword, with one
exception: `xor` is an operator of the language and can be declared all the same.
-/

namespace MiniZincModels

open Text (AllWords IsDelimiter IsNumber allWords_intercalate allWords_of_isValid)

/-- The words of the language with which items are written: types, word operators, truth
values, and what items and choices are introduced by. -/
def keywords : List String :=
  ["array", "bool", "constraint", "div", "else", "endif", "false", "float", "if", "in", "include",
    "int", "intersect", "maximize", "minimize", "mod", "not", "of", "satisfy", "set", "solve",
    "then", "true", "var", "xor"]

/-- The names of functions, predicates, annotations and files of the standard library, those
for arrays of several dimensions apart. -/
def libraryNames : List String :=
  ["abs", "card", "max", "min", "pow", "product", "sum", "redundant_constraint", "seq_search",
    "restart_constant", "restart_geometric", "restart_linear", "restart_luby", "mzn"]
    ++ Global.all.map Global.name ++ Kind.all.map Kind.searchName
    ++ Propagation.all.map Propagation.text ++ VariableChoice.all.map VariableChoice.text
    ++ ValueChoice.all.map ValueChoice.text

def IsLibraryName (word : String) : Prop :=
  word ∈ libraryNames ∨ ∃ rank : Nat, word = "array" ++ toString rank ++ "d"

/-- What a word of an item can be, if the names in it are those of a class. -/
def IsExplained (isName : String → Prop) (word : String) : Prop :=
  word ∈ keywords ∨ IsLibraryName word ∨ IsNumber word ∨ isName word

abbrev Explained (isName : String → Prop) : String → Prop :=
  AllWords (IsExplained isName)

/-- A keyword can be declared only if it is `xor`. -/
theorem isValid_keyword_iff :
    ∀ word ∈ keywords, Identifier.isValid word = true ↔ word = "xor" := by
  decide

theorem not_isNumber_of_keyword {word : String} (hword : word ∈ keywords) : ¬ IsNumber word := by
  have hdigits : ∀ word ∈ keywords, ∀ c ∈ word.toList.head?, c.isDigit = false := by decide
  rintro (⟨c, hc, hdigit⟩ | rfl | rfl)
  · rw [hdigits word hword c hc] at hdigit
    cases hdigit
  · exact absurd hword (by decide)
  · exact absurd hword (by decide)

theorem not_isLibraryName_of_keyword {word : String} (hword : word ∈ keywords) :
    ¬ IsLibraryName word := by
  have hlibrary : ∀ word ∈ keywords, word ∉ libraryNames := by decide
  have hends : ∀ word ∈ keywords,
      word.toList.head? = some 'a' → word.toList.getLast? ≠ some 'd' := by decide
  rintro (hmem | ⟨rank, rfl⟩)
  · exact hlibrary word hword hmem
  · have hlast : ("array" ++ toString rank ++ "d").toList.getLast? = some 'd' := by
      rw [String.toList_append]
      exact List.getLast?_concat
    exact hends _ hword (by simp) hlast

/-! ## Fixed parts -/

/-- A part of an item in which nothing is declared or used. -/
def IsFixed (text : String) : Prop :=
  ∀ word ∈ Text.words text, word ∈ keywords ∨ word ∈ libraryNames

/-- A fixed part that keeps apart what stands on both sides of it. -/
def IsSeparator (text : String) : Prop :=
  IsFixed text ∧ IsDelimiter text

/-- A fixed part that keeps apart what stands behind it. -/
def IsOpening (text : String) : Prop :=
  IsFixed text ∧ ∀ c ∈ text.toList.getLast?, Text.isBreak c = true

/-- A fixed part that keeps apart what stands before it. -/
def IsClosing (text : String) : Prop :=
  IsFixed text ∧ ∀ c ∈ text.toList.head?, Text.isBreak c = true

instance (text : String) : Decidable (IsFixed text) :=
  inferInstanceAs (Decidable (∀ word ∈ Text.words text, word ∈ keywords ∨ word ∈ libraryNames))

instance (text : String) : Decidable (IsSeparator text) :=
  inferInstanceAs (Decidable (_ ∧ _))

instance (text : String) : Decidable (IsOpening text) :=
  inferInstanceAs (Decidable (_ ∧ _))

instance (text : String) : Decidable (IsClosing text) :=
  inferInstanceAs (Decidable (_ ∧ _))

theorem IsSeparator.isOpening {text : String} (h : IsSeparator text) : IsOpening text :=
  ⟨h.1, h.2.2.2⟩

theorem isSeparator_space : IsSeparator " " := by
  decide

theorem isSeparator_comma : IsSeparator ", " := by
  decide

theorem isSeparator_colon : IsSeparator ": " := by
  decide

theorem isSeparator_range : IsSeparator ".." := by
  decide

theorem isSeparator_round : IsSeparator "(" := by
  decide

theorem isSeparator_square : IsSeparator "[" := by
  decide

theorem isClosing_round : IsClosing ")" := by
  decide

theorem isClosing_square : IsClosing "]" := by
  decide

theorem isClosing_semicolon : IsClosing ";" := by
  decide

section Parts

variable {isName : String → Prop} {text opening closing separator : String} {texts : List String}

theorem IsFixed.explained (h : IsFixed text) : Explained isName text := by
  intro word hword
  rcases h word hword with hkeyword | hlibrary
  · exact .inl hkeyword
  · exact .inr (.inl (.inl hlibrary))

theorem explained_number (h : AllWords IsNumber text) : Explained isName text :=
  h.mono fun _ hword => .inr (.inr (.inl hword))

theorem explained_name {name : String} (hvalid : Identifier.isValid name = true)
    (hname : isName name) : Explained isName name :=
  allWords_of_isValid hvalid (.inr (.inr (.inr hname)))

theorem explained_behind (hopening : IsOpening opening) (h : Explained isName text) :
    Explained isName (opening ++ text) :=
  hopening.1.explained.append h (.inl hopening.2)

theorem explained_before (h : Explained isName text) (hclosing : IsClosing closing) :
    Explained isName (text ++ closing) :=
  h.append hclosing.1.explained (.inr hclosing.2)

theorem explained_enclosed (hopening : IsOpening opening) (h : Explained isName text)
    (hclosing : IsClosing closing) : Explained isName (opening ++ text ++ closing) :=
  explained_before (explained_behind hopening h) hclosing

theorem explained_between {left right : String} (hleft : Explained isName left)
    (hseparator : IsSeparator separator) (hright : Explained isName right) :
    Explained isName (left ++ separator ++ right) :=
  hleft.delimited hseparator.2 hseparator.1.explained hright

theorem explained_intercalate (hseparator : IsSeparator separator)
    (htexts : ∀ text ∈ texts, Explained isName text) :
    Explained isName (separator.intercalate texts) :=
  allWords_intercalate hseparator.2 hseparator.1.explained htexts

theorem explained_listed (htexts : ∀ text ∈ texts, Explained isName text) :
    Explained isName (", ".intercalate texts) :=
  explained_intercalate isSeparator_comma htexts

theorem explained_integerText (value : Int64) : Explained isName (Text.integerText value) :=
  explained_number (Text.allWords_integerText value)

theorem explained_floatText (value : Binary64) : Explained isName value.text :=
  explained_number (Text.allWords_floatText value)

theorem explained_toString (value : Nat) : Explained isName (toString value) :=
  explained_number (Text.allWords_toString value)

theorem explained_setText (values : IntSet) : Explained isName values.text := by
  have helements : ∀ part ∈ values.elements.map Text.integerText, Explained isName part :=
    List.forall_mem_map.mpr fun value _ => explained_integerText value
  exact explained_enclosed (by decide) (explained_listed helements) (by decide)

theorem explained_boolText (value : Bool) : Explained isName (boolText value) :=
  IsFixed.explained (by cases value <;> decide)

end Parts

/-! ## Expressions -/

namespace Expr

variable {isName : String → Prop}

theorem explained_operandOfInt (value : Int64) :
    Explained isName (Number.operandOfInt value) := by
  have hvalue : Explained isName (Text.integerText value) := explained_integerText value
  rw [Number.operandOfInt]
  split
  · exact explained_enclosed isSeparator_round.isOpening hvalue isClosing_round
  · exact hvalue

theorem explained_operandOfFloat (value : Binary64) :
    Explained isName (Number.operandOfFloat value) := by
  have hvalue : Explained isName value.text := explained_floatText value
  rw [Number.operandOfFloat]
  split
  · exact explained_enclosed isSeparator_round.isOpening hvalue isClosing_round
  · exact hvalue

theorem explained_binaryText {left token right : String} (hleft : Explained isName left)
    (htoken : IsFixed token) (hright : Explained isName right) :
    Explained isName (binaryText left token right) := by
  have hopened := explained_behind isSeparator_round.isOpening hleft
  have hjoined := explained_between hopened isSeparator_space htoken.explained
  exact explained_before (explained_between hjoined isSeparator_space hright) isClosing_round

theorem explained_listText {elements : List String}
    (helements : ∀ element ∈ elements, Explained isName element) :
    Explained isName (listText elements) :=
  explained_enclosed isSeparator_square.isOpening (explained_listed helements) isClosing_square

theorem explained_callText {function : String} {arguments : List String}
    (hfunction : IsFixed function)
    (harguments : ∀ argument ∈ arguments, Explained isName argument) :
    Explained isName (callText function arguments) := by
  have hcall := explained_between hfunction.explained isSeparator_round
    (explained_listed harguments)
  exact explained_before hcall isClosing_round

/-- The words of a plain expression are those of its patterns, its numbers and its names. -/
theorem isTextual_explained :
    IsTextual (fun name => Identifier.isValid name = true ∧ isName name) (Explained isName) where
  int := explained_operandOfInt
  float := explained_operandOfFloat
  bool := explained_boolText
  intSet := explained_setText
  name _ hname := explained_name hname.1 hname.2
  binary token hmem left right hleft hright := by
    have htokens : ∀ token ∈ binaryTokens, IsFixed token := by decide
    exact explained_binaryText hleft (htokens token hmem) hright
  joined token hmem operands hoperands := by
    have hseparators : ∀ token ∈ connectiveTokens, IsSeparator (" " ++ token ++ " ") := by decide
    have hinner := explained_intercalate (hseparators token hmem) hoperands
    exact explained_enclosed isSeparator_round.isOpening hinner isClosing_round
  call function hmem arguments harguments := by
    have hfunctions : ∀ function ∈ functionNames, IsFixed function := by decide
    exact explained_callText (hfunctions function hmem) harguments
  list elements helements := explained_listText helements
  choice test thenText elseText htest hthen helse := by
    have hif : Explained isName ("(if " ++ test) := explained_behind (by decide) htest
    have hchosen := explained_between hif (by decide : IsSeparator " then ") hthen
    have hboth := explained_between hchosen (by decide : IsSeparator " else ") helse
    exact explained_before hboth (by decide)
  access name hname indices hindices := by
    have hconstant := explained_name hname.1 hname.2
    have haccess := explained_between hconstant isSeparator_square (explained_listed hindices)
    rw [listText, ← String.append_assoc, ← String.append_assoc]
    exact explained_before haccess isClosing_square

/-- The names among the words of an expression are those which it mentions. -/
theorem explained_text {expr : Expr} (hplain : expr.Everywhere IsDeclarable)
    (hnames : ∀ name, expr.Mentions name → isName name) : Explained isName expr.text :=
  isTextual_explained.text (hplain.isPlain_mentions hnames)

end Expr

/-! ## Declarations -/

section Declarations

variable {isName : String → Prop}

theorem Scalar.explained_text (value : Scalar) : Explained isName value.text := by
  cases value with
  | int value => exact explained_integerText value
  | float value => exact explained_floatText value
  | bool value => exact explained_boolText value

theorem Kind.isFixed_text (kind : Kind) : IsFixed kind.text := by
  cases kind <;> decide

namespace Constant

theorem explained_rangesText (constant : Constant) : Explained isName constant.rangesText := by
  apply explained_listed
  rw [List.forall_mem_map]
  intro extent _
  have hone : "1.." = toString 1 ++ ".." := by decide
  rw [hone]
  exact explained_between (explained_toString 1) isSeparator_range (explained_toString extent)

theorem explained_typeText (constant : Constant) : Explained isName constant.typeText := by
  have hkind : Explained isName constant.kind.text := constant.kind.isFixed_text.explained
  rw [typeText]
  split
  · exact hkind
  · have hranges : Explained isName ("array[" ++ constant.rangesText) :=
      explained_behind (by decide) constant.explained_rangesText
    exact explained_between hranges (by decide) hkind

/-- The function that folds a list into several dimensions has their number in its name. -/
theorem explained_arrayName (rank : Nat) :
    Explained isName ("array" ++ toString rank ++ "d") := by
  have hname : IsExplained isName ("array" ++ toString rank ++ "d") :=
    .inr (.inl (.inr ⟨rank, rfl⟩))
  have hdigits : ∀ c ∈ (toString rank).toList, Identifier.isNameCharacter c = true := by
    intro c hc
    have hmem : c ∈ Nat.toDigits 10 rank := by simpa [Nat.toList_repr] using hc
    exact Text.isNameCharacter_of_isDigit (Text.isDigit_of_mem_toDigits c hmem)
  apply Text.allWords_of_forall hname
  simp only [String.toList_append, List.forall_mem_append]
  exact ⟨⟨by decide, hdigits⟩, by decide⟩

theorem explained_valueText (constant : Constant) : Explained isName constant.valueText := by
  have helements : ∀ part ∈ constant.elements.map Scalar.text, Explained isName part :=
    List.forall_mem_map.mpr fun element _ => element.explained_text
  have hlist := Expr.explained_listText helements
  rw [valueText]
  split
  · cases hparts : constant.elements.map Scalar.text with
    | nil => exact IsFixed.explained (by decide)
    | cons first rest => exact helements first (by simp [hparts])
  · exact hlist
  · have hbracket : "d(" = "d" ++ "(" := by decide
    have hopened : Explained isName
        ("array" ++ toString constant.dimensions.length ++ "d" ++ "(" ++ constant.rangesText) :=
      explained_between (explained_arrayName _) isSeparator_round constant.explained_rangesText
    have hfolded := explained_between hopened isSeparator_comma hlist
    rw [hbracket, ← String.append_assoc]
    exact explained_before hfolded isClosing_round

theorem explained_declaration {constant : Constant}
    (hvalid : Identifier.isValid constant.name = true) (hname : isName constant.name) :
    Explained isName constant.declaration := by
  have htyped := explained_between constant.explained_typeText isSeparator_colon
    (explained_name hvalid hname)
  have hvalue := explained_between htyped (by decide : IsSeparator " = ")
    constant.explained_valueText
  exact explained_before hvalue isClosing_semicolon

end Constant

theorem IntDomain.explained_text (domain : IntDomain) : Explained isName domain.text := by
  cases domain with
  | interval lower upper =>
    exact explained_between (explained_integerText lower) isSeparator_range
      (explained_integerText upper)
  | values set => exact explained_setText set

theorem Domain.explained_text (domain : Domain) : Explained isName domain.text := by
  cases domain with
  | int domain => exact domain.explained_text
  | float lower upper =>
    exact explained_between (explained_floatText lower) isSeparator_range
      (explained_floatText upper)
  | bool => exact IsFixed.explained (by decide)
  | intSet domain => exact explained_behind (by decide) domain.explained_text

theorem Variable.explained_declaration {declared : Variable}
    (hvalid : Identifier.isValid declared.name = true) (hname : isName declared.name) :
    Explained isName declared.declaration := by
  have hdomain : Explained isName ("var " ++ declared.domain.text) :=
    explained_behind (by decide) declared.domain.explained_text
  have hnamed := explained_between hdomain isSeparator_colon (explained_name hvalid hname)
  exact explained_before hnamed isClosing_semicolon

/-! ## Constraints and includes -/

theorem Constraint.explained_text {constraint : Constraint}
    (hbody : Explained isName constraint.body.text) : Explained isName constraint.text := by
  have hbodyText : Explained isName constraint.bodyText := by
    rw [bodyText]
    split
    · rename_i strength _
      have hstrength : IsFixed strength.text := by cases strength <;> decide
      exact explained_between hbody (by decide) hstrength.explained
    · exact hbody
  rw [text]
  split
  · exact explained_enclosed (by decide) hbodyText (by decide)
  · exact explained_enclosed (by decide) hbodyText isClosing_semicolon

theorem Model.isFixed_includeItem (global : Global) : IsFixed (includeItem global) := by
  cases global <;> decide

/-! ## The solve item -/

theorem Branching.explained_text {single : Branching}
    (hvars : ∀ declared ∈ single.vars,
      Identifier.isValid declared.name = true ∧ isName declared.name) :
    Explained isName single.text := by
  obtain ⟨sort, vars, variableChoice, valueChoice⟩ := single
  have hnames : ∀ part ∈ vars.map Variable.name, Explained isName part :=
    List.forall_mem_map.mpr fun declared hmem =>
      explained_name (hvars declared hmem).1 (hvars declared hmem).2
  have hsearch : IsFixed sort.kind.searchName := by cases sort.kind <;> decide
  have hvariable : IsFixed variableChoice.text := by cases variableChoice <;> decide
  have hvalue : IsFixed valueChoice.text := by cases valueChoice <;> decide
  have hlist : IsSeparator "], " := by decide
  have hopened := explained_between hsearch.explained (by decide : IsSeparator "([")
    (explained_listed hnames)
  have hchosen : Explained isName (sort.kind.searchName ++ "([" ++
      ", ".intercalate (vars.map Variable.name) ++ "], " ++ precisionText sort ++
      variableChoice.text) := by
    cases sort with
    | float precision =>
      have hprecision := explained_between hopened hlist (explained_floatText precision)
      simp only [precisionText, ← String.append_assoc]
      exact explained_between hprecision isSeparator_comma hvariable.explained
    | int | bool | set =>
      simp only [precisionText, String.append_empty]
      exact explained_between hopened hlist hvariable.explained
  have hboth := explained_between hchosen isSeparator_comma hvalue.explained
  exact explained_before hboth isClosing_round

theorem Search.explained_text {search : Search}
    (hbuilt : search.BuiltFrom Vocabulary.withoutRaw)
    (hvars : ∀ declared ∈ search.vars, isName declared.name) : Explained isName search.text := by
  induction hbuilt with
  | branching hvalid hcreated =>
    obtain ⟨-, rfl⟩ := Branching.create_eq_ok.mp hcreated
    exact Branching.explained_text fun declared hmem => ⟨hvalid declared hmem, hvars declared hmem⟩
  | @sequence searches _ ih =>
    have htexts : ∀ part ∈ texts searches, Explained isName part := by
      rw [texts_eq_map, List.forall_mem_map]
      intro search hsearch
      apply ih search hsearch
      intro declared hmem
      apply hvars declared
      rw [vars, allVars_eq_flatMap]
      exact List.mem_flatMap.mpr ⟨search, hsearch, hmem⟩
    exact explained_enclosed (by decide) (explained_listed htexts) (by decide)

theorem RestartStrategy.explained_text (strategy : RestartStrategy) :
    Explained isName strategy.text := by
  rw [text.eq_def]
  cases strategy with
  | constant scale | linear scale | luby scale =>
    exact explained_enclosed (by decide) (explained_toString scale) isClosing_round
  | geometric base scale =>
    have hbase : Explained isName ("restart_geometric(" ++ base.text) :=
      explained_behind (by decide) (explained_floatText base)
    have hscaled := explained_between hbase isSeparator_comma (explained_toString scale)
    exact explained_before hscaled isClosing_round

/-- Each further part stands behind a blank. -/
theorem SolvePart.explained_textBehind {word : String} {parts : List SolvePart}
    (hword : Explained isName word) (hparts : ∀ part ∈ parts, Explained isName part.text) :
    Explained isName (textBehind word parts) := by
  induction parts generalizing word with
  | nil => simpa [textBehind] using hword
  | cons part rest ih =>
    rw [List.forall_mem_cons] at hparts
    have hnext := explained_between hword isSeparator_space hparts.1
    have htext : textBehind word (part :: rest) = textBehind (word ++ " " ++ part.text) rest := by
      simp [textBehind, String.append_assoc]
    rw [htext]
    exact ih hnext hparts.2

end Declarations

/-! ## Items -/

/-- The item declares the name or uses it. -/
def Item.Names (item : Item) (name : String) : Prop :=
  item.declares? = some name ∨ item.Uses name

namespace Model

variable {model : Model} {objective : Objective}

/-- The words of a part of the solve item are explained by the names which the part uses. -/
theorem BuiltFrom.explained_part (h : model.BuiltFrom Vocabulary.withoutRaw)
    (hobjective : model.objective = some objective) {part : SolvePart}
    (hmem : part ∈ model.solveParts objective) {isName : String → Prop}
    (hnames : ∀ name, part.Uses name → isName name) : Explained isName part.text := by
  cases part with
  | search directive =>
    have hsearch : model.search = some directive := by simpa [solveParts] using hmem
    have hvars : ∀ declared ∈ directive.vars, isName declared.name :=
      fun declared hdeclared => hnames declared.name ⟨declared, hdeclared, rfl⟩
    exact explained_behind (by decide) (Search.explained_text (h.search directive hsearch) hvars)
  | restart strategy => exact explained_behind (by decide) strategy.explained_text
  | criteria asked => exact IsFixed.explained (by cases asked <;> decide)
  | objective expr =>
    have hexpr : objective.expr = some expr := by simpa [solveParts] using hmem
    have hbuilt := h.objective objective hobjective expr hexpr
    exact Expr.explained_text hbuilt.isDeclarable hnames

/-- The words of an item are explained by the names which it declares or uses. -/
theorem BuiltFrom.explained_item (h : model.BuiltFrom Vocabulary.withoutRaw)
    (hnames : model.NamesAgree) (hobjective : model.objective = some objective) {item : Item}
    (hmem : item ∈ model.heading ++ model.body objective) : Explained item.Names item.text := by
  have hvalid : ∀ name ∈ model.declaredNames, Identifier.isValid name = true :=
    fun name hname => hnames.valid name (hnames.declared.subset hname)
  rw [declaredNames, List.forall_mem_append, List.forall_mem_map, List.forall_mem_map] at hvalid
  simp only [heading, body, List.mem_append, List.mem_map, List.mem_singleton] at hmem
  rcases hmem with ((⟨global, -, rfl⟩ | ⟨declared, hdeclared, rfl⟩) | ⟨declared, hdeclared, rfl⟩) |
    ⟨posted, hposted, rfl⟩ | rfl
  · exact (isFixed_includeItem global).explained
  · exact Constant.explained_declaration (hvalid.1 declared hdeclared) (.inl rfl)
  · exact Variable.explained_declaration (hvalid.2 declared hdeclared) (.inl rfl)
  · have hbuilt := (h.constraints posted hposted).1
    exact Constraint.explained_text
      (Expr.explained_text hbuilt.isDeclarable fun name hname => .inr hname)
  · have hparts : ∀ part ∈ model.solveParts objective,
        Explained (Item.Names (.solve (model.solveParts objective))) part.text :=
      fun part hpart => h.explained_part hobjective hpart fun name hname =>
        .inr ⟨part, hpart, hname⟩
    exact explained_before
      (SolvePart.explained_textBehind (IsFixed.explained (by decide)) hparts) isClosing_semicolon

theorem BuiltFrom.isValid_of_uses (h : model.BuiltFrom Vocabulary.withoutRaw)
    (hobjective : model.objective = some objective) {item : Item} {name : String}
    (hmem : item ∈ model.heading ++ model.body objective) (huses : item.Uses name) :
    Identifier.isValid name = true := by
  have hmentions : ∀ {expr : Expr}, Expr.Built Vocabulary.withoutRaw expr → expr.Mentions name →
      Identifier.isValid name = true := fun hbuilt hname => by
    obtain ⟨node, hnode, hplain⟩ := hname.exists_node hbuilt.isDeclarable
    exact hplain.isName_of_name? hnode
  rcases List.mem_append.mp hmem with hheading | hbody
  · exact absurd huses (not_uses_of_mem_heading hheading name)
  rw [body, List.mem_append, List.mem_singleton] at hbody
  rcases hbody with hconstraint | rfl
  · obtain ⟨posted, hposted, rfl⟩ := List.mem_map.mp hconstraint
    exact hmentions (h.constraints posted hposted).1 huses
  · obtain ⟨part, hpart, hname⟩ := huses
    cases part with
    | search directive =>
      have hsearch : model.search = some directive := by simpa [solveParts] using hpart
      obtain ⟨declared, hdeclared, rfl⟩ := hname
      exact (h.search directive hsearch).hasVariable declared hdeclared
    | objective expr =>
      have hexpr : objective.expr = some expr := by simpa [solveParts] using hpart
      exact hmentions (h.objective objective hobjective expr hexpr) hname
    | restart | criteria => exact hname.elim

/-- Of the keywords with which the items are written only `xor` can be declared, so no declared
name is one of the others.  In the text of a model without raw text, every word of an item is a
keyword, a name of the standard library, a number or a name which the item declares or uses, and
a keyword other than `xor` is nothing but a keyword. -/
theorem reachable_names_apart_from_keywords (reached : Reachable model) :
    (∀ word ∈ keywords, Identifier.isValid word = true ↔ word = "xor") ∧
    (∀ name ∈ model.declaredNames, name ∈ keywords → name = "xor") ∧
    ∀ objective, model.objective = some objective → ReachableWithoutRaw model →
      ∃ items : List Item, items = model.heading ++ model.body objective ∧
        model.render = .ok (joinLines (items.map Item.text)) ∧
        ∀ item ∈ items, ∀ word ∈ Text.words item.text, IsExplained item.Names word ∧
          (word ∈ keywords → word ≠ "xor" →
            ¬ IsLibraryName word ∧ ¬ IsNumber word ∧ ¬ item.Names word) := by
  have hvalid : ∀ name ∈ model.declaredNames, Identifier.isValid name = true :=
    fun name hname => reached.namesAgree.valid name (reached.namesAgree.declared.subset hname)
  refine ⟨isValid_keyword_iff,
    fun name hname hkeyword => (isValid_keyword_iff name hkeyword).mp (hvalid name hname), ?_⟩
  intro objective hobjective withoutRaw
  have hbuilt := withoutRaw.builtFrom
  refine ⟨_, rfl, ?_, ?_⟩
  · rw [reached.restartsSearch.map_text, render, hobjective]
  · intro item hitem word hword
    refine ⟨hbuilt.explained_item reached.namesAgree hobjective hitem word hword, ?_⟩
    intro hkeyword hne
    refine ⟨not_isLibraryName_of_keyword hkeyword, not_isNumber_of_keyword hkeyword, ?_⟩
    have hinvalid : Identifier.isValid word ≠ true :=
      fun h => hne ((isValid_keyword_iff word hkeyword).mp h)
    rintro (hdeclares | huses)
    · have hdeclared : word ∈ (model.heading ++ model.body objective).filterMap Item.declares? :=
        List.mem_filterMap.mpr ⟨item, hitem, hdeclares⟩
      rw [List.filterMap_append, filterMap_declares?_heading, filterMap_declares?_body,
        List.append_nil] at hdeclared
      exact hinvalid (hvalid word hdeclared)
    · exact hinvalid (hbuilt.isValid_of_uses hobjective hitem huses)

/-- Names that only look like keywords, in items with words of all classes. -/
theorem names_apart_of_modulus :
    let solver : Variable := ⟨"solver", .bool⟩
    let modulus : Constant := ⟨"modulus", .int, [], [.int 3]⟩
    let divided := Expr.comparison .equal (.arithmetic .modulo (.absolute (.int (-7)))
      (.identifier modulus.name .int)) (.int 1)
    let model := empty.run [.addVariable "solver" (.ofKind .bool),
      .addConstant "modulus" (.scalar (.int 3)),
      .post [.expr (.connective .xor [solver.toExpr, divided])] false, .satisfy]
    let lines := ["int: modulus = 3;", "var bool: solver;",
      "constraint (solver xor ((abs((-7)) mod modulus) = 1));", "solve satisfy;"]
    Reachable model ∧ ReachableWithoutRaw model ∧
      (∀ name ∈ model.declaredNames, name ∈ keywords → name = "xor") ∧
      ∃ items : List Item, items.map Item.text = lines ∧
        model.render = .ok (joinLines (items.map Item.text)) ∧
        ∀ item ∈ items, ∀ word ∈ Text.words item.text, IsExplained item.Names word ∧
          (word ∈ keywords → word ≠ "xor" →
            ¬ IsLibraryName word ∧ ¬ IsNumber word ∧ ¬ item.Names word) := by
  intro solver modulus divided model lines
  have hsolver : Expr.Built Vocabulary.withoutRaw solver.toExpr :=
    .ofVariable (Vocabulary.hasVariable_withoutRaw.mpr (by decide))
  have hmodulus : Vocabulary.withoutRaw.HasConstant modulus :=
    (by decide : Identifier.isValid "modulus" = true)
  have habs : Expr.Built Vocabulary.withoutRaw (.absolute (.int (-7))) := by
    have hmem : Expr.abs ∈ Expr.unaryFunctions := by simp [Expr.unaryFunctions]
    exact .unary hmem (.int (-7)) rfl
  have hremainder : Expr.Built Vocabulary.withoutRaw
      (.arithmetic .modulo (.absolute (.int (-7))) (.identifier modulus.name .int)) := by
    have hmem : Expr.modulo ∈ Expr.binaryFunctions := by simp [Expr.binaryFunctions]
    exact .binary hmem habs (.ofConstant hmodulus rfl) rfl
  have hdivided : Expr.Built Vocabulary.withoutRaw divided := by
    have hresult : Expr.compare .equal (.arithmetic .modulo (.absolute (.int (-7)))
      (.identifier modulus.name .int)) (.int 1) = .ok divided := rfl
    exact .compare hremainder (.int 1) hresult
  have hjoined : Postable.BuiltFrom Vocabulary.withoutRaw
      (.expr (.connective .xor [solver.toExpr, divided])) := by
    have hresult : Expr.joinTwo .xor solver.toExpr divided =
        .ok (.connective .xor [solver.toExpr, divided]) := rfl
    exact .joinTwo hsolver hdivided hresult
  have hreached : ReachableWithoutRaw model := by
    apply ReachableWithoutRaw.run .empty
    simp only [List.forall_mem_cons]
    exact ⟨trivial, trivial, List.forall_mem_singleton.mpr hjoined, trivial, List.forall_mem_nil _⟩
  obtain ⟨-, hapart, htext⟩ := reachable_names_apart_from_keywords hreached.reachable
  obtain ⟨items, hitems, hrender, hwords⟩ := htext ⟨.satisfy, none⟩ rfl hreached
  refine ⟨hreached.reachable, hreached, hapart, items, ?_, hrender, hwords⟩
  rw [hitems]
  decide

/-- The operator `xor` is declared as a variable, and the text cannot be read any more. -/
theorem xor_declared_and_used :
    let named : Variable := ⟨"xor", .bool⟩
    let other : Variable := ⟨"a", .bool⟩
    let model := empty.run [.addVariable "xor" (.ofKind .bool), .addVariable "a" (.ofKind .bool),
      .post [.expr (.connective .xor [named.toExpr, other.toExpr])] false, .satisfy]
    ReachableWithoutRaw model ∧
      ¬ (∀ name ∈ model.declaredNames, name ∉ keywords) ∧
      model.render = .ok (joinLines ["var bool: xor;", "var bool: a;", "constraint (xor xor a);",
        "solve satisfy;"]) := by
  intro named other model
  have hnamed : Expr.Built Vocabulary.withoutRaw named.toExpr :=
    .ofVariable (Vocabulary.hasVariable_withoutRaw.mpr (by decide))
  have hother : Expr.Built Vocabulary.withoutRaw other.toExpr :=
    .ofVariable (Vocabulary.hasVariable_withoutRaw.mpr (by decide))
  have hjoined : Postable.BuiltFrom Vocabulary.withoutRaw
      (.expr (.connective .xor [named.toExpr, other.toExpr])) := by
    have hresult : Expr.joinTwo .xor named.toExpr other.toExpr =
        .ok (.connective .xor [named.toExpr, other.toExpr]) := rfl
    exact .joinTwo hnamed hother hresult
  have hreached : ReachableWithoutRaw model := by
    apply ReachableWithoutRaw.run .empty
    simp only [List.forall_mem_cons]
    exact ⟨trivial, trivial, List.forall_mem_singleton.mpr hjoined, trivial, List.forall_mem_nil _⟩
  refine ⟨hreached, ?_, ?_⟩
  · intro h
    exact h "xor" (by decide) (by decide)
  · decide

end Model

end MiniZincModels
