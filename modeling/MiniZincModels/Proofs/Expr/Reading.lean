import MiniZincModels.Proofs.Expr.Built
import MiniZincModels.Proofs.Expr.Form
import MiniZincModels.Proofs.Identifier
import MiniZincModels.Proofs.Text.Numeral

/-!
# Reading expressions back

The text of an expression is the text of a form.  If every name is declared with
one kind and there are neither floats nor verbatim texts, the form tells which
expression it was made from, so two expressions of one text are the same.
-/

namespace MiniZincModels

namespace Expr

mutual

/-- The form in which an expression is printed. -/
def form : Expr → Form
  | int value =>
    if value.toInt < 0 then .enclosed "" .round [.word (Text.integerText value)]
    else .word (Text.integerText value)
  | float value => .word (Number.operandOfFloat value)
  | bool value => .word (boolText value)
  | intSet values =>
    .enclosed "" .curly (values.elements.map fun value => .word (Text.integerText value))
  | identifier name _ => .word name
  | raw text => .word text
  | arithmetic op left right => .joined op.token left.form [right.form]
  | comparison op left right => .joined op.token left.form [right.form]
  | connective _ [] => .enclosed "" .round []
  | connective op (first :: rest) => .joined op.token first.form (forms rest)
  | negation operand => .enclosed "not" .round [operand.form]
  | power base exponent => .enclosed "pow" .round [base.form, exponent.form]
  | absolute operand => .enclosed "abs" .round [operand.form]
  | reduction function operands =>
    .enclosed function.token .round [.enclosed "" .square (forms operands)]
  | setMeasure function set => .enclosed function.token .round [set.form]
  | array elements => .enclosed "" .square (forms elements)
  | predicate global arguments => .enclosed global.name .round (forms arguments)
  | conditional test thenValue elseValue => .choice test.form thenValue.form elseValue.form
  | access constant _ indices => .enclosed constant .square (forms indices)
  | membership element set => .joined "in" element.form [set.form]
  | intersection left right => .joined "intersect" left.form [right.form]

def forms : List Expr → List Form
  | [] => []
  | first :: rest => first.form :: forms rest

end

theorem forms_eq_map (exprs : List Expr) : forms exprs = exprs.map form := by
  induction exprs with
  | nil => rfl
  | cons first rest ih => simp [forms, ih]

end Expr

namespace Form

theorem toList_intercalate_cons (separator first : String) (rest : List String)
    (forms : List Form) (hrest : forms.map text = rest.map String.toList) :
    (separator.intercalate (first :: rest)).toList =
      first.toList ++ following separator.toList forms := by
  induction forms generalizing first rest with
  | nil =>
    rw [List.map_nil, eq_comm, List.map_eq_nil_iff] at hrest
    simp [hrest, following]
  | cons form forms ih =>
    cases rest with
    | nil => simp at hrest
    | cons second rest =>
      rw [List.map_cons, List.map_cons, List.cons.injEq] at hrest
      rw [String.intercalate_cons_cons, String.toList_append, String.toList_append,
        ih second rest hrest.2, following, hrest.1, List.append_assoc]

theorem toList_intercalate (texts : List String) (forms : List Form)
    (htexts : forms.map text = texts.map String.toList) :
    (", ".intercalate texts).toList = listed forms := by
  cases forms with
  | nil =>
    rw [List.map_nil, eq_comm, List.map_eq_nil_iff] at htexts
    simp [htexts, listed]
  | cons form forms =>
    cases texts with
    | nil => simp at htexts
    | cons first rest =>
      rw [List.map_cons, List.map_cons, List.cons.injEq] at htexts
      rw [toList_intercalate_cons _ _ _ _ htexts.2, listed, htexts.1]

end Form

namespace Expr

mutual

/-- The form of an expression has the text of the expression. -/
theorem text_form : (expr : Expr) → expr.form.text = expr.text.toList
  | int value => by
    rw [form, text, Number.operandOfInt]
    split
    · simp [Form.text, Form.listed, Form.following, Bracket.opening, Bracket.closing]
    · rfl
  | float value => rfl
  | bool value => rfl
  | intSet values => by
    have helements := Form.toList_intercalate (values.elements.map Text.integerText)
      (values.elements.map fun value => .word (Text.integerText value))
      (by simp [Form.text, Function.comp_def])
    simp [form, text, Form.text, IntSet.text, helements, Bracket.opening, Bracket.closing]
  | identifier name kind => rfl
  | raw text => rfl
  | arithmetic op left right => by
    simp [form, text, Form.text, Form.following, binaryText, text_form left, text_form right]
  | comparison op left right => by
    simp [form, text, Form.text, Form.following, binaryText, text_form left, text_form right]
  | connective op [] => by
    simp [form, text, texts, Form.text, Form.listed, Bracket.opening, Bracket.closing]
  | connective op (first :: rest) => by
    have hrest := Form.toList_intercalate_cons (" " ++ op.token ++ " ") first.text (texts rest)
      (forms rest) (texts_forms rest)
    simp [form, text, texts, Form.text, hrest, text_form first]
  | negation operand => by
    simp [form, text, Form.text, Form.listed, Form.following, callText, text_form operand,
      Bracket.opening, Bracket.closing]
  | power base exponent => by
    simp [form, text, Form.text, Form.listed, Form.following, callText, text_form base,
      text_form exponent, Bracket.opening, Bracket.closing]
  | absolute operand => by
    simp [form, text, Form.text, Form.listed, Form.following, callText, text_form operand,
      Bracket.opening, Bracket.closing]
  | reduction function operands => by
    have hoperands := Form.toList_intercalate (texts operands) (forms operands)
      (texts_forms operands)
    simp [form, text, Form.text, Form.listed, Form.following, callText, listText, hoperands,
      Bracket.opening, Bracket.closing]
  | setMeasure function set => by
    simp [form, text, Form.text, Form.listed, Form.following, callText, text_form set,
      Bracket.opening, Bracket.closing]
  | array elements => by
    have helements := Form.toList_intercalate (texts elements) (forms elements)
      (texts_forms elements)
    simp [form, text, Form.text, listText, helements, Bracket.opening, Bracket.closing]
  | predicate global arguments => by
    have harguments := Form.toList_intercalate (texts arguments) (forms arguments)
      (texts_forms arguments)
    simp [form, text, Form.text, callText, harguments, Bracket.opening, Bracket.closing]
  | conditional test thenValue elseValue => by
    simp [form, text, Form.text, text_form test, text_form thenValue, text_form elseValue]
  | access constant kind indices => by
    have hindices := Form.toList_intercalate (texts indices) (forms indices)
      (texts_forms indices)
    simp [form, text, Form.text, listText, hindices, Bracket.opening, Bracket.closing]
  | membership element set => by
    simp [form, text, Form.text, Form.following, binaryText, text_form element, text_form set]
  | intersection left right => by
    simp [form, text, Form.text, Form.following, binaryText, text_form left, text_form right]

theorem texts_forms : (exprs : List Expr) →
    (forms exprs).map Form.text = (texts exprs).map String.toList
  | [] => rfl
  | first :: rest => by
    rw [forms, texts, List.map_cons, List.map_cons, text_form first, texts_forms rest]

end

end Expr

/-- Declared names, each of them valid and of one kind. -/
structure NameTable where
  kind? : String → Option Kind
  valid {name : String} {kind : Kind} (declared : kind? name = some kind) :
    Identifier.isValid name = true

/-- The table of a single variable. -/
def NameTable.ofVariable (declared : Variable)
    (hvalid : Identifier.isValid declared.name = true) : NameTable where
  kind? name := if name = declared.name then some declared.kind else none
  valid {name} {kind} hname := by
    split at hname
    · rename_i heq
      rwa [heq]
    · cases hname

/-- The names of a table, without floats and verbatim texts. -/
def NameTable.vocabulary (table : NameTable) : Vocabulary where
  HasVariable declared := table.kind? declared.name = some declared.kind
  HasConstant declared := table.kind? declared.name = some declared.kind
  HasFloat _ := False
  HasRaw _ := False

namespace Form

variable (table : NameTable)

def readWord? (name : String) : Option Expr :=
  if name = boolText true then some (.bool true)
  else if name = boolText false then some (.bool false)
  else
    match Text.readInteger? name.toList with
    | some value => some (.int value)
    | none => (table.kind? name).map (.identifier name)

/-- The value of an integer literal. -/
def literal? : Expr → Option Int64
  | .int value => some value
  | _ => none

/-- Predicates go by their names; the functions differ in what they are applied to. -/
def readCall? (name : String) (arguments : List Expr) : Option Expr :=
  match Global.all.find? (fun global => global.name = name), arguments with
  | some global, _ => some (.predicate global arguments)
  | none, [.array elements] =>
    ([.sum, .product, .minimum, .maximum].find? fun function => function.token = name).map
      fun function => .reduction function elements
  | none, [operand] =>
    if name = "not" then some (.negation operand)
    else if name = "abs" then some (.absolute operand)
    else
      ([.cardinality, .minimum, .maximum].find? fun function => function.token = name).map
        fun function => .setMeasure function operand
  | none, [base, exponent] => some (.power base exponent)
  | none, _ => none

def readEnclosed? (name : String) (bracket : Bracket) (elements : List Expr) : Option Expr :=
  match bracket with
  | .round => if name = "" then elements.head? else readCall? name elements
  | .square =>
    if name = "" then some (.array elements)
    else (table.kind? name).map fun kind => .access name kind elements
  | .curly => (elements.mapM literal?).map Expr.setOf

def readJoined? (token : String) (operands : List Expr) : Option Expr :=
  match [.and, .or, .xor, .implies, .onlyIf, .iff].find? (fun op => op.token = token),
    operands with
  | some op, _ => some (.connective op operands)
  | none, [left, right] =>
    if token = "in" then some (.membership left right)
    else if token = "intersect" then some (.intersection left right)
    else
      match [.add, .sub, .mul, .divide, .intDiv, .modulo].find? fun op => op.token = token with
      | some op => some (.arithmetic op left right)
      | none =>
        ([.equal, .notEqual, .less, .lessOrEqual, .greater, .greaterOrEqual].find?
          fun op => op.token = token).map fun op => .comparison op left right
  | none, _ => none

mutual

/-- The expression that is printed in a form. -/
def read? : Form → Option Expr
  | word name => readWord? table name
  | enclosed name bracket elements =>
    match readAll? elements with
    | some operands => readEnclosed? table name bracket operands
    | none => none
  | joined token first rest =>
    match read? first, readAll? rest with
    | some operand, some operands => readJoined? token (operand :: operands)
    | _, _ => none
  | choice test thenForm elseForm =>
    match read? test, read? thenForm, read? elseForm with
    | some condition, some thenValue, some elseValue =>
      some (.conditional condition thenValue elseValue)
    | _, _, _ => none

def readAll? : List Form → Option (List Expr)
  | [] => some []
  | first :: rest =>
    match read? first, readAll? rest with
    | some operand, some operands => some (operand :: operands)
    | _, _ => none

end

variable {table : NameTable}

theorem readWord?_integerText (value : Int64) :
    readWord? table (Text.integerText value) = some (.int value) := by
  have htrue : Text.integerText value ≠ boolText true := Text.integerText_ne (by decide)
  have hfalse : Text.integerText value ≠ boolText false := Text.integerText_ne (by decide)
  rw [readWord?, if_neg htrue, if_neg hfalse, Text.readInteger?_integerText]

theorem readWord?_boolText (value : Bool) :
    readWord? table (boolText value) = some (.bool value) := by
  cases value <;> rfl

theorem readWord?_identifier {name : String} {kind : Kind} (hname : table.kind? name = some kind) :
    readWord? table name = some (.identifier name kind) := by
  have hvalid := table.valid hname
  have hwords := Identifier.not_mem_reservedWords hvalid
  have htrue : name ≠ boolText true := by
    rintro rfl
    exact hwords (by decide)
  have hfalse : name ≠ boolText false := by
    rintro rfl
    exact hwords (by decide)
  rw [readWord?, if_neg htrue, if_neg hfalse, Identifier.readInteger?_eq_none hvalid]
  simp [hname]

theorem readAll?_words (values : List Int64) :
    readAll? table (values.map fun value => .word (Text.integerText value)) =
      some (values.map .int) := by
  induction values with
  | nil => rfl
  | cons value values ih =>
    rw [List.map_cons, readAll?, read?, readWord?_integerText, ih, List.map_cons]

theorem mapM_literal? (values : List Int64) :
    (values.map Expr.int).mapM literal? = some values := by
  induction values with
  | nil => rfl
  | cons value values ih => simp [literal?, ih]

theorem readAll?_forms {exprs : List Expr}
    (hexprs : ∀ expr ∈ exprs, read? table expr.form = some expr) :
    readAll? table (Expr.forms exprs) = some exprs := by
  induction exprs with
  | nil => rfl
  | cons first rest ih =>
    rw [List.forall_mem_cons] at hexprs
    rw [Expr.forms, readAll?, hexprs.1, ih hexprs.2]

theorem read?_enclosed {name : String} {bracket : Bracket} {operands : List Expr}
    (hoperands : ∀ operand ∈ operands, read? table operand.form = some operand) :
    read? table (.enclosed name bracket (Expr.forms operands)) =
      readEnclosed? table name bracket operands := by
  rw [read?, readAll?_forms hoperands]

theorem read?_joined {token : String} {first : Expr} {rest : List Expr}
    (hoperands : ∀ operand ∈ first :: rest, read? table operand.form = some operand) :
    read? table (.joined token first.form (Expr.forms rest)) =
      readJoined? token (first :: rest) := by
  rw [List.forall_mem_cons] at hoperands
  rw [read?, hoperands.1, readAll?_forms hoperands.2]

theorem readJoined?_connective (op : Connective) (operands : List Expr) :
    readJoined? op.token operands = some (.connective op operands) := by
  cases op <;> rfl

theorem readJoined?_arithmetic (op : ArithmeticOp) (left right : Expr) :
    readJoined? op.token [left, right] = some (.arithmetic op left right) := by
  cases op <;> rfl

theorem readJoined?_comparison (op : ComparisonOp) (left right : Expr) :
    readJoined? op.token [left, right] = some (.comparison op left right) := by
  cases op <;> rfl

theorem readEnclosed?_round {name : String} (hname : name ≠ "") (operands : List Expr) :
    readEnclosed? table name .round operands = readCall? name operands := by
  simp [readEnclosed?, hname]

theorem readCall?_predicate (global : Global) (arguments : List Expr) :
    readCall? global.name arguments = some (.predicate global arguments) := by
  cases global <;> rfl

theorem readCall?_reduction (function : Reduction) (operands : List Expr) :
    readCall? function.token [.array operands] = some (.reduction function operands) := by
  cases function <;> rfl

theorem readCall?_unary {function : String} {operand : Expr} (hoperand : operand.isArray = false)
    (hfunction : Global.all.find? (fun global => global.name = function) = none) :
    readCall? function [operand] =
      if function = "not" then some (.negation operand)
      else if function = "abs" then some (.absolute operand)
      else ([.cardinality, .minimum, .maximum].find? fun measure => measure.token = function).map
        fun measure => .setMeasure measure operand := by
  cases operand with
  | array elements => cases hoperand
  | _ => simp only [readCall?, hfunction]

theorem readCall?_setMeasure {function : SetMeasure} {operand : Expr}
    (hoperand : operand.isArray = false) :
    readCall? function.token [operand] = some (.setMeasure function operand) := by
  cases function <;> exact readCall?_unary hoperand rfl

theorem readCall?_power (base exponent : Expr) :
    readCall? "pow" [base, exponent] = some (.power base exponent) := by
  have hfunction : Global.all.find? (fun global => global.name = "pow") = none := rfl
  simp only [readCall?, hfunction]

/-- Operands are no arrays, so a function of one operand is no reduction. -/
theorem isArray_of_holdsNoArray {expr operand : Expr} (hholds : expr.HoldsNoArray)
    (hchildren : expr.children = [operand])
    (hexpr : ∀ global arguments, expr ≠ .predicate global arguments) :
    operand.isArray = false := by
  rcases hholds with ⟨global, arguments, heq⟩ | hholds
  · exact absurd heq (hexpr global arguments)
  · exact hholds operand (by simp [hchildren])

/-- A well-formed expression can be read back from its form. -/
theorem read?_form {expr : Expr} (hfits : expr.Everywhere (Expr.Fits table.vocabulary))
    (hholds : expr.Everywhere Expr.HoldsNoArray) : read? table expr.form = some expr := by
  induction hfits with
  | @node expr here below ih =>
    obtain ⟨hplace, hholds⟩ := hholds
    have hread : ∀ child ∈ expr.children, read? table child.form = some child :=
      fun child hmem => ih child hmem (hholds child hmem)
    cases expr with
    | int value =>
      rw [Expr.form]
      split
      · simp [read?, readAll?, readEnclosed?, readWord?_integerText]
      · rw [read?, readWord?_integerText]
    | float value => exact here.elim
    | bool value => exact readWord?_boolText value
    | intSet values =>
      rw [Expr.form, read?, readAll?_words]
      simp only [readEnclosed?, mapM_literal?, Option.map_some, Expr.setOf,
        IntSet.ofList_elements]
    | identifier name kind =>
      rcases here with ⟨declared, hdeclared, rfl, rfl⟩ | ⟨declared, hdeclared, rfl, rfl, -⟩
      · exact readWord?_identifier hdeclared
      · exact readWord?_identifier hdeclared
    | raw text => exact here.elim
    | arithmetic op left right => exact (read?_joined hread).trans (readJoined?_arithmetic ..)
    | comparison op left right => exact (read?_joined hread).trans (readJoined?_comparison ..)
    | connective op operands =>
      cases operands with
      | nil => exact absurd here.1 (by decide)
      | cons first rest => exact (read?_joined hread).trans (readJoined?_connective ..)
    | negation operand =>
      have hoperand := isArray_of_holdsNoArray hplace rfl (by simp)
      exact (read?_enclosed hread).trans (readCall?_unary hoperand rfl)
    | power base exponent => exact (read?_enclosed hread).trans (readCall?_power ..)
    | absolute operand =>
      have hoperand := isArray_of_holdsNoArray hplace rfl (by simp)
      exact (read?_enclosed hread).trans (readCall?_unary hoperand rfl)
    | reduction function operands =>
      have hname : function.token ≠ "" := by cases function <;> decide
      have harray : read? table (Expr.form (.array operands)) = some (.array operands) :=
        read?_enclosed hread
      have hcall : read? table (.enclosed function.token .round (Expr.forms [.array operands])) =
          readEnclosed? table function.token .round [.array operands] :=
        read?_enclosed (by simpa using harray)
      exact hcall.trans ((readEnclosed?_round hname _).trans (readCall?_reduction ..))
    | setMeasure function set =>
      have hname : function.token ≠ "" := by cases function <;> decide
      have hset := isArray_of_holdsNoArray hplace rfl (by simp)
      exact (read?_enclosed hread).trans
        ((readEnclosed?_round hname _).trans (readCall?_setMeasure hset))
    | array elements => exact read?_enclosed hread
    | predicate global arguments =>
      have hname : global.name ≠ "" := by cases global <;> decide
      exact (read?_enclosed hread).trans
        ((readEnclosed?_round hname _).trans (readCall?_predicate ..))
    | conditional test thenValue elseValue =>
      simp only [Expr.children, List.forall_mem_cons] at hread
      rw [Expr.form, read?, hread.1, hread.2.1, hread.2.2.1]
    | access name kind indices =>
      obtain ⟨declared, hdeclared, rfl, rfl, -, -⟩ := here
      have hname := Identifier.ne_empty (table.valid hdeclared)
      have hkind : table.kind? declared.name = some declared.kind := hdeclared
      apply (read?_enclosed hread).trans
      simp [readEnclosed?, hname, hkind, Expr.children]
    | membership element set => exact read?_joined hread
    | intersection left right => exact read?_joined hread

theorem isWord_integerText (value : Int64) : IsWord (Text.integerText value) := by
  intro c hc
  rcases Text.isDigit_or_eq_of_mem_integerText hc with hdigit | rfl
  · simp [isWordCharacter, Identifier.isNameCharacter, Char.isAlphanum, hdigit]
  · decide

theorem proper_integerText (value : Int64) : (word (Text.integerText value)).Proper :=
  ⟨isWord_integerText value, Text.integerText_ne_empty value, Text.integerText_ne (by decide)⟩

theorem isWord_of_isValid {name : String} (hvalid : Identifier.isValid name = true) :
    IsWord name := by
  intro c hc
  simp [isWordCharacter, Identifier.isNameCharacter_of_mem hvalid c hc]

theorem proper_identifier {name : String} (hvalid : Identifier.isValid name = true) :
    (word name).Proper := by
  refine ⟨isWord_of_isValid hvalid, Identifier.ne_empty hvalid, ?_⟩
  rintro rfl
  exact absurd hvalid (by decide)

theorem allProper_forms {exprs : List Expr} (hexprs : ∀ expr ∈ exprs, expr.form.Proper) :
    AllProper (Expr.forms exprs) := by
  rw [allProper_iff, Expr.forms_eq_map]
  simpa using hexprs

/-- The form of a well-formed expression is a proper one. -/
theorem proper_form {expr : Expr} (hfits : expr.Everywhere (Expr.Fits table.vocabulary)) :
    expr.form.Proper := by
  induction hfits with
  | @node expr here below ih =>
    cases expr with
    | int value =>
      rw [Expr.form]
      split
      · exact ⟨by decide, proper_integerText value, trivial⟩
      · exact proper_integerText value
    | float value => exact here.elim
    | bool value => cases value <;> exact ⟨by decide, by decide, by decide⟩
    | intSet values =>
      refine ⟨by decide, allProper_iff.mpr ?_⟩
      intro form hform
      obtain ⟨value, -, rfl⟩ := List.mem_map.mp hform
      exact proper_integerText value
    | identifier name kind =>
      rcases here with ⟨declared, hdeclared, rfl, rfl⟩ | ⟨declared, hdeclared, rfl, rfl, -⟩
      · exact proper_identifier (table.valid hdeclared)
      · exact proper_identifier (table.valid hdeclared)
    | raw text => exact here.elim
    | arithmetic op left right =>
      simp only [Expr.children, List.forall_mem_cons] at ih
      exact ⟨by cases op <;> decide, by simp, ih.1, ih.2.1, trivial⟩
    | comparison op left right =>
      simp only [Expr.children, List.forall_mem_cons] at ih
      exact ⟨by cases op <;> decide, by simp, ih.1, ih.2.1, trivial⟩
    | connective op operands =>
      cases operands with
      | nil => exact absurd here.1 (by decide)
      | cons first rest =>
        simp only [Expr.children, List.forall_mem_cons] at ih
        have hrest : Expr.forms rest ≠ [] := by
          cases rest with
          | nil => exact absurd here.1 (by simp)
          | cons second rest => simp [Expr.forms]
        exact ⟨by cases op <;> decide, hrest, ih.1, allProper_forms ih.2⟩
    | negation operand => exact ⟨by decide, allProper_forms ih⟩
    | power base exponent => exact ⟨by decide, allProper_forms ih⟩
    | absolute operand => exact ⟨by decide, allProper_forms ih⟩
    | reduction function operands =>
      exact ⟨by cases function <;> decide, ⟨by decide, allProper_forms ih⟩,
        trivial⟩
    | setMeasure function set =>
      exact ⟨by cases function <;> decide, allProper_forms ih⟩
    | array elements => exact ⟨by decide, allProper_forms ih⟩
    | predicate global arguments =>
      exact ⟨by cases global <;> decide, allProper_forms ih⟩
    | conditional test thenValue elseValue =>
      simp only [Expr.children, List.forall_mem_cons] at ih
      exact ⟨ih.1, ih.2.1, ih.2.2.1⟩
    | access name kind indices =>
      obtain ⟨declared, hdeclared, rfl, rfl, -, -⟩ := here
      exact ⟨isWord_of_isValid (table.valid hdeclared), allProper_forms ih⟩
    | membership element set =>
      simp only [Expr.children, List.forall_mem_cons] at ih
      exact ⟨by decide, by simp, ih.1, ih.2.1, trivial⟩
    | intersection left right =>
      simp only [Expr.children, List.forall_mem_cons] at ih
      exact ⟨by decide, by simp, ih.1, ih.2.1, trivial⟩

end Form

namespace Expr

/-- Over one table of names, different expressions have different texts. -/
theorem text_injective (table : NameTable) {left right : Expr}
    (hleft : Built table.vocabulary left) (hright : Built table.vocabulary right)
    (heq : left.text = right.text) : left = right := by
  have hleftFormed := hleft.wellFormed
  have hrightFormed := hright.wellFormed
  have hforms : left.form.text = right.form.text := by
    rw [text_form, text_form, heq]
  obtain ⟨hform, -⟩ := Form.text_append_inj left.form right.form [] []
    (Form.proper_form hleftFormed.fits) (Form.proper_form hrightFormed.fits)
    Form.ends_nil Form.ends_nil (by rw [hforms])
  have hreadLeft := Form.read?_form hleftFormed.fits hleftFormed.holdsNoArray
  rw [hform, Form.read?_form hrightFormed.fits hrightFormed.holdsNoArray] at hreadLeft
  exact (Option.some.inj hreadLeft).symm

/-- The negated variable and its difference from zero have one text, so they are one
expression. -/
theorem text_injective_negate :
    ∃ left right, negate (Variable.toExpr ⟨"x", .bool⟩) = .ok left ∧
      sub (int 0) (Variable.toExpr ⟨"x", .bool⟩) = .ok right ∧ left.text = right.text ∧
      left = right := by
  refine ⟨_, _, rfl, rfl, rfl, ?_⟩
  have hx : Built (NameTable.ofVariable ⟨"x", .bool⟩ (by decide)).vocabulary
      (Variable.toExpr ⟨"x", .bool⟩) := .ofVariable rfl
  have hnegate : negate ∈ unaryFunctions := by simp [unaryFunctions]
  have hsub : sub ∈ binaryFunctions := by simp [binaryFunctions]
  exact text_injective _ (.unary hnegate hx rfl) (.binary hsub (.int 0) hx rfl) rfl

end Expr

end MiniZincModels
