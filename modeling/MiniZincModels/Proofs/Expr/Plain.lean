import MiniZincModels.Proofs.Expr.Scope
import MiniZincModels.Proofs.Model.Building

/-!
# Plain expressions

A plain expression holds no verbatim text.  Its text is put together from literals and
names by a few patterns, so a property of texts which literals and names have and which
the patterns keep is a property of the text of every plain expression.
-/

namespace MiniZincModels.Expr

section Plain

variable (isName : String → Prop)

/-- No verbatim text, and no names but those of a class. -/
def IsPlain : Expr → Prop
  | raw _ => False
  | identifier name _ => isName name
  | access constant _ _ => isName constant
  | _ => True

/-- The operators between two operands. -/
def binaryTokens : List String :=
  ["+", "-", "*", "/", "div", "mod", "=", "!=", "<", "<=", ">", ">=", "in", "intersect"]

/-- The operators between any number of conditions. -/
def connectiveTokens : List String :=
  ["/\\", "\\/", "xor", "->", "<-", "<->"]

/-- The functions and predicates, which are written in front of their arguments. -/
def functionNames : List String :=
  ["not", "pow", "abs", "sum", "product", "min", "max", "card"] ++ Global.all.map Global.name

/-- A property which literals and names have, and which the patterns of expressions keep. -/
structure IsTextual (property : String → Prop) : Prop where
  int : ∀ value, property (Number.operandOfInt value)
  float : ∀ value, property (Number.operandOfFloat value)
  bool : ∀ value, property (boolText value)
  intSet : ∀ values : IntSet, property values.text
  name : ∀ name, isName name → property name
  binary : ∀ token ∈ binaryTokens, ∀ left right, property left → property right →
    property (binaryText left token right)
  joined : ∀ token ∈ connectiveTokens, ∀ operands, (∀ operand ∈ operands, property operand) →
    property ("(" ++ (" " ++ token ++ " ").intercalate operands ++ ")")
  call : ∀ function ∈ functionNames, ∀ arguments, (∀ argument ∈ arguments, property argument) →
    property (callText function arguments)
  list : ∀ elements, (∀ element ∈ elements, property element) → property (listText elements)
  choice : ∀ test thenText elseText, property test → property thenText → property elseText →
    property ("(if " ++ test ++ " then " ++ thenText ++ " else " ++ elseText ++ " endif)")
  access : ∀ name, isName name → ∀ indices, (∀ index ∈ indices, property index) →
    property (name ++ listText indices)

end Plain

theorem IsPlain.isName_of_name? {isName : String → Prop} {expr : Expr} {name : String}
    (hplain : IsPlain isName expr) (hname : expr.name? = some name) : isName name := by
  cases expr with
  | identifier | access =>
    cases hname
    exact hplain
  | _ => cases hname

section Text

variable {isName property : String → Prop} {expr : Expr}

theorem forall_mem_texts {exprs : List Expr} (h : ∀ expr ∈ exprs, property expr.text) :
    ∀ part ∈ texts exprs, property part := by
  rw [texts_eq_map, List.forall_mem_map]
  exact h

/-- What is textual holds of the text of every plain expression. -/
theorem IsTextual.text (h : IsTextual isName property) (hplain : expr.Everywhere (IsPlain isName)) :
    property expr.text := by
  induction hplain with
  | @node expr here _ ih =>
    cases expr with
    | int value => exact h.int value
    | float value => exact h.float value
    | bool value => exact h.bool value
    | intSet values => exact h.intSet values
    | identifier name kind => exact h.name name here
    | raw text => exact here.elim
    | arithmetic op left right =>
      simp only [children, List.forall_mem_cons] at ih
      exact h.binary op.token (by cases op <;> decide) _ _ ih.1 ih.2.1
    | comparison op left right =>
      simp only [children, List.forall_mem_cons] at ih
      exact h.binary op.token (by cases op <;> decide) _ _ ih.1 ih.2.1
    | connective op operands =>
      exact h.joined op.token (by cases op <;> decide) _ (forall_mem_texts ih)
    | negation operand => exact h.call "not" (by decide) _ (forall_mem_texts ih)
    | power base exponent => exact h.call "pow" (by decide) _ (forall_mem_texts ih)
    | absolute operand => exact h.call "abs" (by decide) _ (forall_mem_texts ih)
    | reduction function operands =>
      have hlist := h.list _ (forall_mem_texts ih)
      exact h.call function.token (by cases function <;> decide) _
        (List.forall_mem_singleton.mpr hlist)
    | setMeasure function set =>
      exact h.call function.token (by cases function <;> decide) _ (forall_mem_texts ih)
    | array elements => exact h.list _ (forall_mem_texts ih)
    | predicate global arguments =>
      exact h.call global.name (by cases global <;> decide) _ (forall_mem_texts ih)
    | conditional test thenValue elseValue =>
      simp only [children, List.forall_mem_cons] at ih
      exact h.choice _ _ _ ih.1 ih.2.1 ih.2.2.1
    | access constant kind indices => exact h.access constant here _ (forall_mem_texts ih)
    | membership element set =>
      simp only [children, List.forall_mem_cons] at ih
      exact h.binary "in" (by decide) _ _ ih.1 ih.2.1
    | intersection left right =>
      simp only [children, List.forall_mem_cons] at ih
      exact h.binary "intersect" (by decide) _ _ ih.1 ih.2.1

end Text

/-! ## Expressions without raw text -/

/-- Names that can be declared, and no verbatim text. -/
abbrev IsDeclarable : Expr → Prop :=
  IsPlain fun name => Identifier.isValid name = true

theorem Fits.isDeclarable {expr : Expr} (hfits : Fits Vocabulary.withoutRaw expr) :
    expr.IsDeclarable := by
  cases expr with
  | identifier name kind =>
    rcases hfits with ⟨declared, hvalid, rfl, -⟩ | ⟨declared, hvalid, rfl, -⟩
    · exact hvalid
    · exact hvalid
  | access constant kind indices =>
    obtain ⟨declared, hvalid, rfl, -⟩ := hfits
    exact hvalid
  | raw text => exact hfits
  | _ => trivial

theorem everywhere_isDeclarable {expr : Expr}
    (hfits : expr.Everywhere (Fits Vocabulary.withoutRaw)) : expr.Everywhere IsDeclarable := by
  induction hfits with
  | node here _ ih => exact .node here.isDeclarable ih

theorem Built.isDeclarable {expr : Expr} (hbuilt : Built Vocabulary.withoutRaw expr) :
    expr.Everywhere IsDeclarable :=
  everywhere_isDeclarable hbuilt.wellFormed.fits

/-- The names of an expression are those which it mentions. -/
theorem Everywhere.isPlain_mentions {isName mentioned : String → Prop} {expr : Expr}
    (hplain : expr.Everywhere (IsPlain isName))
    (hmentioned : ∀ name, expr.Mentions name → mentioned name) :
    expr.Everywhere (IsPlain fun name => isName name ∧ mentioned name) := by
  induction hplain with
  | @node expr here _ ih =>
    refine .node ?_ fun child hmem => ih child hmem fun name hname =>
      hmentioned name (.child hmem hname)
    cases expr with
    | identifier name kind => exact ⟨here, hmentioned name (.node rfl)⟩
    | access constant kind indices => exact ⟨here, hmentioned constant (.node rfl)⟩
    | raw text => exact here
    | _ => trivial

end MiniZincModels.Expr
