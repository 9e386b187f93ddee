import MiniZincModels.Proofs.Expr.Built

/-!
# The names in an expression

An expression refers to declarations by their names.  What was built from some
declarations can as well be built from these and more, so it does not matter whether
the others were made before it or after it.
-/

namespace MiniZincModels

/-- All words of the vocabulary belong to another one as well. -/
structure Vocabulary.Within (vocabulary larger : Vocabulary) : Prop where
  vars : ∀ declared, vocabulary.HasVariable declared → larger.HasVariable declared
  constants : ∀ declared, vocabulary.HasConstant declared → larger.HasConstant declared
  floats : ∀ value, vocabulary.HasFloat value → larger.HasFloat value
  raws : ∀ text, vocabulary.HasRaw text → larger.HasRaw text

namespace Expr

theorem Built.mono {vocabulary larger : Vocabulary} (hwithin : vocabulary.Within larger)
    {expr : Expr} (hbuilt : Built vocabulary expr) : Built larger expr := by
  induction hbuilt with
  | int value => exact .int value
  | bool value => exact .bool value
  | setOf values => exact .setOf values
  | float hvalue => exact .float (hwithin.floats _ hvalue)
  | raw htext => exact .raw (hwithin.raws _ htext)
  | ofVariable hdeclared => exact .ofVariable (hwithin.vars _ hdeclared)
  | ofConstant hdeclared hresult => exact .ofConstant (hwithin.constants _ hdeclared) hresult
  | elementAt hdeclared hresult => exact .elementAt (hwithin.constants _ hdeclared) hresult
  | indexBy hdeclared _ hresult ih => exact .indexBy (hwithin.constants _ hdeclared) ih hresult
  | unary hfunction _ hresult ih => exact .unary hfunction ih hresult
  | unaryOperator hoperator _ hresult ih => exact .unaryOperator hoperator ih hresult
  | binary hfunction _ _ hresult ihleft ihright => exact .binary hfunction ihleft ihright hresult
  | binaryOperator hoperator _ _ hresult ihleft ihright =>
    exact .binaryOperator hoperator ihleft ihright hresult
  | compare _ _ hresult ihleft ihright => exact .compare ihleft ihright hresult
  | compared _ _ hresult ihleft ihright => exact .compared ihleft ihright hresult
  | joinTwo _ _ hresult ihleft ihright => exact .joinTwo ihleft ihright hresult
  | joined _ _ hresult ihleft ihright => exact .joined ihleft ihright hresult
  | listed hfunction _ hresult ih => exact .listed hfunction ih hresult
  | joinAll _ hresult ih => exact .joinAll ih hresult
  | chain _ hresult ih => exact .chain ih hresult
  | ifThenElse _ _ _ hresult ihtest ihthen ihelse => exact .ifThenElse ihtest ihthen ihelse hresult
  | onArray hfactory _ hposted ih => exact .onArray hfactory ih hposted
  | among _ _ hposted ihtotal ihelements => exact .among ihtotal ihelements hposted
  | count _ _ _ hposted ihelements ihvalue ihtotal =>
    exact .count ihelements ihvalue ihtotal hposted
  | onTasks hfactory _ _ hposted ihstarts ihdurations =>
    exact .onTasks hfactory ihstarts ihdurations hposted
  | argSort _ _ hposted ihelements ihpermutation => exact .argSort ihelements ihpermutation hposted
  | diffn _ _ _ _ hposted ihx ihy ihdx ihdy => exact .diffn ihx ihy ihdx ihdy hposted
  | connected _ _ hposted ihnodes ihedges => exact .connected ihnodes ihedges hposted
  | reachable _ _ _ hposted ihroot ihnodes ihedges =>
    exact .reachable ihroot ihnodes ihedges hposted

/-- The declared name that the topmost node stands for. -/
def name? : Expr → Option String
  | identifier name _ => some name
  | access name _ _ => some name
  | _ => none

/-- Somewhere in the expression stands the name. -/
inductive Mentions (name : String) : Expr → Prop
  | node {expr : Expr} (hname : expr.name? = some name) : Mentions name expr
  | child {expr child : Expr} (hmem : child ∈ expr.children) (hchild : Mentions name child) :
    Mentions name expr

theorem Mentions.exists_node {name : String} {property : Expr → Prop} {expr : Expr}
    (hmentions : Mentions name expr) (heverywhere : expr.Everywhere property) :
    ∃ node, node.name? = some name ∧ property node := by
  induction hmentions with
  | node hname =>
    obtain ⟨hhere, -⟩ := heverywhere
    exact ⟨_, hname, hhere⟩
  | child hmem _ ih =>
    obtain ⟨-, hbelow⟩ := heverywhere
    exact ih (hbelow _ hmem)

end Expr

end MiniZincModels
