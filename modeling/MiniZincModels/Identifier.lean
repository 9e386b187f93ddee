/-!
# Identifiers

The names which may be declared in a model, and the replacement that turns any
text into the characters of such names.
-/

namespace MiniZincModels.Identifier

/-- The words of the modelling language which cannot be declared. -/
def reservedWords : List String :=
  ["ann", "annotation", "any", "array", "bool", "case", "constraint", "default", "diff", "div",
    "else", "elseif", "endif", "enum", "false", "float", "function", "if", "in", "include", "int",
    "intersect", "let", "list", "maximize", "minimize", "mod", "not", "of", "op", "opt", "output",
    "par", "predicate", "record", "satisfy", "set", "solve", "string", "subset", "superset",
    "symdiff", "test", "then", "true", "tuple", "type", "union", "var", "where"]

/-- The characters which may follow the first one of an identifier: ASCII letters
and digits and the underscore. -/
def isNameCharacter (c : Char) : Bool :=
  c.isAlphanum || c == '_'

/-- An identifier starts with an ASCII letter, goes on with name characters and is
not a reserved word. -/
def isValid (name : String) : Bool :=
  match name.toList with
  | [] => false
  | first :: rest =>
    first.isAlpha && rest.all isNameCharacter && !reservedWords.contains name

/-- Puts an underscore in the place of every character that cannot occur in a name. -/
def sanitize (text : String) : String :=
  String.ofList (text.toList.map fun c => if isNameCharacter c then c else '_')

end MiniZincModels.Identifier
