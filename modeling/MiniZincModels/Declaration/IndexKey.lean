import MiniZincModels.Identifier
import MiniZincModels.Text.Quoted

/-!
# Index keys

The variables of a collection are told apart by keys: integers, texts, single
characters, and tuples and arrays of keys.  The name of the variable for a key is
the base name of the collection followed by the components of the key.
-/

namespace MiniZincModels

/-- The key of a variable in a collection. -/
inductive IndexKey
  | number (value : Int)
  | text (value : String)
  | character (value : Char)
  | tuple (components : List IndexKey)
  | array (components : List IndexKey)

namespace IndexKey

instance : Inhabited IndexKey := ⟨number 0⟩

mutual

/-- Keys of different shape are different, even if their components agree. -/
def decideEq : (left right : IndexKey) → Decidable (left = right)
  | number left, number right =>
    if h : left = right then isTrue (h ▸ rfl) else isFalse fun heq => h (number.inj heq)
  | text left, text right =>
    if h : left = right then isTrue (h ▸ rfl) else isFalse fun heq => h (text.inj heq)
  | character left, character right =>
    if h : left = right then isTrue (h ▸ rfl) else isFalse fun heq => h (character.inj heq)
  | tuple left, tuple right =>
    match decideAllEq left right with
    | isTrue h => isTrue (h ▸ rfl)
    | isFalse h => isFalse fun heq => h (tuple.inj heq)
  | array left, array right =>
    match decideAllEq left right with
    | isTrue h => isTrue (h ▸ rfl)
    | isFalse h => isFalse fun heq => h (array.inj heq)
  | number _, text _ => isFalse nofun
  | number _, character _ => isFalse nofun
  | number _, tuple _ => isFalse nofun
  | number _, array _ => isFalse nofun
  | text _, number _ => isFalse nofun
  | text _, character _ => isFalse nofun
  | text _, tuple _ => isFalse nofun
  | text _, array _ => isFalse nofun
  | character _, number _ => isFalse nofun
  | character _, text _ => isFalse nofun
  | character _, tuple _ => isFalse nofun
  | character _, array _ => isFalse nofun
  | tuple _, number _ => isFalse nofun
  | tuple _, text _ => isFalse nofun
  | tuple _, character _ => isFalse nofun
  | tuple _, array _ => isFalse nofun
  | array _, number _ => isFalse nofun
  | array _, text _ => isFalse nofun
  | array _, character _ => isFalse nofun
  | array _, tuple _ => isFalse nofun

def decideAllEq : (left right : List IndexKey) → Decidable (left = right)
  | [], [] => isTrue rfl
  | [], _ :: _ => isFalse nofun
  | _ :: _, [] => isFalse nofun
  | left :: lefts, right :: rights =>
    match decideEq left right, decideAllEq lefts rights with
    | isTrue h, isTrue hs => isTrue (h ▸ hs ▸ rfl)
    | isFalse h, _ => isFalse fun heq => h (List.cons.inj heq).1
    | _, isFalse hs => isFalse fun heq => hs (List.cons.inj heq).2

end

instance : DecidableEq IndexKey := decideEq

mutual

/-- The components of a key from left to right, as text. -/
def components : IndexKey → List String
  | number value => [toString value]
  | text value => [value]
  | character value => [String.singleton value]
  | tuple keys | array keys => allComponents keys

def allComponents : List IndexKey → List String
  | [] => []
  | first :: rest => first.components ++ allComponents rest

end

mutual

/-- The key as it is quoted in messages: a tuple in round brackets, which for a single
key ends in a comma, and an array in square brackets. -/
def quoted : IndexKey → String
  | number value => toString value
  | text value => Text.quote value
  | character value => Text.quoteCharacter value
  | tuple [only] => "(" ++ only.quoted ++ ",)"
  | tuple keys => "(" ++ ", ".intercalate (allQuoted keys) ++ ")"
  | array keys => "[" ++ ", ".intercalate (allQuoted keys) ++ "]"

def allQuoted : List IndexKey → List String
  | [] => []
  | first :: rest => first.quoted :: allQuoted rest

end

/-- A key of one number. -/
def single (value : Nat) : IndexKey :=
  number value

/-- A key of two numbers. -/
def pair (first second : Nat) : IndexKey :=
  tuple [number first, number second]

/-- The name of the variable for a key: the base and the components, joined by
underscores, with an underscore for every character that no name can hold. -/
def variableName (base : String) (key : IndexKey) : String :=
  Identifier.sanitize ("_".intercalate (base :: key.components))

end IndexKey

end MiniZincModels
