import MiniZincModels.Declaration.IndexKey
import MiniZincModels.Declaration.Variable
import MiniZincModels.Expr.Arithmetic
import MiniZincModels.Failure

/-!
# Collections of variables

An indexed collection holds variables under keys, in the order in which the keys
were added.  The place of every key is noted beside the entries, so that a key that
is added again replaces its variable in place.
-/

namespace MiniZincModels

/-- Variables under keys in the order of insertion, and the noted places of the keys. -/
structure Collection where
  entries : List (IndexKey × Variable)
  places : List (IndexKey × Nat)

namespace Collection

def empty : Collection := ⟨[], []⟩

def size (collection : Collection) : Nat :=
  collection.entries.length

/-- The place which is noted for a key. -/
def position? (collection : Collection) (key : IndexKey) : Option Nat :=
  collection.places.lookup key

/-- Replaces the variable at the place of the key, or puts a new entry at the end and notes
its place. -/
def insert (collection : Collection) (key : IndexKey) (declared : Variable) : Collection :=
  match collection.position? key with
  | some place =>
    { collection with
      entries := collection.entries.modify place fun entry => (entry.1, declared) }
  | none =>
    { entries := collection.entries ++ [(key, declared)]
      places := collection.places ++ [(key, collection.size)] }

/-- The variable at the place of the key. -/
def get? (collection : Collection) (key : IndexKey) : Option Variable :=
  (collection.position? key).bind fun place => collection.entries[place]?.map Prod.snd

def keys (collection : Collection) : List IndexKey :=
  collection.entries.map Prod.fst

def vars (collection : Collection) : List Variable :=
  collection.entries.map Prod.snd

/-- The variables as expressions. -/
def exprs (collection : Collection) : List Expr :=
  collection.vars.map Variable.toExpr

/-- The variable under a key that has to be there. -/
def item (collection : Collection) (key : IndexKey) : Except Misuse Variable :=
  match collection.get? key with
  | some declared => .ok declared
  | none => .error (.missingKey key.quoted)

def insertAll (collection : Collection) (added : List (IndexKey × Variable)) : Collection :=
  added.foldl (fun extended entry => extended.insert entry.1 entry.2) collection

/-- Both collections together; where a key is in both, the right entry counts. -/
def merge (left right : Collection) : Collection :=
  left.insertAll right.entries

/-- Compares every variable with one and the same expression. -/
def compareAll (collection : Collection) (op : ComparisonOp) (right : Expr) :
    Except ModelError (List Expr) :=
  collection.vars.mapM fun declared => declared.toExpr.compare op right

end Collection

end MiniZincModels
