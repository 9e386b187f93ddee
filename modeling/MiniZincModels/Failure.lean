import MiniZincModels.Error

/-!
# Failures

A checked operation refuses its arguments with an error which the caller can
handle.  The operator forms, the look-up of a key that must be there, and sums and
products of machine integers leave the caller no error to handle; where they do
not apply the program is wrong, and it ends with a message.  A program that uses
both kinds of operations can fail in both ways.
-/

namespace MiniZincModels

/-- A result that does not fit into a machine integer, by the operation. -/
inductive Overflow
  | sum
  | product
deriving DecidableEq

/-- A mistake of the program that ends it. -/
inductive Misuse
  | refused (error : ModelError)
  | missingKey (key : String)
  | overflow (overflow : Overflow)
deriving DecidableEq

namespace Misuse

/-- The message with which the program ends. -/
def message : Misuse → String
  | refused error => error.message
  | missingKey key => "no variable with index " ++ key
  | overflow .sum => "attempt to add with overflow"
  | overflow .product => "attempt to multiply with overflow"

/-- Takes the result of a checked function; its refusal is a misuse. -/
def expect {α : Type} : Except ModelError α → Except Misuse α
  | .ok value => .ok value
  | .error error => .error (refused error)

end Misuse

/-- How a program that builds a model can fail. -/
inductive Failure
  | error (error : ModelError)
  | misuse (misuse : Misuse)
deriving DecidableEq

namespace Failure

def message : Failure → String
  | error refusal => refusal.message
  | misuse mistake => mistake.message

end Failure

instance : MonadLift (Except ModelError) (Except Failure) where
  monadLift
    | .ok value => .ok value
    | .error refusal => .error (.error refusal)

instance : MonadLift (Except Misuse) (Except Failure) where
  monadLift
    | .ok value => .ok value
    | .error mistake => .error (.misuse mistake)

end MiniZincModels
