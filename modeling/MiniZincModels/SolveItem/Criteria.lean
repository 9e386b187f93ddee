/-!
# Solve criteria

What a solver is asked to do with a model: find any solution, or one with the
smallest or the largest value of an objective.
-/

namespace MiniZincModels

inductive Criteria
  | satisfy
  | minimize
  | maximize
deriving DecidableEq

namespace Criteria

def text : Criteria → String
  | satisfy => "satisfy"
  | minimize => "minimize"
  | maximize => "maximize"

def all : List Criteria := [satisfy, minimize, maximize]

end Criteria

end MiniZincModels
