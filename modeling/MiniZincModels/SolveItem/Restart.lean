import MiniZincModels.Error

/-!
# Restart strategies

A solver may restart its search after a number of failures, which grows from run
to run as the strategy says.
-/

namespace MiniZincModels

/-- How the number of failures before the next restart grows from the scale. -/
inductive RestartStrategy
  | constant (scale : Nat)
  | linear (scale : Nat)
  | geometric (base : Binary64) (scale : Nat)
  | luby (scale : Nat)
deriving DecidableEq

namespace RestartStrategy

def scale : RestartStrategy → Nat
  | constant scale => scale
  | linear scale => scale
  | geometric _ scale => scale
  | luby scale => scale

/-- The double 1.0. -/
def one : Binary64 := Binary64.ofInt64 1

/-- Accepts a positive scale and, for the geometric strategy, a base above one. -/
def validate (strategy : RestartStrategy) : Except ModelError RestartStrategy :=
  if strategy.scale = 0 then .error (.search .zeroScale)
  else
    match strategy with
    | geometric base _ =>
      if one.less base then .ok strategy else .error (.search (.smallBase base))
    | _ => .ok strategy

def text : RestartStrategy → String
  | constant scale => "restart_constant(" ++ toString scale ++ ")"
  | linear scale => "restart_linear(" ++ toString scale ++ ")"
  | geometric base scale => "restart_geometric(" ++ base.text ++ ", " ++ toString scale ++ ")"
  | luby scale => "restart_luby(" ++ toString scale ++ ")"

end RestartStrategy

end MiniZincModels
