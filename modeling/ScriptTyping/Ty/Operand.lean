import ScriptTyping.Ty.Basic

/-!
The common type that both operands of a binary operator are converted to.
-/

namespace ScriptTyping

inductive OperatorClass where
  /-- `+ - * / %`; a `String` operand makes a concatenation. -/
  | additive
  /-- Shifts and `& | ^`. -/
  | bitwise
  /-- `< <= > >=`. -/
  | comparator
  /-- `== !=`. -/
  | equator
  deriving DecidableEq, Repr

namespace Prim

def joinIntegral? (left right : Prim) : Option Prim :=
  match left.integralRank?, right.integralRank? with
  | some low, some high => some (if max low high > 3 then .long else .int)
  | _, _ => none

def joinNumeric? (left right : Prim) : Option Prim :=
  if !left.isNumeric || !right.isNumeric then none
  else if left = .double ∨ right = .double then some .double
  else if left = .float ∨ right = .float then some .float
  else joinIntegral? left right

end Prim

namespace OperatorClass

def joinNumeric? (left right : Ty) : Option Ty :=
  match left.prim?, right.prim? with
  | some left, some right => (Prim.joinNumeric? left right).map .prim
  | _, _ => none

def join? (operatorClass : OperatorClass) (left right : Ty) : Option Ty :=
  match operatorClass with
  | .additive => if left.isString || right.isString then some .string else joinNumeric? left right
  | .comparator => joinNumeric? left right
  | .bitwise =>
    match left.prim?, right.prim? with
    | some .bool, some .bool => some .bool
    | some left, some right => (Prim.joinIntegral? left right).map .prim
    | _, _ => none
  | .equator =>
    match left.prim?, right.prim? with
    | some .bool, some .bool => some .bool
    | some _, some _ => joinNumeric? left right
    | _, _ =>
      if left.isReference && right.isReference then
        some (if left == right then left else .object)
      else none

end OperatorClass

end ScriptTyping
