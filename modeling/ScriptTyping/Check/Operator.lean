import ScriptTyping.Check.Arguments

/-!
Rules for operators. Operands are first brought to a common type, so that the lookup of the
operator function normally finds one of exactly these types.
-/

namespace ScriptTyping

namespace Rule

open Check

/-- Brings an operand to the common type, where that is possible; the lookup rejects the others.
Gives the type of the operand after that. -/
def operand (slot : Slot) (found joined : Ty) : Check Ty := do
  if found == joined then return found
  else
    match if joined.isString then convertMember? found joined else none with
    | some entry => do
      let node ← occupant slot
      let wrapper ← build (·.convert node .cast joined (.static entry.member))
      noteTyped wrapper
      replace slot wrapper
      return joined
    | none =>
      if (← environment).canCoerce found joined then do
        let _ ← coerce slot joined
        return joined
      else return found

def operands (operatorClass : OperatorClass) (left right : Slot × Ty) : Check (Ty × Ty) := do
  let environment ← environment
  match operatorClass.join? (environment.unbox left.2) (environment.unbox right.2) with
  | some joined => do
    let leftTy ← operand left.1 left.2 joined
    let rightTy ← operand right.1 right.2 joined
    return (leftTy, rightTy)
  | none => return (left.2, right.2)

def binary (visit : Visit) (op : BinaryOp) (id : NodeId) : Check Ty := do
  let left ← requiredSlot id .left
  let right ← requiredSlot id .right
  let leftTy ← visit (← occupant left)
  let rightTy ← visit (← occupant right)
  let (leftTy, rightTy) ← operands op.operatorClass (left, leftTy) (right, rightTy)
  let environment ← environment
  let lookup := environment.resolve [] (environment.registry.functions op.memberName)
    [leftTy, rightTy]
  match lookup.found with
  | some resolution => accept id .staticInvocation resolution [left, right]
  | none =>
    reject id ("operator " ++ op.memberName ++ "(" ++ leftTy.text ++ ", " ++ rightTy.text ++ ")")
      lookup.rejected

def unary (visit : Visit) (op : UnaryOp) (id : NodeId) : Check Ty := do
  let slot ← requiredSlot id .expr
  let found ← visit (← occupant slot)
  let ty ← operand slot found ((← environment).unbox found)
  let environment ← environment
  let lookup := environment.resolve [] (environment.registry.functions op.memberName) [ty]
  match lookup.found with
  | some resolution => accept id .staticInvocation resolution [slot]
  | none => reject id ("operator " ++ op.memberName ++ "(" ++ ty.text ++ ")") lookup.rejected

def connective (visit : Visit) (id : NodeId) : Check Ty := do
  let _ ← enforce visit id .left .bool
  let _ ← enforce visit id .right .bool
  return .bool

def negation (visit : Visit) (id : NodeId) : Check Ty := do
  let _ ← enforce visit id .expr .bool
  return .bool

end Rule

end ScriptTyping
