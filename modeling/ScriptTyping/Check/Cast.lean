import ScriptTyping.Check.Arguments

/-!
Rules for written casts and type tests.
-/

namespace ScriptTyping

namespace Rule

open Check

def cast (visit : Visit) (id : NodeId) : Check Ty := do
  let target ← annotation (← required id .type)
  let slot ← requiredSlot id .expr
  let inner ← occupant slot
  let found ← visit inner
  let environment ← environment
  match (castMember? found target).or (convertMember? found target) with
  | some entry => do
    modifyTree (·.make id [(.expr, inner)])
    bindStatic id entry.member
    return target
  | none =>
    if environment.isAssignable target found then do
      modifyTree fun tree => (tree.make id [(.expr, inner)]).setTag id .upCast
      return target
    else if environment.isAssignable found target || found.isDynamic then do
      modifyTree fun tree => (tree.make id [(.expr, inner)]).setTag id .downCast
      return target
    else failAt id (.invalidCast found target)

/-- A test between unrelated types is always false. -/
def instanceOf (visit : Visit) (id : NodeId) : Check Ty := do
  let found ← visit (← required id .left)
  let target ← annotation (← required id .right)
  let environment ← environment
  if found.isDynamic || environment.isAssignable target found ||
      environment.isAssignable found target then
    return .bool
  else do
    warnAt id (.incompatibleInstanceOf found target)
    setConst id .bool (.bool false)

end Rule

end ScriptTyping
