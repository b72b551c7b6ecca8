import ScriptTyping.Check.Arguments

/-!
Rules for assignments. A store into a field or a global is bound to it; a store through an indexer
or into a dynamic value becomes a call.
-/

namespace ScriptTyping

namespace Rule

open Check

/-- In shell mode an assignment to an unknown name outside functions declares a global first. -/
def declareImplicit (target : NodeId) : Check Unit := do
  let environment ← environment
  let scopes ← scopes
  if environment.options.shellMode && !scopes.inFunction && (← tagOf target) = .name then
    let name ← textOf target
    if !scopes.hasVariable name && !environment.hasGlobal name then
      match environment.declareGlobal name .object with
      | .ok (environment, _) => setEnvironment environment
      | .error _ => return ()

def storeIndexed (visit : Visit) (id target : NodeId) : Check Ty := do
  let receiver ← required target .recv
  let indices ← argumentList target
  let value ← required id .right
  let items ← childIds indices
  let list ← build (·.sequence .list (items ++ [value]))
  modifyTree (·.make id [(.recv, receiver), (.param, list)])
  let receiverTy ← visit receiver
  let slots ← slots list
  let types ← visitAll visit slots
  let environment ← environment
  let lookup := environment.resolve receiverTy.args (environment.members receiverTy "set" .method)
    types
  match lookup.found with
  | some resolution => accept id .methodApply resolution slots
  | none =>
    if receiverTy.isDynamic then do
      coerceAll .object slots
      modifyTree (·.flatten id [receiver, list])
      bindStatic id RuntimeMember.indexSetter
      return .void
    else reject id ("set indexer [] for " ++ receiverTy.text) lookup.rejected

def storeDynamic (visit : Visit) (id target : NodeId) : Check Ty := do
  let parts ← childIds target
  let slot ← requiredSlot id .right
  let _ ← visit (← occupant slot)
  let value ← coerce slot .object
  modifyTree (·.flatten id (parts ++ [value]))
  bindStatic id RuntimeMember.fieldSetter
  return .void

/-- Binds a store to the member that `target` reads. A field of an instance keeps its receiver, in
place of the target. -/
def storeMember (id target : NodeId) (member : MemberId) : Check Unit := do
  let declared := (← environment).registry.member member
  if declared.isReadonly then failAt target (.readonlyAssignment declared.name)
  else if !declared.isStatic then
    match ← child? target .recv with
    | some receiver =>
      modifyTree fun tree => (tree.setChild id .left receiver).relabel id .left .recv
    | none => return ()

def bindStore (id target : NodeId) : Check Unit := do
  match ← bindingOf target with
  | .field .get place => do
    match place with
    | .member member => storeMember id target member
    | .global _ => pure ()
    modifyTree (·.relabel id .right .expr)
    setBinding id (.field .set place)
  | _ => return ()

def isDynamicRead (id : NodeId) : Check Bool := do
  match ← bindingOf id with
  | .invoke _ (.member member) _ => return member == RuntimeMember.fieldGetter
  | _ => return false

def assign (visit : Visit) (id : NodeId) : Check Ty := do
  let target ← required id .left
  declareImplicit target
  if (← tagOf target) = .indexer then storeIndexed visit id target
  else
    let ty ← visit target
    if ← isDynamicRead target then storeDynamic visit id target
    else do
      let _ ← enforce visit id .right ty
      bindStore id target
      return ty

/-- `target op= value` is checked as `target = target op value`, with a copy of the target. -/
def compoundAssign (visit : Visit) (op : CompoundOp) (id : NodeId) : Check Ty := do
  let target ← required id .left
  let right ← required id .right
  let copy ← build (·.dup target)
  let value ← build (·.labelled (.binary op.val) [(.left, copy), (.right, right)])
  modifyTree fun tree => (tree.setChild id .right value).setTag id .assign
  assign visit id

end Rule

end ScriptTyping
