import ScriptTyping.Check.Arguments

/-!
Rules for names, fields and indexers. An access on a dynamic value becomes a call of the runtime,
which takes the name as a constant.
-/

namespace ScriptTyping

namespace Rule

open Check

def isValue (name : String) : Check Bool := do
  return (← scopes).hasVariable name || (← environment).hasGlobal name

def name (id : NodeId) : Check Ty := do
  let name ← textOf id
  match (← scopes).varType? name with
  | some ty => return ty
  | none =>
    let environment ← environment
    match environment.globalId? name with
    | some globalId => do
      setBinding id (.field .get (.global globalId))
      return (environment.global globalId).ty
    | none => failAt id (.undefinedName name)

/-- The type that a receiver names, when it names a type and not a value. The receiver needs no
checking then. -/
def typeReceiver? (receiver : NodeId) : Check (Option Ty) := do
  if (← tagOf receiver) = .name then
    let name ← textOf receiver
    if ← isValue name then return none
    else
      match (← environment).typeNamed? name with
      | some owner => do
        setType receiver owner
        markDone receiver
        return some owner
      | none => return none
  else return none

def nameConstant (id : NodeId) : Check Unit := do
  let name ← textOf id
  modifyTree (·.setTag id .text)
  let _ ← setConst id .string (.string name)
  markDone id

/-! ### Fields -/

def fieldType (member : Member) (receiver : List Ty) : Ty :=
  (member.result.substitute fun index => receiver[index]?).close

def staticField (id : NodeId) (owner : Ty) (name : String) : Check Ty := do
  let environment ← environment
  match environment.members owner name .field with
  | [] => reject id ("field " ++ name ++ " of " ++ owner.text) []
  | memberId :: _ =>
    let member := environment.registry.member memberId
    if member.isStatic then do
      setBinding id (.field .get (.member memberId))
      return fieldType member []
    else failAt id (.notStatic name owner.text)

def valueField (visit : Visit) (id receiver nameNode : NodeId) (name : String) : Check Ty := do
  let receiverTy ← visit receiver
  let environment ← environment
  match environment.members receiverTy name .field with
  | memberId :: _ => do
    setBinding id (.field .get (.member memberId))
    return fieldType (environment.registry.member memberId) receiverTy.args
  | [] =>
    if receiverTy.isDynamic then do
      nameConstant nameNode
      modifyTree (·.flatten id [receiver, nameNode])
      bindStatic id RuntimeMember.fieldGetter
      return .dynamic
    else reject id ("field " ++ name ++ " of " ++ receiverTy.text) []

def field (visit : Visit) (id : NodeId) : Check Ty := do
  let receiver ← required id .recv
  let nameNode ← required id .name
  let name ← textOf nameNode
  match ← typeReceiver? receiver with
  | some owner => staticField id owner name
  | none => valueField visit id receiver nameNode name

/-! ### Indexers -/

def indexer (visit : Visit) (id : NodeId) : Check Ty := do
  let receiver ← required id .recv
  let list ← argumentList id
  let receiverTy ← visit receiver
  let slots ← slots list
  let types ← visitAll visit slots
  let environment ← environment
  let lookup := environment.resolve receiverTy.args (environment.members receiverTy "get" .method)
    types
  match lookup.found with
  | some resolution => accept id .methodApply resolution slots
  | none =>
    if receiverTy.isDynamic then do
      coerceAll .object slots
      modifyTree (·.flatten id [receiver, list])
      bindStatic id RuntimeMember.indexGetter
      return .dynamic
    else reject id ("indexer [] for " ++ receiverTy.text) lookup.rejected

end Rule

end ScriptTyping
