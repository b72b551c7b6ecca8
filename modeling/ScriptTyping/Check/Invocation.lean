import ScriptTyping.Check.Access

/-!
Rules for calls of functions and methods, and for construction.
-/

namespace ScriptTyping

namespace Rule

open Check

/-! ### Functions -/

def applyValue (id : NodeId) (name : String) (slots : List Slot) (args params : List Ty)
    (result : Ty) : Check Ty := do
  let environment ← environment
  let mismatch : Option Mismatch :=
    if params.length ≠ args.length then some (.wrongCount params.length)
    else
      match (params.zip args).findIdx? fun (param, arg) => !environment.canCoerce arg param with
      | some index =>
        some (.argument (index + 1) (params.getD index .never) (args.getD index .never))
      | none => none
  match mismatch with
  | some reason =>
    failAt id (.mismatchedMember ("function " ++ name)
      [name ++ ": " ++ (Ty.fn params result).text ++ " (" ++ reason.text ++ ")"])
  | none => do
    coerceEach (slots.zip params)
    modifyTree (·.relabel id .name .recv)
    bindInvoke id .methodApply .functionValue
    return result

def applyCallable (id callee list : NodeId) (slots : List Slot) : Check Ty := do
  let most := (← environment).options.maxInvokeArity
  match RuntimeMember.functionInvoker? most slots.length with
  | none => failAt id (.unsupportedArity slots.length most)
  | some invoker => do
    coerceAll .object slots
    modifyTree (·.flatten id [callee, list])
    bindStatic id invoker
    return .object

def applyFunction (id : NodeId) (name : String) (slots : List Slot) (args : List Ty) :
    Check Ty := do
  let environment ← environment
  let lookup := environment.resolve [] (environment.registry.functions name) args
  match lookup.found with
  | some resolution => accept id .apply resolution slots
  | none => reject id ("function " ++ name) lookup.rejected

/-- A call of a name: the enclosing function with exactly its parameter types, or else a variable
or global that holds a function, or else a known function. -/
def apply (visit : Visit) (id : NodeId) : Check Ty := do
  let nameNode ← required id .name
  let name ← textOf nameNode
  let list ← argumentList id
  let slots ← slots list
  let args ← visitAll visit slots
  let enclosing := (← scopes).current?.filter fun scope =>
    scope.name = name && scope.paramTypes == args
  match enclosing with
  | some scope =>
    match scope.returnType with
    | some result => do
      bindInvoke id .recursiveApply (.selfCall name)
      return result
    | none => failAt id (.unresolvedRecursiveReturnType name)
  | none =>
    if ← isValue name then
      let valueTy ← visit nameNode
      match valueTy with
      | .fn params result => applyValue id name slots args params result
      | _ =>
        if valueTy.isCallable then applyCallable id nameNode list slots
        else applyFunction id name slots args
    else applyFunction id name slots args

/-! ### Methods -/

def applyStatic (visit : Visit) (id : NodeId) (owner : Ty) (name : String) (slots : List Slot) :
    Check Ty := do
  let args ← visitAll visit slots
  let environment ← environment
  let candidates := environment.members owner name .method
  let statics := candidates.filter fun member => (environment.registry.member member).isStatic
  if statics.isEmpty && !candidates.isEmpty then failAt id (.notStatic name owner.text)
  else
    let lookup := environment.resolve [] statics args
    match lookup.found with
    | some resolution => accept id .apply resolution slots
    | none => reject id ("static method " ++ name ++ " of " ++ owner.text) lookup.rejected

def applyDynamic (id receiver nameNode list : NodeId) (slots : List Slot) : Check Ty := do
  let most := (← environment).options.maxInvokeArity
  match RuntimeMember.dynamicInvoker? most slots.length with
  | none => failAt id (.unsupportedArity slots.length most)
  | some invoker => do
    coerceAll .object slots
    nameConstant nameNode
    modifyTree (·.flatten id [receiver, nameNode, list])
    bindInvoke id .dynamicInvocation (.member invoker)
    return .dynamic

def applyOnValue (visit : Visit) (id receiver nameNode list : NodeId) (name : String)
    (slots : List Slot) : Check Ty := do
  let receiverTy ← visit receiver
  let args ← visitAll visit slots
  let environment ← environment
  let lookup := environment.resolve receiverTy.args (environment.members receiverTy name .method)
    args
  match lookup.found with
  | some resolution => accept id .methodApply resolution slots
  | none =>
    if receiverTy.isDynamic then applyDynamic id receiver nameNode list slots
    else reject id ("method " ++ name ++ " of " ++ receiverTy.text) lookup.rejected

def methodApply (visit : Visit) (id : NodeId) : Check Ty := do
  let receiver ← required id .recv
  let nameNode ← required id .name
  let name ← textOf nameNode
  let list ← argumentList id
  let slots ← slots list
  match ← typeReceiver? receiver with
  | some owner => applyStatic visit id owner name slots
  | none => applyOnValue visit id receiver nameNode list name slots

/-! ### Construction -/

def construct (visit : Visit) (id : NodeId) : Check Ty := do
  let ty ← annotation (← required id .type)
  let list ← argumentList id
  let slots ← slots list
  let args ← visitAll visit slots
  let environment ← environment
  let constructors := match ty.headName? with
    | some head => environment.registry.constructors head
    | none => []
  let lookup := environment.resolve ty.args constructors args
  match lookup.found with
  | some resolution => do
    convertArguments slots resolution resolution.coercions
    setBinding id (.construct resolution.construction)
    return resolution.result
  | none => reject id ("constructor " ++ ty.text) lookup.rejected

end Rule

end ScriptTyping
