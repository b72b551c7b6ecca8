import ScriptTyping.Check.Conversion

/-!
Rules for imports, functions, returns and variables. Outside functions and blocks a declaration
makes a global.
-/

namespace ScriptTyping

namespace Tree

def path? (tree : Tree) : Nat → NodeId → Option String
  | 0, _ => none
  | depth + 1, id =>
    match tree.tag id with
    | .name => some (tree.text id)
    | .text => some (tree.text id)
    | .field => do
      let front ← tree.child? id .recv
      let name ← tree.child? id .name
      let path ← tree.path? depth front
      some (path ++ "." ++ tree.text name)
    | _ => none

end Tree

namespace Rule

open Check

/-! ### Imports -/

def importDecl (id : NodeId) : Check Ty := do
  let target ← requiredOrFirst id .name
  let tree ← tree
  match tree.path? (tree.nodes.size + 1) target with
  | none => failAt id (.typeImportFailure (tree.text target) "not a dotted path")
  | some path => do
    let (environment, error) := (← environment).importNamespace path
    setEnvironment environment
    match error with
    | some error => failAt id (.typeImportFailure path error.message)
    | none => do
      markDone id
      return .void

/-! ### Functions -/

def declareGlobal (name : String) (ty : Ty) (nameNode : NodeId) : Check GlobalId := do
  match (← environment).declareGlobal name ty with
  | .ok (environment, id) => do
    setEnvironment environment
    return id
  | .error existing => failAt nameNode (.duplicateDeclaration name existing)

def parameter (id : NodeId) : Check (String × Ty) := do
  let name ← textOf ((← child? id .name).getD id)
  let ty := (← annotation? id .type).getD .object
  setType id ty
  return (name, ty)

def parameters : List NodeId → Check (List (String × Ty))
  | [] => return []
  | id :: rest => do
    let first ← parameter id
    let others ← parameters rest
    return first :: others

/-- A function without a body fixes the type of a global, which must be new. -/
def prototype (id nameNode : NodeId) (name : String) (ty : Ty) : Check Ty := do
  let environment ← environment
  match environment.globalId? name with
  | some existing =>
    failAt nameNode (.duplicateDeclaration name (environment.global existing).ty)
  | none => do
    let _ ← declareGlobal name ty nameNode
    markDone id
    return .void

def functionBody (visit : Visit) (id body : NodeId) (name : String) (written : Option Ty)
    (params : List (String × Ty)) : Check Ty := do
  enterFunction name
  match written with
  | some ty => modifyScopes (·.setReturnType ty)
  | none => pure ()
  modifyScopes (·.setParams params)
  match ← attempt (visit body) with
  | .ok _ => pure ()
  | .error failure => do
    modifyTree (·.setChild id .body failure.replacement)
    recordError failure.error
  let scope ← exitFunction
  return scope.returnType.getD .void

def funcDecl (visit : Visit) (id : NodeId) : Check Ty := do
  let nameNode ← required id .name
  let name ← textOf nameNode
  let written ← annotation? id .type
  let params ← match ← child? id .param with
    | some list => do parameters (← childIds list)
    | none => pure []
  match ← child? id .body with
  | none => prototype id nameNode name (.fn (params.map (·.2)) (written.getD .void))
  | some body => do
    let result ← functionBody visit id body name written params
    match ← child? id .type with
    | some node => setType node result
    | none => pure ()
    setType nameNode result
    let globalId ← declareGlobal name (.fn (params.map (·.2)) result) nameNode
    setBinding id (.field .set (.global globalId))
    return .void

/-- The first return of a function without a written return type fixes it. A return from a function
without a result drops its expression unchecked. -/
def returnStmt (visit : Visit) (id : NodeId) : Check Ty := do
  let scopes ← scopes
  if !scopes.inFunction then failAt id .returnOutsideFunction
  else
    match scopes.returnType? with
    | none => do
      let ty ← match ← child? id .expr with
        | some child => visit child
        | none => pure .void
      modifyScopes (·.setReturnType ty)
      return .void
    | some .void => do
      modifyTree (·.removeChild id .expr)
      return .void
    | some ty => do
      let _ ← enforce visit id .expr ty
      return .void

/-! ### Variables -/

def variableType (visit : Visit) (id nameNode : NodeId) (written : Option Ty) : Check Ty := do
  let isInitialized ← has id .expr
  match written, isInitialized with
  | some ty, true => do
    let _ ← enforce visit id .expr ty
    return ty
  | some ty, false => return ty
  | none, true => visit (← required id .expr)
  | none, false => do
    warnAt nameNode (.untypedVariable (← textOf nameNode))
    return .object

def globalStore (id : NodeId) (globalId : GlobalId) : Check Unit := do
  modifyTree fun tree =>
    (((tree.removeChild id .type).relabel id .name .left).relabel id .expr .right).setTag id .assign
  setBinding id (.field .set (.global globalId))

def varDecl (visit : Visit) (id : NodeId) : Check Ty := do
  let nameNode ← required id .name
  let name ← textOf nameNode
  let written ← annotation? id .type
  let isInitialized ← has id .expr
  let ty ← variableType visit id nameNode written
  setType nameNode ty
  if (← scopes).hasLocalScope then do
    modifyScopes (·.declare name ty)
    return .void
  else do
    let globalId ← declareGlobal name ty nameNode
    if isInitialized then do
      globalStore id globalId
      return ty
    else do
      markDone id
      return .void

end Rule

end ScriptTyping
