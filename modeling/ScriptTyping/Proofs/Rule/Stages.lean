import ScriptTyping.Check.Visit

/-!
The steps of the longer rules under names of their own, so that each is reasoned about once. Rules
that begin with an optional child are cut after what they make of that child.
-/

namespace ScriptTyping

namespace Rule

open Check

/-! ### Control -/

def bindAssertion (id : NodeId) : Check Ty := do
  bindStatic id RuntimeMember.assertion
  return .void

def constantText (span : Span) (text : String) : Node where
  tag := .text
  span
  text := some text
  ty := some .string
  binding := .const (.string text)
  done := true

def supplyMessage (id condition : NodeId) (text : String) : Check Ty := do
  let span ← spanOf condition
  let message ← build (·.alloc (constantText span text))
  modifyTree (·.make id [(.cond, condition), (.msg, message)])
  bindAssertion id

def writtenType? (id : NodeId) : Check (Option Ty) := do
  match ← child? id .type with
  | some node => return some (← denotation node)
  | none => return none

def loopOver (visit : Visit) (id : NodeId) (written : Option Ty) : Check Ty := do
  let nameNode ← required id .name
  let name ← textOf nameNode
  let iterated ← required id .iter
  let element ← elementType id (← visit iterated)
  let ty ← loopVariable iterated written element
  setType nameNode ty
  inBlock do
    modifyScopes (·.declare name ty)
    body visit id

theorem forEach_eq (visit : Visit) (id : NodeId) :
    forEach visit id = writtenType? id >>= loopOver visit id := by
  rw [forEach, writtenType?, bind_assoc]
  congr 1
  funext found
  cases found with
  | none => simp only [pure_bind]; rfl
  | some node => simp only [bind_assoc, pure_bind]; rfl

def loopSteps (visit : Visit) (id : NodeId) : Check Ty := do
  optional visit id .iter
  body visit id

def loopOnward (visit : Visit) (id : NodeId) : Check Ty := do
  if ← has id .cond then
    let _ ← enforce visit id .cond .bool
  loopSteps visit id

theorem forLoop_eq (visit : Visit) (id : NodeId) : forLoop visit id = (do
    inBlockIf (← scopes).inFunction do
      optional visit id .init
      loopOnward visit id) := rfl

/-! ### Functions -/

def leaveFunction : Check Ty := do
  let scope ← exitFunction
  return scope.returnType.getD .void

def checkBody (visit : Visit) (id body : NodeId) : Check Ty := do
  match ← attempt (visit body) with
  | .ok _ => pure ()
  | .error failure => do
    modifyTree (·.setChild id .body failure.replacement)
    recordError failure.error
  leaveFunction

def enteredBody (visit : Visit) (id body : NodeId) (params : List (String × Ty)) : Check Ty := do
  modifyScopes (·.setParams params)
  match ← attempt (visit body) with
  | .ok _ => pure ()
  | .error failure => do
    modifyTree (·.setChild id .body failure.replacement)
    recordError failure.error
  let scope ← exitFunction
  return scope.returnType.getD .void

theorem functionBody_eq (visit : Visit) (id body : NodeId) (name : String) (written : Option Ty)
    (params : List (String × Ty)) : functionBody visit id body name written params = (do
      enterFunction name
      match written with
      | some ty => modifyScopes (·.setReturnType ty)
      | none => pure ()
      enteredBody visit id body params) := by
  cases written <;> rfl

def parameterList (id : NodeId) : Check (List (String × Ty)) := do
  match ← child? id .param with
  | some list => parameters (← childIds list)
  | none => return []

def fixReturn (ty : Ty) : Check Ty := do
  modifyScopes (·.setReturnType ty)
  return .void

def firstReturn (visit : Visit) (id : NodeId) : Check Ty := do
  let ty ← match ← child? id .expr with
    | some child => visit child
    | none => pure .void
  fixReturn ty

def voidReturn (id : NodeId) : Check Ty := do
  modifyTree (·.removeChild id .expr)
  return .void

def setAnnotation (id : NodeId) (ty : Ty) : Check Unit := do
  match ← child? id .type with
  | some node => setType node ty
  | none => return ()

def holdFunction (id nameNode : NodeId) (name : String) (params : List Ty) (result : Ty) :
    Check Ty := do
  setType nameNode result
  let globalId ← declareGlobal name (.fn params result) nameNode
  setBinding id (.field .set (.global globalId))
  return .void

def define (visit : Visit) (id nameNode body : NodeId) (name : String) (written : Option Ty)
    (params : List (String × Ty)) : Check Ty := do
  let result ← functionBody visit id body name written params
  setAnnotation id result
  setType nameNode result
  let globalId ← declareGlobal name (.fn (params.map (·.2)) result) nameNode
  setBinding id (.field .set (.global globalId))
  return .void

def declareFunction (visit : Visit) (id nameNode : NodeId) (name : String) (written : Option Ty)
    (params : List (String × Ty)) : Check Ty := do
  match ← child? id .body with
  | none => prototype id nameNode name (.fn (params.map (·.2)) (written.getD .void))
  | some body => define visit id nameNode body name written params

theorem declareFunction_eq (visit : Visit) (id nameNode : NodeId) (name : String)
    (written : Option Ty) (params : List (String × Ty)) :
    declareFunction visit id nameNode name written params = (do
      match ← child? id .body with
      | none => prototype id nameNode name (.fn (params.map (·.2)) (written.getD .void))
      | some body =>
        let result ← functionBody visit id body name written params
        match ← child? id .type with
        | some node => setType node result
        | none => pure ()
        setType nameNode result
        let globalId ← declareGlobal name (.fn (params.map (·.2)) result) nameNode
        setBinding id (.field .set (.global globalId))
        return .void) := by
  refine bind_congr fun found => ?_
  cases found with
  | none => rfl
  | some body =>
      refine bind_congr fun result => ?_
      rw [ setAnnotation, bind_assoc]
      refine bind_congr fun written => ?_
      cases written <;> rfl

theorem funcDecl_eq (visit : Visit) (id : NodeId) : funcDecl visit id = (do
    let nameNode ← required id .name
    let name ← textOf nameNode
    let written ← annotation? id .type
    let params ← parameterList id
    declareFunction visit id nameNode name written params) := by
  rw [funcDecl]
  congr 1
  funext nameNode
  congr 1
  funext name
  congr 1
  funext written
  rw [parameterList, bind_assoc]
  congr 1
  funext found
  cases found with
  | none =>
      rw [pure_bind]
      exact (declareFunction_eq visit id nameNode name written []).symm
  | some list =>
      exact bind_congr fun params =>
        (declareFunction_eq visit id nameNode name written params).symm

/-! ### Variables -/

def globalVariable (id nameNode : NodeId) (name : String) (ty : Ty) (isInitialized : Bool) :
    Check Ty := do
  let globalId ← declareGlobal name ty nameNode
  if isInitialized then do
    globalStore id globalId
    return ty
  else do
    markDone id
    return .void

/-! ### Calls and accesses -/

def conclude (id : NodeId) (hint : Hint) (what : String) (lookup : Lookup) (slots : List Slot) :
    Check Ty :=
  match lookup.found with
  | some resolution => accept id hint resolution slots
  | none => reject id what lookup.rejected

def selfCall (id : NodeId) (name : String) (result : Ty) : Check Ty := do
  bindInvoke id .recursiveApply (.selfCall name)
  return result

def dispatch (id : NodeId) (slots : List Slot) (items : List NodeId) (member : MemberId)
    (result : Ty) : Check Ty := do
  coerceAll .object slots
  modifyTree (·.flatten id items)
  bindStatic id member
  return result

def accessor (visit : Visit) (id receiver list : NodeId) (name what : String) (member : MemberId)
    (result : Ty) : Check Ty := do
  let receiverTy ← visit receiver
  let slots ← slots list
  let types ← visitAll visit slots
  let environment ← environment
  let lookup := environment.resolve receiverTy.args (environment.members receiverTy name .method)
    types
  match lookup.found with
  | some resolution => accept id .methodApply resolution slots
  | none =>
    if receiverTy.isDynamic then dispatch id slots [receiver, list] member result
    else reject id (what ++ receiverTy.text) lookup.rejected

theorem indexer_eq (visit : Visit) (id : NodeId) : indexer visit id = (do
    let receiver ← required id .recv
    let list ← argumentList id
    accessor visit id receiver list "get" "indexer [] for " RuntimeMember.indexGetter .dynamic) :=
  rfl

/-! ### Assignments -/

def declareUnknown (environment : Environment) (name : String) : Check Unit :=
  match environment.declareGlobal name .object with
  | .ok (environment, _) => setEnvironment environment
  | .error _ => return ()

theorem run_declareImplicit_eq (target : NodeId) (state : CheckState) :
    (declareImplicit target).run.run state = (do
      if state.environment.options.shellMode && !state.scopes.inFunction &&
          state.tree.tag target = .name then
        let name ← textOf target
        if !state.scopes.hasVariable name && !state.environment.hasGlobal name then
          declareUnknown state.environment name : Check Unit).run.run state :=
  rfl

def bindPlace (id : NodeId) (place : FieldTarget) : Check Unit := do
  modifyTree (·.relabel id .right .expr)
  setBinding id (.field .set place)

def storeChecked (visit : Visit) (id target : NodeId) (ty : Ty) : Check Ty := do
  if ← isDynamicRead target then storeDynamic visit id target
  else do
    let _ ← enforce visit id .right ty
    bindStore id target
    return ty

def store (visit : Visit) (id target : NodeId) : Check Ty := do
  if (← tagOf target) = .indexer then storeIndexed visit id target
  else
    let ty ← visit target
    storeChecked visit id target ty

theorem assign_eq (visit : Visit) (id : NodeId) : assign visit id = (do
    let target ← required id .left
    declareImplicit target
    store visit id target) := rfl

def spliceStore (id : NodeId) (parts : List NodeId) (value : NodeId) : Check Ty := do
  modifyTree (·.flatten id (parts ++ [value]))
  bindStatic id RuntimeMember.fieldSetter
  return .void

theorem storeDynamic_eq (visit : Visit) (id target : NodeId) : storeDynamic visit id target = (do
    let parts ← childIds target
    let value ← enforce visit id .right .object
    spliceStore id parts value) := by
  simp only [storeDynamic, enforce, bind_assoc, spliceStore]

end Rule

end ScriptTyping
