import ScriptTyping.Check.Arguments

/-!
Rules for sequences of statements, blocks and control flow. A sequence goes on after a statement
that failed, with its replacement in its place.
-/

namespace ScriptTyping

namespace Rule

open Check

/-! ### Sequences -/

def statementsFrom (visit : Visit) (id : NodeId) (last : Ty) : Nat → Nat → Check Ty
  | _, 0 => return last
  | index, count + 1 => do
    match (← tree).childAt? id index with
    | none => return last
    | some child =>
      match ← attempt (visit child) with
      | .ok ty => statementsFrom visit id ty (index + 1) count
      | .error failure => do
        replace ⟨id, index⟩ failure.replacement
        recordError failure.error
        statementsFrom visit id .never (index + 1) count

def statements (visit : Visit) (id : NodeId) : Check Ty := do
  statementsFrom visit id .void 0 (← childIds id).length

def statementList (visit : Visit) (id : NodeId) : Check Ty := do
  let _ ← statements visit id
  return .void

/-- A block opens a scope inside functions only. -/
def block (visit : Visit) (id : NodeId) : Check Ty := do
  inBlockIf (← scopes).inFunction (statementList visit id)

/-! ### Branches -/

def assertionMessage (condition : NodeId) : Check String := do
  match (← tree).position? condition with
  | none => return "assertion failed"
  | some (some (line, column)) =>
    return "assertion failed at " ++ toString line ++ ":" ++ toString column
  | some none => stop .columnOverflow

def assertion (visit : Visit) (id : NodeId) : Check Ty := do
  let condition ← enforce visit id .cond .bool
  if ← has id .msg then
    let _ ← enforce visit id .msg .string
  else
    let text ← assertionMessage condition
    let span ← spanOf condition
    let message ← build (·.alloc {
      tag := .text
      span
      text := some text
      ty := some .string
      binding := .const (.string text)
      done := true })
    modifyTree (·.make id [(.cond, condition), (.msg, message)])
  bindStatic id RuntimeMember.assertion
  return .void

def optional (visit : Visit) (id : NodeId) (label : Label) : Check Unit := do
  match ← child? id label with
  | some child =>
    let _ ← visit child
    return ()
  | none => return ()

def ifStmt (visit : Visit) (id : NodeId) : Check Ty := do
  let _ ← enforce visit id .cond .bool
  let _ ← visit (← required id .thenBranch)
  optional visit id .elseBranch
  return .void

def conditional (visit : Visit) (id : NodeId) : Check Ty := do
  let _ ← enforce visit id .cond .bool
  let thenTy ← visit (← required id .thenBranch)
  let slot ← requiredSlot id .elseBranch
  let elseTy ← visit (← occupant slot)
  if thenTy == elseTy then return thenTy
  else do
    let _ ← coerce slot thenTy
    return thenTy

/-! ### Loops -/

def body (visit : Visit) (id : NodeId) : Check Ty := do
  let _ ← visit (← required id .body)
  return .void

def whileLoop (visit : Visit) (id : NodeId) : Check Ty := do
  let _ ← enforce visit id .cond .bool
  body visit id

def forLoop (visit : Visit) (id : NodeId) : Check Ty := do
  inBlockIf (← scopes).inFunction do
    optional visit id .init
    if ← has id .cond then
      let _ ← enforce visit id .cond .bool
    optional visit id .iter
    body visit id

def elementType? : Ty → Option Ty
  | .dynamic => some .dynamic
  | .applied head args =>
    if head.name = "Array" ∨ head.name = "Set" then some (args.headD .object)
    else if head.name = "Dict" then some .string
    else none
  | _ => none

def elementType (id : NodeId) (iterated : Ty) : Check Ty := do
  match elementType? iterated with
  | some ty => return ty
  | none =>
    let environment ← environment
    let lookup := environment.resolve iterated.args
      (environment.members iterated "iterator" .method) []
    match lookup.found.filter (·.result.headName? == some "Iterator") with
    | some resolution => do
      setBinding id (.invoke .methodApply (.member resolution.member) resolution.typeArgs)
      return resolution.result.args.headD .object
    | none => reject id ("iterator for " ++ iterated.text) lookup.rejected

def loopVariable (iterated : NodeId) (written : Option Ty) (element : Ty) : Check Ty := do
  match written with
  | none => return element
  | some ty =>
    if (← environment).canCoerce element ty then return ty
    else failAt iterated (.typeMismatch ty element)

/-- The loop variable has a block of its own also outside functions. -/
def forEach (visit : Visit) (id : NodeId) : Check Ty := do
  let written ← match ← child? id .type with
    | some node => do
      let ty ← denotation node
      pure (some ty)
    | none => pure none
  let nameNode ← required id .name
  let name ← textOf nameNode
  let iterated ← required id .iter
  let element ← elementType id (← visit iterated)
  let ty ← loopVariable iterated written element
  setType nameNode ty
  inBlock do
    modifyScopes (·.declare name ty)
    body visit id

end Rule

end ScriptTyping
