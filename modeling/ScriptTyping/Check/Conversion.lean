import ScriptTyping.Check.Basic
import ScriptTyping.Environment.Coercion
import ScriptTyping.Environment.Naming

/-!
Bringing a checked node to a type: the node as it is, or a new conversion around it.
-/

namespace ScriptTyping

namespace Tree

def convert (tree : Tree) (node : NodeId) (tag : Tag) (ty : Ty) (binding : Binding) :
    NodeId × Tree :=
  tree.alloc {
    tag
    span := tree.span node
    children := [⟨some .expr, node⟩]
    ty := some ty
    binding
    done := true }

end Tree

namespace Environment

/-- Brings a checked node to the type `required`. The result is the node, a conversion around it,
or the failure when the type of the node does not flow into `required`. -/
def enforce (environment : Environment) (tree : Tree) (node : NodeId) (required : Ty) :
    Except Failure NodeId × Tree :=
  let found := (tree.ty? node).getD .never
  if found == required || found.isNever then (.ok node, tree)
  else if tree.tag node = .nullValue ∧ required.isReference then
    (.ok node, tree.setType node required)
  else if found.isDynamic && !required.isVoid then
    let (wrapper, tree) := tree.convert node .downCast required .unbound
    (.ok wrapper, tree)
  else if environment.isAssignable required found then
    let (wrapper, tree) := tree.convert node .upCast required .unbound
    (.ok wrapper, tree)
  else
    match implicitCast? found required with
    | some member =>
      let (wrapper, tree) := tree.convert node .cast required (.static member)
      (.ok wrapper, tree)
    | none =>
      let (failure, tree) := Failure.ofError tree ⟨.typeMismatch required found, tree.span node⟩
      (.error failure, tree)

end Environment

structure Slot where
  parent : NodeId
  index : Nat
  deriving DecidableEq, Repr

namespace Check

def occupant (slot : Slot) : Check NodeId := do
  match (← tree).childAt? slot.parent slot.index with
  | some node => return node
  | none => stop (.noChild slot.parent slot.index)

def replace (slot : Slot) (node : NodeId) : Check Unit := do
  let _ ← occupant slot
  modifyTree (·.replaceAt slot.parent slot.index node)

def requiredSlot (id : NodeId) (label : Label) : Check Slot := do
  match ((← tree).get id).indexOf? label with
  | some index => return ⟨id, index⟩
  | none =>
    let _ ← required id label
    return ⟨id, 0⟩

def noteConversion (node coerced : NodeId) : Check Unit :=
  if coerced = node then return () else noteTyped coerced

def coerce (slot : Slot) (ty : Ty) : Check NodeId := do
  let node ← occupant slot
  let environment ← environment
  let coerced ← orRaise (← build (environment.enforce · node ty))
  noteConversion node coerced
  replace slot coerced
  return coerced

def coerceAll (ty : Ty) : List Slot → Check Unit
  | [] => return ()
  | slot :: rest => do
    let _ ← coerce slot ty
    coerceAll ty rest

def coerceEach : List (Slot × Ty) → Check Unit
  | [] => return ()
  | (slot, ty) :: rest => do
    let _ ← coerce slot ty
    coerceEach rest

def enforce (visit : Visit) (id : NodeId) (label : Label) (ty : Ty) : Check NodeId := do
  let slot ← requiredSlot id label
  let _ ← visit (← occupant slot)
  coerce slot ty

def denotation (node : NodeId) : Check Ty := do
  let text ← textOf node
  match (← environment).resolveType text with
  | .ok ty => return ty
  | .error error => failAt node (.undefinedType (error.culprit text))

def annotation (node : NodeId) : Check Ty := do
  let ty ← denotation node
  setType node ty
  return ty

def annotation? (id : NodeId) (label : Label) : Check (Option Ty) := do
  match ← child? id label with
  | some node => return some (← annotation node)
  | none => return none

end Check

end ScriptTyping
