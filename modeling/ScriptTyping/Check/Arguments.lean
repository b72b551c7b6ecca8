import ScriptTyping.Check.Conversion
import ScriptTyping.Overload

/-!
Argument lists, and what becomes of a node when a member accepts its arguments or none does.
-/

namespace ScriptTyping

namespace Tree

/-- The list of arguments under a label. A single argument is put into a list, and a construct
without arguments gets an empty one. -/
def argumentList (tree : Tree) (id : NodeId) (label : Label) : NodeId × Tree :=
  let wrapped (items : List NodeId) :=
    let (list, tree) := tree.sequence .list items
    (list, tree.setChild id label list)
  match tree.child? id label with
  | some child => if tree.tag child = .list then (child, tree) else wrapped [child]
  | none => wrapped []

def slots (tree : Tree) (id : NodeId) : List Slot :=
  (List.range (tree.get id).children.length).map fun index => ⟨id, index⟩

end Tree

namespace Environment

def members (environment : Environment) (owner : Ty) (name : String) (kind : MemberKind) :
    List MemberId :=
  match owner.headName? with
  | some head => environment.registry.candidates head name kind
  | none => []

end Environment

namespace Check

def argumentList (id : NodeId) : Check NodeId := build (·.argumentList id .param)

def slots (id : NodeId) : Check (List Slot) := read (·.tree.slots id)

def visitAll (visit : Visit) : List Slot → Check (List Ty)
  | [] => return []
  | slot :: rest => do
    let ty ← visit (← occupant slot)
    let types ← visitAll visit rest
    return ty :: types

def convertArguments (slots : List Slot) (resolution : Resolution) : List Nat → Check Unit
  | [] => return ()
  | index :: rest =>
    match slots[index]?, resolution.params[index]? with
    | some slot, some ty => do
      let _ ← coerce slot ty
      convertArguments slots resolution rest
    | _, _ => stop (.noArgument index)

def accept (id : NodeId) (hint : Hint) (resolution : Resolution) (slots : List Slot) :
    Check Ty := do
  convertArguments slots resolution resolution.coercions
  setBinding id (.invoke hint (.member resolution.member) resolution.typeArgs)
  return resolution.result

def reject {α : Type} (id : NodeId) (what : String) (rejected : List Rejection) : Check α := do
  let environment ← environment
  failAt id (match rejected with
    | [] => .undefinedMember what
    | _ => .mismatchedMember what (rejected.map environment.rejectionText))

def bindStatic (id : NodeId) (member : MemberId) : Check Unit := setBinding id (.static member)

def bindInvoke (id : NodeId) (hint : Hint) (target : InvokeTarget) : Check Unit :=
  setBinding id (.invoke hint target [])

end Check

end ScriptTyping
