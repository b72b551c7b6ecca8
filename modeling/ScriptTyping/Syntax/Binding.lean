import ScriptTyping.Overload
import ScriptTyping.Number.Binary64

/-!
What checking ties a syntax node to: a stored field, an invocation, a construction or a constant.
-/

namespace ScriptTyping

inductive Const where
  | bool (value : Bool)
  | int (value : Int)
  | long (value : Int)
  | double (value : Binary64)
  | char (value : Char)
  | string (value : String)
  deriving DecidableEq, Repr

inductive Access where
  | get
  | set
  deriving DecidableEq, Repr

inductive FieldTarget where
  | member (id : MemberId)
  | global (id : GlobalId)
  deriving DecidableEq, Repr

inductive Hint where
  /-- A call of a named function. -/
  | apply
  /-- A virtual call on the receiver. -/
  | methodApply
  /-- A static call that takes every child as an argument. -/
  | staticInvocation
  /-- A call on a dynamic receiver, dispatched when the script runs. -/
  | dynamicInvocation
  /-- A direct call of the enclosing function. -/
  | recursiveApply
  /-- The one member that carries out a construct. -/
  | unique
  deriving DecidableEq, Repr

inductive InvokeTarget where
  | member (id : MemberId)
  /-- The enclosing function, called by name. -/
  | selfCall (name : String)
  /-- The function value held by the receiver child. -/
  | functionValue
  deriving DecidableEq, Repr

inductive Binding where
  | unbound
  | field (access : Access) (target : FieldTarget)
  | invoke (hint : Hint) (target : InvokeTarget) (typeArgs : List Ty)
  | construct (construction : Construction)
  | const (value : Const)
  deriving Repr, Inhabited

def Binding.static (member : MemberId) : Binding := .invoke .staticInvocation (.member member) []

end ScriptTyping
