import ScriptTyping.Ty.Prim

/-!
Types of the script language. A named type is identified by its name alone: the namespace it was
imported from is kept for display, and `Ty.same` ignores it.
-/

namespace ScriptTyping

structure TyName where
  name : String
  home : Option String := none
  deriving DecidableEq, Repr, Inhabited

namespace TyName

def text (tyName : TyName) : String :=
  match tyName.home with
  | some home => home ++ "." ++ tyName.name
  | none => tyName.name

end TyName

inductive Ty where
  /-- The variable with this index in the signature that the type belongs to. -/
  | var (index : Nat)
  | prim (prim : Prim)
  | named (tyName : TyName)
  /-- A generic host type with its arguments. Nothing but names is applied. -/
  | applied (head : TyName) (args : List Ty)
  | fn (params : List Ty) (result : Ty)
  | void
  /-- Every value except those of `void` converts to this type. -/
  | object
  /-- Members of this type are looked up when the script runs. -/
  | dynamic
  /-- The type of what failed to check. -/
  | never
  deriving Repr, Inhabited

namespace Ty

def bool : Ty := prim .bool
def char : Ty := prim .char
def int : Ty := prim .int
def long : Ty := prim .long
def float : Ty := prim .float
def double : Ty := prim .double

def host (name : String) : Ty := named ⟨name, none⟩

def generic (name : String) (args : List Ty) : Ty := applied ⟨name, none⟩ args

def string : Ty := host "String"

def callable : Ty := host "Function"

def array (element : Ty) : Ty := generic "Array" [element]

def set (element : Ty) : Ty := generic "Set" [element]

def dict (value : Ty) : Ty := generic "Dict" [value]

mutual

def same : Ty → Ty → Bool
  | var left, var right => left == right
  | prim left, prim right => left == right
  | named left, named right => left.name == right.name
  | applied left leftArgs, applied right rightArgs =>
    left.name == right.name && sameAll leftArgs rightArgs
  | fn leftParams left, fn rightParams right => sameAll leftParams rightParams && same left right
  | void, void => true
  | object, object => true
  | dynamic, dynamic => true
  | never, never => true
  | _, _ => false

def sameAll : List Ty → List Ty → Bool
  | [], [] => true
  | left :: lefts, right :: rights => same left right && sameAll lefts rights
  | _, _ => false

end

instance : BEq Ty := ⟨same⟩

mutual

def bare : Ty → Ty
  | named tyName => named ⟨tyName.name, none⟩
  | applied head args => applied ⟨head.name, none⟩ (bareAll args)
  | fn params result => fn (bareAll params) (bare result)
  | ty => ty

def bareAll : List Ty → List Ty
  | [] => []
  | ty :: rest => bare ty :: bareAll rest

end

def prim? : Ty → Option Prim
  | prim p => some p
  | _ => none

def isVoid : Ty → Bool
  | void => true
  | _ => false

def isNever : Ty → Bool
  | never => true
  | _ => false

def isObject : Ty → Bool
  | object => true
  | _ => false

def isDynamic : Ty → Bool
  | dynamic => true
  | _ => false

def isString : Ty → Bool
  | named tyName => tyName.name == "String"
  | _ => false

def isReference : Ty → Bool
  | prim _ => false
  | void => false
  | never => false
  | var _ => false
  | _ => true

def isCallable : Ty → Bool
  | named tyName => tyName.name == "Function"
  | _ => false

def isFunction : Ty → Bool
  | fn _ _ => true
  | ty => ty.isCallable

def headName? : Ty → Option String
  | named tyName => some tyName.name
  | applied head _ => some head.name
  | prim p => some p.boxedName
  | _ => none

def args : Ty → List Ty
  | applied _ args => args
  | _ => []

mutual

def hasVar : Ty → Bool
  | var _ => true
  | applied _ args => anyHasVar args
  | fn params result => anyHasVar params || hasVar result
  | _ => false

def anyHasVar : List Ty → Bool
  | [] => false
  | ty :: rest => hasVar ty || anyHasVar rest

end

mutual

def substitute (binding : Nat → Option Ty) : Ty → Ty
  | var index => (binding index).getD (var index)
  | applied head args => applied head (substituteAll binding args)
  | fn params result => fn (substituteAll binding params) (substitute binding result)
  | ty => ty

def substituteAll (binding : Nat → Option Ty) : List Ty → List Ty
  | [] => []
  | ty :: rest => substitute binding ty :: substituteAll binding rest

end

def close (ty : Ty) : Ty := ty.substitute fun _ => some object

mutual

def text : Ty → String
  | var index => "T" ++ toString index
  | prim p => p.name
  | named tyName => tyName.text
  | applied head args => head.text ++ "<" ++ ", ".intercalate (textAll args) ++ ">"
  | fn params result => "(" ++ ", ".intercalate (textAll params) ++ ") -> " ++ text result
  | void => "void"
  | object => "Object"
  | dynamic => "dynamic"
  | never => "never"

def textAll : List Ty → List String
  | [] => []
  | ty :: rest => text ty :: textAll rest

end

instance : ToString Ty := ⟨text⟩

mutual

theorem same_eq_true_iff : (left right : Ty) → (same left right = true ↔ left.bare = right.bare)
  | var _, right => by cases right <;> simp [same, bare]
  | prim _, right => by cases right <;> simp [same, bare]
  | named _, right => by cases right <;> simp [same, bare]
  | applied _ leftArgs, right => by
    cases right <;> simp [same, bare, sameAll_eq_true_iff leftArgs]
  | fn leftParams left, right => by
    cases right <;> simp [same, bare, sameAll_eq_true_iff leftParams, same_eq_true_iff left]
  | void, right => by cases right <;> simp [same, bare]
  | object, right => by cases right <;> simp [same, bare]
  | dynamic, right => by cases right <;> simp [same, bare]
  | never, right => by cases right <;> simp [same, bare]

theorem sameAll_eq_true_iff :
    (lefts rights : List Ty) → (sameAll lefts rights = true ↔ bareAll lefts = bareAll rights)
  | [], rights => by cases rights <;> simp [sameAll, bareAll]
  | left :: lefts, rights => by
    cases rights <;> simp [sameAll, bareAll, same_eq_true_iff left, sameAll_eq_true_iff lefts]

end

theorem substituteAll_eq_map (binding : Nat → Option Ty) (types : List Ty) :
    substituteAll binding types = types.map (substitute binding) := by
  induction types with
  | nil => rfl
  | cons ty types ih => simp [substituteAll, ih]

theorem anyHasVar_eq_any (types : List Ty) : anyHasVar types = types.any hasVar := by
  induction types with
  | nil => rfl
  | cons ty types ih => simp [anyHasVar, ih]

end Ty

end ScriptTyping
