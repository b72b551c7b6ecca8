import ScriptTyping.Ty.Basic

/-!
Host types and their members, described as data.
-/

namespace ScriptTyping

abbrev MemberId := Nat

structure TypeDef where
  name : String
  /-- The names of the generic parameters. -/
  params : List String := []
  supertype : Option String := none
  /-- The primitive that the type wraps. -/
  boxes : Option Prim := none
  /-- The namespace that declares the type. -/
  home : Option String := none
  deriving DecidableEq, Repr, Inhabited

inductive MemberKind where
  | method
  | field
  | constructor
  /-- A free function, called by its bare name. -/
  | function
  deriving DecidableEq, Repr, Inhabited

structure Member where
  owner : String
  name : String
  kind : MemberKind
  isStatic : Bool := true
  isReadonly : Bool := false
  /-- A field has none. -/
  params : List Ty
  /-- The type of a field, the owner for a constructor. -/
  result : Ty
  /-- Whether the last parameter is an array that takes up all further arguments. -/
  isVariadic : Bool := false
  /-- The names of the type variables; `Ty.var i` stands for the one at position `i`. -/
  vars : List String := []
  /-- How many of `vars`, counted from the first, are parameters of the owner. -/
  ownerVars : Nat := 0
  deriving Repr, Inhabited

namespace Member

def constructorName : String := "<init>"

def arity (member : Member) : Nat := member.params.length

def variadicElement? (member : Member) : Option Ty :=
  if member.isVariadic then member.params.getLast?.bind (·.args.head?) else none

def paramTexts (isVariadic : Bool) : List Ty → List String
  | [] => []
  | [last] => [if isVariadic then last.text ++ "..." else last.text]
  | param :: rest => param.text :: paramTexts isVariadic rest

def text (member : Member) : String :=
  match member.kind with
  | .field => member.owner ++ "." ++ member.name ++ ": " ++ member.result.text
  | kind =>
    (if kind = .function then "" else member.owner ++ ".") ++ member.name ++ "(" ++
      ", ".intercalate (paramTexts member.isVariadic member.params) ++ ") -> " ++
      member.result.text

end Member

end ScriptTyping
