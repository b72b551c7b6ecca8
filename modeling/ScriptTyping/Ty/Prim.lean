/-!
Primitive value types, in ascending order.
-/

namespace ScriptTyping

inductive Prim where
  | bool
  | byte
  | short
  | char
  | int
  | long
  | float
  | double
  deriving DecidableEq, Repr, Inhabited

namespace Prim

def all : List Prim := [bool, byte, short, char, int, long, float, double]

theorem mem_all (prim : Prim) : prim ∈ all := by cases prim <;> decide

def name : Prim → String
  | bool => "boolean"
  | byte => "byte"
  | short => "short"
  | char => "char"
  | int => "int"
  | long => "long"
  | float => "float"
  | double => "double"

def ofName? (name : String) : Option Prim := all.find? (·.name == name)

def boxedName : Prim → String
  | bool => "Boolean"
  | byte => "Byte"
  | short => "Short"
  | char => "Character"
  | int => "Integer"
  | long => "Long"
  | float => "Float"
  | double => "Double"

def integralRank? : Prim → Option Nat
  | byte => some 1
  | short => some 2
  | char => some 2
  | int => some 3
  | long => some 4
  | _ => none

def isIntegral (prim : Prim) : Bool := prim.integralRank?.isSome

def isFloating : Prim → Bool
  | float => true
  | double => true
  | _ => false

def isNumeric (prim : Prim) : Bool := prim != bool

def above (prim : Prim) : List Prim := (all.dropWhile (· != prim)).drop 1

/-- Whether a value of `source` becomes one of `target` without loss of range. Types of one rank do
not widen into each other, and `byte` does not widen to `char`. -/
def widensTo (source target : Prim) : Bool :=
  match source.integralRank?, target.integralRank? with
  | some low, some high => low < high && !(source == byte && target == char)
  | some _, none => target.isFloating
  | none, none => source == float && target == double
  | none, some _ => false

end Prim

end ScriptTyping
