import ScriptTyping.Registry.Basic

/-!
What every script can use without an import: host types, operator functions, conversions and the
members that serve runtime lookups. They are registered in this order.
-/

namespace ScriptTyping

namespace Builtin

/-! ### Host types -/

def hostTypes : List TypeDef :=
  [{ name := "String" }] ++
    Prim.all.map (fun prim => { name := prim.boxedName, boxes := some prim }) ++
    [{ name := "Function" },
      { name := "Array", params := ["T"] },
      { name := "Set", params := ["T"] },
      { name := "Dict", params := ["V"] },
      { name := "Iterator", params := ["T"] }]

def method (owner : String) (vars : List String) (name : String) (params : List Ty) (result : Ty) :
    Member where
  owner := owner
  name := name
  kind := .method
  isStatic := false
  params := params
  result := result
  vars := vars
  ownerVars := vars.length

def hostMembers : List Member :=
  [method "String" [] "length" [] .int,
    method "String" [] "charAt" [.int] .char,
    method "String" [] "substring" [.int, .int] .string,
    method "String" [] "indexOf" [.string] .int,
    method "String" [] "equals" [.object] .bool] ++
  Prim.all.map (fun prim => method prim.boxedName [] "toString" [] .string) ++
  [method "Array" ["T"] "get" [.int] (.var 0),
    method "Array" ["T"] "set" [.int, .var 0] .void,
    method "Array" ["T"] "size" [] .int,
    { method "Array" ["T"] "length" [] .int with kind := .field, isReadonly := true },
    method "Set" ["T"] "add" [.var 0] .bool,
    method "Set" ["T"] "contains" [.var 0] .bool,
    method "Set" ["T"] "size" [] .int,
    method "Dict" ["V"] "get" [.string] (.var 0),
    method "Dict" ["V"] "set" [.string, .var 0] .void,
    method "Dict" ["V"] "has" [.string] .bool,
    method "Dict" ["V"] "size" [] .int,
    method "Dict" ["V"] "keys" [] (.array .string),
    method "Iterator" ["T"] "hasNext" [] .bool,
    method "Iterator" ["T"] "next" [] (.var 0)]

/-! ### Operators -/

def arithmetic : List String := ["opAdd", "opSub", "opMul", "opDiv", "opMod"]

def comparison : List String :=
  ["opLessThan", "opLessThanEquals", "opGreaterThan", "opGreaterThanEquals"]

def equality : List String := ["opEquals", "opNotEquals"]

def bitwise : List String := ["opBitwiseAnd", "opBitwiseOr", "opBitwiseXor"]

def shift : List String := ["opLeftShift", "opRightShift", "opLogicalRightShift"]

def operator (params : List Ty) (result : Ty) (name : String) : Member where
  owner := "Operators"
  name := name
  kind := .function
  params := params
  result := result

def numericOperators (prim : Prim) : List Member :=
  let ty := Ty.prim prim
  arithmetic.map (operator [ty, ty] ty) ++ (comparison ++ equality).map (operator [ty, ty] .bool) ++
    ["opPlus", "opMinus"].map (operator [ty] ty)

def integralOperators (prim : Prim) : List Member :=
  let ty := Ty.prim prim
  (bitwise ++ shift).map (operator [ty, ty] ty) ++ [operator [ty] ty "opCompl"]

def operators : List Member :=
  [Prim.int, .long, .float, .double].flatMap numericOperators ++
    [Prim.int, .long].flatMap integralOperators ++
    (bitwise ++ equality).map (operator [.bool, .bool] .bool) ++
    [operator [.string, .string] .string "opAdd"] ++
    equality.flatMap fun name =>
      [operator [.string, .string] .bool name, operator [.object, .object] .bool name]

end Builtin

/-! ### Conversions -/

inductive ConversionKind where
  /-- Applied wherever a value flows into a wider type. -/
  | widening
  /-- Applied only by a written cast. -/
  | narrowing
  /-- Formats or parses text; applied by a written cast and to operands of a concatenation. -/
  | convert
  deriving DecidableEq, Repr, Inhabited

structure Conversion where
  source : Ty
  target : Ty
  kind : ConversionKind
  deriving Repr, Inhabited

namespace Conversion

def memberName (conversion : Conversion) : String :=
  match conversion.target.text.toList with
  | [] => "to"
  | first :: rest => "to" ++ String.ofList (first.toUpper :: rest)

def member (conversion : Conversion) : Member where
  owner := "Conversions"
  name := conversion.memberName
  kind := .method
  params := [conversion.source]
  result := conversion.target

def numeric (source target : Prim) : Conversion :=
  ⟨.prim source, .prim target, if source.widensTo target then .widening else .narrowing⟩

def boxing (prim : Prim) : List Conversion :=
  [⟨.prim prim, .host prim.boxedName, .widening⟩,
    ⟨.host prim.boxedName, .prim prim, .widening⟩,
    ⟨.prim prim, .string, .convert⟩]

def all : List Conversion :=
  let numbers := Prim.all.filter (·.isNumeric)
  numbers.flatMap (fun source => (numbers.filter (· ≠ source)).map (numeric source)) ++
    Prim.all.flatMap boxing ++
    [⟨.object, .string, .convert⟩] ++
    [Prim.int, .long, .double].map (fun prim => ⟨.string, .prim prim, .convert⟩)

end Conversion

/-! ### Runtime lookups -/

namespace Builtin

def runtimeMethod (name : String) (params : List Ty) (result : Ty) : Member where
  owner := "Runtime"
  name := name
  kind := .method
  params := params
  result := result

def invokers (arity : Nat) : List Member :=
  let args := List.replicate arity Ty.object
  [runtimeMethod "invokeDynamic" ([.dynamic, .string] ++ args) .dynamic,
    runtimeMethod "invokeFunction" ([.callable] ++ args) .object]

def runtimeMembers (maxArity : Nat) : List Member :=
  [runtimeMethod "assert" [.bool, .string] .void,
    runtimeMethod "getField" [.dynamic, .string] .dynamic,
    runtimeMethod "setField" [.dynamic, .string, .object] .void,
    runtimeMethod "getIndex" [.dynamic, .object] .dynamic,
    runtimeMethod "setIndex" [.dynamic, .object, .object] .void,
    { runtimeMethod "interpolate" [.array .object] .string with isVariadic := true }] ++
  (List.range (maxArity + 1)).flatMap invokers

def registry (maxArity : Nat) : Registry :=
  (({} : Registry).addTypes hostTypes).addMembers
    (hostMembers ++ operators ++ Conversion.all.map (·.member) ++ runtimeMembers maxArity)

def firstConversion : MemberId := (hostMembers ++ operators).length

end Builtin

structure CastEntry where
  conversion : Conversion
  member : MemberId
  deriving Repr, Inhabited

namespace CastEntry

def all : List CastEntry :=
  Conversion.all.zipIdx.map fun (conversion, index) =>
    ⟨conversion, Builtin.firstConversion + index⟩

def find? (source target : Ty) : Option CastEntry :=
  all.find? fun entry => entry.conversion.source == source && entry.conversion.target == target

end CastEntry

/-! ### Members that nodes are bound to without a lookup -/

namespace RuntimeMember

def assertion : MemberId := Builtin.firstConversion + Conversion.all.length

def fieldGetter : MemberId := assertion + 1

def fieldSetter : MemberId := assertion + 2

def indexGetter : MemberId := assertion + 3

def indexSetter : MemberId := assertion + 4

def interpolation : MemberId := assertion + 5

def dynamicInvoker? (maxArity arity : Nat) : Option MemberId :=
  if arity ≤ maxArity then some (assertion + 6 + 2 * arity) else none

def functionInvoker? (maxArity arity : Nat) : Option MemberId :=
  if arity ≤ maxArity then some (assertion + 7 + 2 * arity) else none

end RuntimeMember

end ScriptTyping
