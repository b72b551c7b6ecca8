/-!
JSON values. Objects keep their members in order, repeated names included.
-/

namespace ScriptTyping

inductive Json where
  | null
  | bool (value : Bool)
  /-- A number without fraction and exponent. -/
  | integer (value : Int)
  /-- Any other number, as it is written. -/
  | decimal (text : String)
  | string (value : String)
  | array (items : List Json)
  | object (members : List (String × Json))
  /-- A string with an escaped surrogate that has no partner, or an object with such a name. It is
  well formed but stands for no text. -/
  | unpaired
  deriving Repr, Inhabited

namespace Json

def get? (json : Json) (name : String) : Option Json :=
  match json with
  | object members => (members.reverse.find? (·.1 == name)).map (·.2)
  | _ => none

mutual

def distinct : Json → Json
  | array items => array (distinctItems items)
  | object members => object (distinctMembers members)
  | json => json

def distinctItems : List Json → List Json
  | [] => []
  | item :: rest => distinct item :: distinctItems rest

def distinctMembers : List (String × Json) → List (String × Json)
  | [] => []
  | (name, value) :: rest =>
    if rest.any (·.1 == name) then distinctMembers rest
    else (name, distinct value) :: distinctMembers rest

end

def natural? : Json → Option Nat
  | integer value => if 0 ≤ value then some value.toNat else none
  | _ => none

def word? (bits : Nat) (json : Json) : Option Nat := json.natural?.filter (· < Nat.pow 2 bits)

def string? : Json → Option String
  | string value => some value
  | _ => none

def bool? : Json → Option Bool
  | bool value => some value
  | _ => none

def items? : Json → Option (List Json)
  | array items => some items
  | _ => none

def nullable {α : Type} (read : Json → Option α) : Json → Option (Option α)
  | null => some none
  | json => (read json).map some

def single? (members : List (String × Json)) (name : String) : Option (Option Json) :=
  match members.filter (·.1 == name) with
  | [] => some none
  | [(_, value)] => some (some value)
  | _ => none

/-- What becomes of the items of an array that stands for a record when there are more of them than
the record has fields. -/
inductive Surplus where
  | refused
  | ignored
  deriving DecidableEq, Repr

/-- The fields of a record: those members of an object that have these names, or the items of an
array in this order. A field may be missing, other members do not count. -/
def record? (surplus : Surplus) (names : List String) : Json → Option (List (Option Json))
  | object members => names.mapM (single? members)
  | array items =>
    if surplus = .refused ∧ names.length < items.length then none
    else some ((List.range names.length).map (items[·]?))
  | _ => none

end Json

end ScriptTyping
