import ScriptTyping.Number.Binary64

/-!
Numbers read from text: integers of a range in any radix, and doubles.
-/

namespace ScriptTyping

inductive NumberTextError where
  | emptyInteger
  | invalidDigit
  | tooLarge
  | tooSmall
  | emptyFloat
  | invalidFloat
  deriving DecidableEq, Repr

def NumberTextError.message : NumberTextError → String
  | emptyInteger => "cannot parse integer from empty string"
  | invalidDigit => "invalid digit found in string"
  | tooLarge => "number too large to fit in target type"
  | tooSmall => "number too small to fit in target type"
  | emptyFloat => "cannot parse float from empty string"
  | invalidFloat => "invalid float literal"

namespace NumberText

def digit? (radix : Nat) (char : Char) : Option Nat :=
  let value? :=
    if char.isDigit then some (char.toNat - '0'.toNat)
    else if char.isAlpha then some (char.toLower.toNat - 'a'.toNat + 10)
    else none
  value?.filter (· < radix)

def readDigits (radix limit : Nat) (beyond : NumberTextError) :
    Nat → List Char → Except NumberTextError Nat
  | value, [] => .ok value
  | value, char :: rest =>
    match digit? radix char with
    | none => .error .invalidDigit
    | some digit =>
      let value := value * radix + digit
      if value ≤ limit then readDigits radix limit beyond value rest else .error beyond

/-- Reads an integer between `-below` and `above`: an optional sign and at least one digit. A minus
is a sign only where there are negative numbers. -/
def readInteger (radix below above : Nat) (text : List Char) : Except NumberTextError Int :=
  match text with
  | [] => .error .emptyInteger
  | ['+'] => .error .invalidDigit
  | ['-'] => .error .invalidDigit
  | '+' :: digits => do
    let value ← readDigits radix above .tooLarge 0 digits
    .ok value
  | '-' :: digits =>
    if below = 0 then .error .invalidDigit
    else do
      let value ← readDigits radix below .tooSmall 0 digits
      .ok (-value)
  | digits => do
    let value ← readDigits radix above .tooLarge 0 digits
    .ok value

def readInt32 (radix : Nat) (text : List Char) : Except NumberTextError Int :=
  readInteger radix (Nat.pow 2 31) (Nat.pow 2 31 - 1) text

def readInt64 (radix : Nat) (text : List Char) : Except NumberTextError Int :=
  readInteger radix (Nat.pow 2 63) (Nat.pow 2 63 - 1) text

def readNat32 (radix : Nat) (text : List Char) : Except NumberTextError Int :=
  readInteger radix 0 (Nat.pow 2 32 - 1) text

def decimalValue (digits : List Char) : Nat :=
  digits.foldl (fun value char => value * 10 + (char.toNat - '0'.toNat)) 0

def readExponent? : List Char → Option Int
  | [] => some 0
  | letter :: rest =>
    let (isNegative, digits) := match rest with
      | '-' :: digits => (true, digits)
      | '+' :: digits => (false, digits)
      | digits => (false, digits)
    if (letter == 'e' || letter == 'E') && !digits.isEmpty && digits.all (·.isDigit) then
      let value : Int := decimalValue digits
      some (if isNegative then -value else value)
    else none

def spanDigits (text : List Char) : List Char × List Char :=
  (text.takeWhile Char.isDigit, text.dropWhile Char.isDigit)

def spanPlaces : List Char → List Char × List Char
  | '.' :: rest => spanDigits rest
  | rest => ([], rest)

def readDecimal? (isNegative : Bool) (text : List Char) : Option Binary64 :=
  let (whole, rest) := spanDigits text
  let (places, rest) := spanPlaces rest
  if whole.isEmpty && places.isEmpty then none
  else
    (readExponent? rest).map fun exponent =>
      Binary64.ofDecimal isNegative (decimalValue (whole ++ places)) (exponent - places.length)

def readWord? (isNegative : Bool) (text : List Char) : Option Binary64 :=
  let word := String.ofList (text.map (·.toLower))
  if word = "inf" ∨ word = "infinity" then some (.infinity isNegative)
  else if word = "nan" then some .nan
  else none

def readUnsigned? (isNegative : Bool) (text : List Char) : Option Binary64 :=
  (readDecimal? isNegative text).or (readWord? isNegative text)

def readDouble (text : List Char) : Except NumberTextError Binary64 :=
  let number? := match text with
    | '-' :: rest => readUnsigned? true rest
    | '+' :: rest => readUnsigned? false rest
    | rest => readUnsigned? false rest
  match text, number? with
  | [], _ => .error .emptyFloat
  | _, some number => .ok number
  | _, none => .error .invalidFloat

end NumberText

end ScriptTyping
