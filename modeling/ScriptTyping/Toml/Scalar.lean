import ScriptTyping.Toml.Text
import ScriptTyping.Json.Basic

/-!
The values of TOML documents that are written without quotes and brackets: truth values, numbers,
dates and times.
-/

namespace ScriptTyping

namespace TomlText

/-! ### Numbers -/

def isDigits (digit : Char → Bool) : List Char → Bool
  | [] => false
  | [char] => digit char
  | char :: '_' :: rest => digit char && isDigits digit rest
  | char :: rest => digit char && isDigits digit rest

def isWhole (text : List Char) : Bool :=
  isDigits Char.isDigit text && (text.head? != some '0' || text.length == 1)

def withoutSign : List Char → List Char
  | '+' :: rest => rest
  | '-' :: rest => rest
  | rest => rest

def integerOf? (radix : Nat) (text : List Char) : Option Json :=
  match NumberText.readInt64 radix (text.filter (· != '_')) with
  | .ok value => some (.integer value)
  | .error _ => none

def radixInteger? (radix : Nat) (digits : List Char) : Option Json :=
  if isDigits (fun char => (NumberText.digit? radix char).isSome) digits then
    integerOf? radix digits
  else none

def integer? : List Char → Option Json
  | '0' :: 'x' :: digits => radixInteger? 16 digits
  | '0' :: 'o' :: digits => radixInteger? 8 digits
  | '0' :: 'b' :: digits => radixInteger? 2 digits
  | text => if isWhole (withoutSign text) then integerOf? 10 text else none

def splitAt (mark : Char → Bool) (text : List Char) : List Char × Option (List Char) :=
  (text.takeWhile (!mark ·),
    match text.dropWhile (!mark ·) with
    | [] => none
    | _ :: rest => some rest)

def isFloat (text : List Char) : Bool :=
  let (mantissa, power) := splitAt (fun char => char == 'e' || char == 'E') text
  let (whole, places) := splitAt (· == '.') mantissa
  isWhole (withoutSign whole) && (places.isSome || power.isSome) &&
    places.all (isDigits Char.isDigit) &&
    power.all fun power => isDigits Char.isDigit (withoutSign power)

def float? (text : List Char) : Option Json :=
  let digits := text.filter (· != '_')
  let word := String.ofList (withoutSign text)
  if word = "inf" ∨ word = "nan" then some (.decimal (String.ofList text))
  else if isFloat text then
    match NumberText.readDouble digits with
    | .ok number =>
      if number = .infinity false then none else some (.decimal (String.ofList digits))
    | .error _ => none
  else none

/-! ### Dates and times -/

def within? (low high : Nat) (digits : List Char) : Option Nat :=
  if digits.all Char.isDigit then
    let value := NumberText.decimalValue digits
    if low ≤ value ∧ value ≤ high then some value else none
  else none

def daysOfMonth (year month : Nat) : Nat :=
  if month = 2 then
    if year % 4 = 0 ∧ (year % 100 ≠ 0 ∨ year % 400 = 0) then 29 else 28
  else if [4, 6, 9, 11].contains month then 30
  else 31

def afterDate? : List Char → Option (List Char)
  | y1 :: y2 :: y3 :: y4 :: '-' :: m1 :: m2 :: '-' :: d1 :: d2 :: rest => do
    let year ← within? 0 9999 [y1, y2, y3, y4]
    let month ← within? 1 12 [m1, m2]
    let _ ← within? 1 (daysOfMonth year month) [d1, d2]
    some rest
  | _ => none

def afterTime? : List Char → Option (List Char)
  | h1 :: h2 :: ':' :: m1 :: m2 :: ':' :: s1 :: s2 :: rest => do
    let _ ← within? 0 23 [h1, h2]
    let _ ← within? 0 59 [m1, m2]
    let _ ← within? 0 60 [s1, s2]
    match rest with
    | '.' :: places =>
      match NumberText.spanDigits places with
      | ([], _) => none
      | (_, rest) => some rest
    | rest => some rest
  | _ => none

def isOffset : List Char → Bool
  | [] => true
  | ['Z'] => true
  | ['z'] => true
  | sign :: h1 :: h2 :: ':' :: [m1, m2] =>
    (sign == '+' || sign == '-') && (within? 0 23 [h1, h2]).isSome && (within? 0 59 [m1, m2]).isSome
  | _ => false

def isDatedTime (text : List Char) : Bool := (afterTime? text).any isOffset

def moment (text : List Char) : Json := .object [("moment", .string (String.ofList text))]

def moment? (text : List Char) : Option Json :=
  let isMoment : Bool := match afterDate? text with
    | some [] => true
    | some ('T' :: time) => isDatedTime time
    | some ('t' :: time) => isDatedTime time
    | some _ => false
    | none => (afterTime? text).any (·.isEmpty)
  if isMoment then some (moment text) else none

/-! ### Reading -/

def isBareChar (char : Char) : Bool :=
  char.isAlphanum || char == '+' || char == '-' || char == '_' || char == '.' || char == ':'

def bare? (text : List Char) : Option Json :=
  if text = "true".toList then some (.bool true)
  else if text = "false".toList then some (.bool false)
  else ((integer? text).or (float? text)).or (moment? text)

def readBare (text : List Char) : Option (Json × List Char) :=
  let word := text.takeWhile isBareChar
  let rest := text.dropWhile isBareChar
  let time := (rest.drop 1).takeWhile isBareChar
  if rest.head? == some ' ' && afterDate? word == some [] && isDatedTime time then
    some (moment (word ++ ' ' :: time), (rest.drop 1).dropWhile isBareChar)
  else (bare? word).map (·, rest)

end TomlText

end ScriptTyping
