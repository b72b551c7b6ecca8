import ScriptTyping.Number.Binary64

/-!
The text of a double: the fewest decimal digits that read back as it, and of those the nearest.
-/

namespace ScriptTyping

namespace Shortest

/-- The reals that round to a double: those between `low / unit` and `high / unit`, ends included
if `closed`. The double itself is `value / unit`. -/
structure Interval where
  value : Nat
  low : Nat
  high : Nat
  unit : Nat
  closed : Bool

def interval (number : Binary64) : Interval :=
  let significand := number.significand
  let isNarrowBelow := significand == Nat.pow 2 52 && -1074 < number.exponent
  let exponent := number.exponent - 2
  let scale := Nat.pow 2 exponent.toNat
  { value := 4 * significand * scale
    low := (if isNarrowBelow then 4 * significand - 1 else 4 * significand - 2) * scale
    high := (4 * significand + 2) * scale
    unit := Nat.pow 2 (-exponent).toNat
    closed := significand % 2 == 0 }

def Interval.holds (interval : Interval) (num den : Nat) : Bool :=
  let place := num * interval.unit
  if interval.closed then interval.low * den ≤ place && place ≤ interval.high * den
  else interval.low * den < place && place < interval.high * den

def pointPosition (num den : Nat) : Int :=
  if den ≤ num then (toString (num / den)).length
  else 1 - (toString ((den + num - 1) / num - 1)).length

structure Digits where
  digits : Nat
  exponent : Int
  deriving DecidableEq, Repr

/-- The better of the two neighbours of the value among the multiples of `10 ^ exponent`, if one
lies in the interval: the nearer, and of equally near ones the even. -/
def Interval.neighbour? (interval : Interval) (exponent : Int) : Option Digits :=
  let up := Nat.pow 10 exponent.toNat
  let down := Nat.pow 10 (-exponent).toNat
  let below := interval.value * down / (interval.unit * up)
  let twiceRest := 2 * (interval.value * down % (interval.unit * up))
  let belowIsBetter :=
    twiceRest < interval.unit * up || (twiceRest == interval.unit * up && below % 2 == 0)
  match interval.holds (below * up) down, interval.holds ((below + 1) * up) down with
  | true, true => some ⟨if belowIsBetter then below else below + 1, exponent⟩
  | true, false => some ⟨below, exponent⟩
  | false, true => some ⟨below + 1, exponent⟩
  | false, false => none

def stripZeros : Nat → Digits → Digits
  | 0, digits => digits
  | fuel + 1, ⟨digits, exponent⟩ =>
    if digits ≠ 0 && digits % 10 == 0 then stripZeros fuel ⟨digits / 10, exponent + 1⟩
    else ⟨digits, exponent⟩

/-- The shortest digits that read back as a finite double that is not zero. Seventeen digits are
always enough. -/
def digits (number : Binary64) : Digits :=
  let interval := interval number
  let point := pointPosition interval.value interval.unit
  let found := (List.range 17).findSome? fun count =>
    interval.neighbour? (point - (count + 1 : Nat))
  stripZeros 20 (found.getD ⟨interval.value / interval.unit, 0⟩)

def exponentText (exponent : Int) : String :=
  if 0 ≤ exponent then "e+" ++ toString exponent else "e" ++ toString exponent

/-- Positional down to five places after the point and up to sixteen before it, always with a
point; otherwise with an exponent. -/
def layout (digits : Digits) : String :=
  let text := (toString digits.digits).toList
  let point : Int := text.length + digits.exponent
  if 0 ≤ digits.exponent && point ≤ 16 then
    String.ofList (text ++ List.replicate digits.exponent.toNat '0') ++ ".0"
  else if 0 < point && point ≤ 16 then
    String.ofList (text.take point.toNat) ++ "." ++ String.ofList (text.drop point.toNat)
  else if -5 < point && point ≤ 0 then
    "0." ++ String.ofList (List.replicate (-point).toNat '0' ++ text)
  else
    let mantissa := match text with
      | first :: second :: rest => String.ofList (first :: '.' :: second :: rest)
      | _ => String.ofList text
    mantissa ++ exponentText (point - 1)

end Shortest

def Binary64.text (number : Binary64) : String :=
  let sign := if number.isNegative then "-" else ""
  if number.magnitude = 0 then sign ++ "0.0"
  else sign ++ Shortest.layout (Shortest.digits number)

end ScriptTyping
