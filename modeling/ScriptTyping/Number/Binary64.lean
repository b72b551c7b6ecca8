/-!
Double-precision numbers as their bits, and the rounding of a quotient of natural numbers.
-/

namespace ScriptTyping

structure Binary64 where
  bits : UInt64
  deriving DecidableEq, Repr, Inhabited

def roundQuotient (num den : Nat) : Nat :=
  let quotient := num / den
  let twice := 2 * (num % den)
  if den < twice || (twice == den && quotient % 2 == 1) then quotient + 1 else quotient

namespace Binary64

def infinityBits : Nat := 0x7ff0000000000000

def ofMagnitude (isNegative : Bool) (magnitude : Nat) : Binary64 :=
  ⟨UInt64.ofNat (if isNegative then Nat.pow 2 63 + magnitude else magnitude)⟩

def zero : Binary64 := ⟨0⟩

def nan : Binary64 := ⟨0x7ff8000000000000⟩

def infinity (isNegative : Bool) : Binary64 := ofMagnitude isNegative infinityBits

def isNegative (number : Binary64) : Bool := Nat.pow 2 63 ≤ number.bits.toNat

def magnitude (number : Binary64) : Nat := number.bits.toNat % Nat.pow 2 63

def isNan (number : Binary64) : Bool := infinityBits < number.magnitude

def isFinite (number : Binary64) : Bool := number.magnitude < infinityBits

def inUnits (num den : Nat) (exponent : Int) : Nat × Nat :=
  (num * Nat.pow 2 (-exponent).toNat, den * Nat.pow 2 exponent.toNat)

/-- The exponent of the last place of the double nearest to `num / den`, neither of which is zero:
the quotient has 53 digits in units of that place, or fewer at the lowest exponent. -/
def lastPlace (num den : Nat) : Int :=
  let guess : Int := (num.log2 : Int) - den.log2 - 53
  let (num, den) := inUnits num den guess
  max (if Nat.pow 2 53 ≤ num / den then guess + 1 else guess) (-1074)

def ofQuotient (isNegative : Bool) (num den : Nat) : Binary64 :=
  if num = 0 then ofMagnitude isNegative 0
  else
    let exponent := lastPlace num den
    let (num, den) := inUnits num den exponent
    let magnitude := (exponent + 1074).toNat * Nat.pow 2 52 + roundQuotient num den
    ofMagnitude isNegative (min magnitude infinityBits)

/-- The double nearest to `digits * 10 ^ exponent`. Beyond 400 digits before or zeros after the
point it is infinite or zero. -/
def ofDecimal (isNegative : Bool) (digits : Nat) (exponent : Int) : Binary64 :=
  let point := exponent + (toString digits).length
  if digits = 0 || point < -400 then ofMagnitude isNegative 0
  else if 400 < point then infinity isNegative
  else ofQuotient isNegative (digits * Nat.pow 10 exponent.toNat) (Nat.pow 10 (-exponent).toNat)

def significand (number : Binary64) : Nat :=
  let fraction := number.magnitude % Nat.pow 2 52
  if number.magnitude < Nat.pow 2 52 then fraction else Nat.pow 2 52 + fraction

def exponent (number : Binary64) : Int := max (number.magnitude / Nat.pow 2 52 : Nat) 1 - 1075

end Binary64

end ScriptTyping
