/-!
# Rounding to binary fractions

A quotient of two natural numbers lies between two neighbouring binary fractions of 53 digits.
`Binary64.ofRatio` picks the nearer one, the even one of two that are equally near, in exact integer
arithmetic.  Reading a decimal number and turning a count of time units into a fraction both go
through it, so their results do not depend on an order of operations.
-/

set_option autoImplicit false

namespace CertRotation.Binary64

/-- `num / den` rounded to a whole number, a half to the even neighbour. -/
def roundDiv (num den : Nat) : Nat :=
  let q := num / den
  let r := num % den
  if 2 * r < den then q else if den < 2 * r then q + 1 else q + q % 2

/-- The exponent of the last of 53 binary digits of `num / den`, counted from the smallest
exponent there is, `-1074`. -/
def exponentIndex (num den : Nat) : Nat :=
  let guess := num.log2 + 1074 - den.log2 - 53
  let fits (k : Nat) : Bool :=
    if k ≤ 1074 then num <<< (1074 - k) < den <<< 53 else num < den <<< 53 <<< (k - 1074)
  if fits guess then guess else if fits (guess + 1) then guess + 1 else guess + 2

/-- The bit pattern of the fraction nearest to `num / den`, where `den` is not zero; that of
infinity if the quotient is beyond the largest fraction. -/
def ratioBits (num den : Nat) : UInt64 :=
  if num = 0 then 0
  else
    let k := exponentIndex num den
    let digits :=
      if k ≤ 1074 then roundDiv (num <<< (1074 - k)) den else roundDiv num (den <<< (k - 1074))
    let bits := (k <<< 52) + digits
    if bits < 0x7FF0000000000000 then bits.toUInt64 else 0x7FF0000000000000

/-- The fraction nearest to `num / den`. -/
def ofRatio (num den : Nat) : Float := Float.ofBits (ratioBits num den)

/-- The fraction nearest to `n`. -/
def ofNat (n : Nat) : Float := ofRatio n 1

/-- The fraction nearest to `digits * 10 ^ exponent`.  Beyond four hundred places the result is zero
or infinity whatever the digits are. -/
def ofDecimal (digits : Nat) (exponent : Int) : Float :=
  if digits = 0 then 0
  else
    let places : Int := (Nat.toDigits 10 digits).length + exponent
    if places < -400 then 0
    else if 400 < places then ofRatio (Nat.pow 10 400) 1
    else if 0 ≤ exponent then ofRatio (digits * Nat.pow 10 exponent.toNat) 1
    else ofRatio digits (Nat.pow 10 (-exponent).toNat)

/-- `x` with its sign turned round. -/
def negate (x : Float) : Float := Float.ofBits (x.toBits ^^^ 0x8000000000000000)

end CertRotation.Binary64
