import CertRotation.Number.Binary64
import CertRotation.Text.Utf8

/-!
# Values written as text

The values of settings can be given as plain texts, as in the environment of a program.  A number
may have a plus sign in front; nothing else may stand around a value, and no space.
-/

set_option autoImplicit false

namespace CertRotation.Text

/-- The value of some decimal digits, of which there must be one. -/
def digits? (cs : List Char) : Option Nat :=
  if cs ≠ [] ∧ cs.all Char.isDigit then
    some (cs.foldl (fun n c => n * 10 + (c.toNat - 48)) 0)
  else none

/-- A natural number of at most `limit`. -/
def natural? (limit : Nat) (cs : List Char) : Option Nat :=
  (digits? (if cs.head? = some '+' then cs.drop 1 else cs)).filter (· ≤ limit)

/-- A whole number between `-(limit + 1)` and `limit`. -/
def integer? (limit : Nat) (cs : List Char) : Option Int :=
  match cs with
  | '-' :: rest => ((digits? rest).filter (· ≤ limit + 1)).map fun n => -(n : Int)
  | cs => (natural? limit cs).map fun n => (n : Int)

/-- A truth value. -/
def flag? (cs : List Char) : Option Bool :=
  if cs = "true".toList then some true else if cs = "false".toList then some false else none

/-- A single character. -/
def char? : List Char → Option Char
  | [c] => some c
  | _ => none

/-! ## Fractions -/

/-- The exponent of a fraction: the letter, a sign and digits.  No exponent is zero. -/
def exponent? : List Char → Option Int
  | [] => some 0
  | c :: rest =>
    if c = 'e' ∨ c = 'E' then
      match rest with
      | '-' :: ds => (digits? ds).map fun n => -(n : Int)
      | '+' :: ds => (digits? ds).map fun n => (n : Int)
      | ds => (digits? ds).map fun n => (n : Int)
    else none

/-- A fraction without sign, written with digits: there is one before the point or after it. -/
def positional? (cs : List Char) : Option Float :=
  let whole := cs.takeWhile Char.isDigit
  let rest := cs.dropWhile Char.isDigit
  let (fraction, rest) :=
    match rest with
    | '.' :: rest => (rest.takeWhile Char.isDigit, rest.dropWhile Char.isDigit)
    | rest => ([], rest)
  match digits? (whole ++ fraction), exponent? rest with
  | some n, some e => some (Binary64.ofDecimal n (e - fraction.length))
  | _, _ => none

/-- A fraction without sign, which may also be infinite or no number. -/
def magnitude? (cs : List Char) : Option Float :=
  let word := cs.map Char.toLower
  if word = "inf".toList ∨ word = "infinity".toList then some (Binary64.ofRatio (Nat.pow 2 1024) 1)
  else if word = "nan".toList then some (Float.ofBits 0x7FF8000000000000)
  else positional? cs

/-- A fraction: the binary fraction nearest to the number that is written. -/
def fraction? : List Char → Option Float
  | '-' :: rest => (magnitude? rest).map Binary64.negate
  | '+' :: rest => magnitude? rest
  | cs => magnitude? cs

end CertRotation.Text
