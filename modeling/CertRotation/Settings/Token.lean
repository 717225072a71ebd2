import CertRotation.Number.Binary64

/-!
# Tokens of settings files

Settings files are JSON texts.  A text is cut into tokens first: marks, words, numbers and quoted
texts.  `Token.scan` cuts a whole text or refuses it.

A quoted text may write half of a pair of code units.  That is an error only where the text is
looked at, so a token keeps such a text as none at all.
-/

set_option autoImplicit false

namespace CertRotation

/-! ## Numbers -/

/-- A number as it is written: its sign, the digits before and after the point, and the exponent
with its sign. -/
structure Numeral where
  negative : Bool
  whole : List Char
  fraction : List Char
  exponent : Option (Bool × List Char)
  deriving DecidableEq

namespace Numeral

/-- The largest number of 64 binary digits. -/
def maxWord : Nat := UInt64.size - 1

/-- The value of a digit. -/
def digit (c : Char) : Nat := c.toNat - 48

/-- The value of some digits. -/
def digits (cs : List Char) : Nat := cs.foldl (fun n c => n * 10 + digit c) 0

/-- The number, if it is written as a natural number of at most `limit`. -/
def natural? (n : Numeral) (limit : Nat) : Option Nat :=
  if n.negative ∨ n.fraction ≠ [] ∨ n.exponent.isSome then none
  else if digits n.whole ≤ limit then some (digits n.whole) else none

/-- Appends digits to a number as long as the result is at most `maxWord`, and gives the digits that
are left. -/
def append : Nat → List Char → Nat × List Char
  | n, [] => (n, [])
  | n, c :: rest =>
    if n * 10 + digit c ≤ maxWord then append (n * 10 + digit c) rest else (n, c :: rest)

/-- `x` times a power of ten.  Small powers are divided by, in steps of 308 places; none if the
result is too large. -/
def scale (x : Float) (exponent : Int) : Option Float :=
  if exponent.natAbs ≤ 308 then
    if 0 ≤ exponent then
      let y := x * Binary64.ofNat (Nat.pow 10 exponent.natAbs)
      if y.isInf then none else some y
    else some (x / Binary64.ofNat (Nat.pow 10 exponent.natAbs))
  else if x == 0 then some x
  else if h : 0 ≤ exponent then none
  else scale (x / Binary64.ofNat (Nat.pow 10 308)) (exponent + 308)
  termination_by exponent.natAbs
  decreasing_by omega

/-- The number as a binary fraction.  As many digits as fit into 64 binary digits count, the others
only hold their places; none if the number is too large. -/
def fraction? (n : Numeral) : Option Float :=
  let (high, wholeLeft) := append 0 n.whole
  let (digits, fractionLeft) := append high n.fraction
  let places : Int := wholeLeft.length - (n.fraction.length - fractionLeft.length : Nat)
  let exponent : Int :=
    match n.exponent with
    | none => 0
    | some (negative, ds) => if negative then -(Numeral.digits ds : Int) else Numeral.digits ds
  (scale (Binary64.ofNat digits) (places + exponent)).map fun x =>
    if n.negative then Binary64.negate x else x

end Numeral

/-! ## Texts -/

/-- A piece of a quoted text: a character, or a code unit of sixteen bits written by its number. -/
inductive TextPiece where
  | char (c : Char)
  | unit (n : Nat)

namespace TextPiece

/-- Whether a code unit is the first half of a pair. -/
def isHigh (n : Nat) : Bool := 0xD800 ≤ n && n < 0xDC00

/-- Whether a code unit is the second half of a pair. -/
def isLow (n : Nat) : Bool := 0xDC00 ≤ n && n < 0xE000

/-- The characters of some pieces; none if half of a pair stands alone. -/
def join : List TextPiece → Option (List Char)
  | [] => some []
  | char c :: rest => (join rest).map (c :: ·)
  | unit high :: unit low :: rest =>
    if isHigh high then
      if isLow low then
        (join rest).map (Char.ofNat (0x10000 + (high - 0xD800) * 0x400 + (low - 0xDC00)) :: ·)
      else none
    else if isLow high then none
    else (join (unit low :: rest)).map (Char.ofNat high :: ·)
  | unit n :: rest =>
    if isHigh n || isLow n then none else (join rest).map (Char.ofNat n :: ·)

/-- The value of a digit in base sixteen. -/
def hexDigit? (c : Char) : Option Nat :=
  if c.isDigit then some (c.toNat - 48)
  else if 'a' ≤ c ∧ c ≤ 'f' then some (c.toNat - 87)
  else if 'A' ≤ c ∧ c ≤ 'F' then some (c.toNat - 55)
  else none

/-- The code unit that four digits write. -/
def unit? (a b c d : Char) : Option TextPiece := do
  let a ← hexDigit? a
  let b ← hexDigit? b
  let c ← hexDigit? c
  let d ← hexDigit? d
  some (unit (((a * 16 + b) * 16 + c) * 16 + d))

/-- The character that is written with a backslash in front. -/
def escaped? (c : Char) : Option TextPiece :=
  if c = '"' ∨ c = '\\' ∨ c = '/' then some (char c)
  else if c = 'b' then some (char '\x08')
  else if c = 'f' then some (char '\x0c')
  else if c = 'n' then some (char '\n')
  else if c = 'r' then some (char '\r')
  else if c = 't' then some (char '\t')
  else none

/-- The pieces of a quoted text after its first quote, and what follows its last one. -/
def scan : List Char → Option (List TextPiece × List Char)
  | [] => none
  | '"' :: rest => some ([], rest)
  | '\\' :: 'u' :: a :: b :: c :: d :: rest => do
    let piece ← unit? a b c d
    let (pieces, rest) ← scan rest
    some (piece :: pieces, rest)
  | '\\' :: c :: rest => do
    let piece ← escaped? c
    let (pieces, rest) ← scan rest
    some (piece :: pieces, rest)
  | c :: rest =>
    if c.toNat < 32 then none
    else do
      let (pieces, rest) ← scan rest
      some (char c :: pieces, rest)

end TextPiece

/-! ## Tokens -/

/-- A token of a settings file. -/
inductive Token where
  | openList
  | closeList
  | openObject
  | closeObject
  | comma
  | colon
  | null
  | flag (value : Bool)
  | number (value : Numeral)
  | text (value : Option (List Char))

namespace Token

/-- Whether a character between tokens means nothing. -/
def isSpace (c : Char) : Bool := c = ' ' || c = '\t' || c = '\n' || c = '\r'

/-- The digits that come first, of which there must be one. -/
def scanDigits (cs : List Char) : Option (List Char × List Char) :=
  match cs.takeWhile Char.isDigit with
  | [] => none
  | ds => some (ds, cs.dropWhile Char.isDigit)

/-- The digits before the point: a zero only if it stands alone. -/
def scanWhole : List Char → Option (List Char × List Char)
  | '0' :: rest => if (rest.head?.any Char.isDigit) then none else some (['0'], rest)
  | cs => scanDigits cs

/-- The point and the digits after it, if there is a point. -/
def scanFraction : List Char → Option (List Char × List Char)
  | '.' :: rest => scanDigits rest
  | cs => some ([], cs)

/-- The exponent, if there is one. -/
def scanExponent : List Char → Option (Option (Bool × List Char) × List Char)
  | c :: rest =>
    if c = 'e' ∨ c = 'E' then
      let (negative, rest) :=
        match rest with
        | '-' :: rest => (true, rest)
        | '+' :: rest => (false, rest)
        | rest => (false, rest)
      (scanDigits rest).map fun (ds, rest) => (some (negative, ds), rest)
    else some (none, c :: rest)
  | [] => some (none, [])

/-- A number that has the given sign. -/
def scanNumber (negative : Bool) (cs : List Char) : Option (Token × List Char) := do
  let (whole, cs) ← scanWhole cs
  let (fraction, cs) ← scanFraction cs
  let (exponent, cs) ← scanExponent cs
  some (number ⟨negative, whole, fraction, exponent⟩, cs)

/-- The token that comes first, where no space does. -/
def next? : List Char → Option (Token × List Char)
  | '[' :: rest => some (openList, rest)
  | ']' :: rest => some (closeList, rest)
  | '\x7b' :: rest => some (openObject, rest)
  | '\x7d' :: rest => some (closeObject, rest)
  | ',' :: rest => some (comma, rest)
  | ':' :: rest => some (colon, rest)
  | 'n' :: 'u' :: 'l' :: 'l' :: rest => some (null, rest)
  | 't' :: 'r' :: 'u' :: 'e' :: rest => some (flag true, rest)
  | 'f' :: 'a' :: 'l' :: 's' :: 'e' :: rest => some (flag false, rest)
  | '"' :: rest =>
    (TextPiece.scan rest).map fun (pieces, rest) => (text (TextPiece.join pieces), rest)
  | '-' :: rest => scanNumber true rest
  | cs => scanNumber false cs

/-- The tokens of a text, at most `fuel` of them. -/
def scanWithin : Nat → List Char → Option (List Token)
  | fuel, cs =>
    match cs.dropWhile isSpace, fuel with
    | [], _ => some []
    | _ :: _, 0 => none
    | c :: rest, fuel + 1 => do
      let (token, rest) ← next? (c :: rest)
      (scanWithin fuel rest).map (token :: ·)

/-- The tokens of a text.  Every token has a character of its own. -/
def scan (cs : List Char) : Option (List Token) := scanWithin cs.length cs

end Token
end CertRotation
