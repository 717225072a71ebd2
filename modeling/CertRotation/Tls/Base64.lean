import CertRotation.Text.Utf8

/-!
# Base 64

Four characters write three bytes.  Space between the characters means nothing, and at the end of
the text equals signs may fill up the last four characters but need not.

A text is read in groups of eight characters as long as more follow, then in a group of four, and
what remains is the last group.  Padding may only stand in the last group.
-/

set_option autoImplicit false

namespace CertRotation
namespace Base64

/-- Why a text cannot be decoded. -/
inductive Flaw where
  | invalidCharacter (byte : UInt8)
  /-- An equals sign with more characters after it. -/
  | prematurePadding
  /-- The last group writes no whole number of bytes. -/
  | invalidTrailingPadding
  deriving DecidableEq

namespace Flaw

/-- The message of a flaw. -/
def message : Flaw → String
  | invalidCharacter byte => "InvalidCharacter(" ++ toString byte ++ ")"
  | prematurePadding => "PrematurePadding"
  | invalidTrailingPadding => "InvalidTrailingPadding"

end Flaw

/-- Whether a byte between the characters means nothing: tab, line feed, form feed, carriage return
and space. -/
def isSpace (b : UInt8) : Bool := b = 9 || b = 10 || b = 12 || b = 13 || b = 32

/-- The sixty-four values of the characters. -/
def value? (b : UInt8) : Option UInt8 :=
  if 65 ≤ b ∧ b ≤ 90 then some (b - 65)
  else if 97 ≤ b ∧ b ≤ 122 then some (b - 71)
  else if 48 ≤ b ∧ b ≤ 57 then some (b + 4)
  else if b = 43 then some 62
  else if b = 47 then some 63
  else none

/-- A character: six bits, or the equals sign. -/
inductive Symbol where
  | bits (value : UInt8)
  | padding
  deriving DecidableEq

/-- The character that a byte is, if it is one. -/
def symbol? (b : UInt8) : Option Symbol :=
  if b = 61 then some .padding else (value? b).map .bits

/-- Three bytes from four values. -/
def join (a b c d : UInt8) : Bytes :=
  [(a <<< 2) ||| (b >>> 4), (b <<< 4) ||| (c >>> 2), (c <<< 6) ||| d]

/-- The bytes of a group that is not the last; the group has no padding. -/
def group : List Symbol → Option Bytes
  | [.bits a, .bits b, .bits c, .bits d] => some (join a b c d)
  | _ => none

/-- The bytes of the last group. -/
def lastGroup : List Symbol → Option Bytes
  | [] => some []
  | [.bits a, .bits b, .bits c, .bits d] => some (join a b c d)
  | [.bits a, .bits b, .bits c, .padding] | [.bits a, .bits b, .bits c] =>
    some ((join a b c 0).take 2)
  | [.bits a, .bits b, .padding, .padding] | [.bits a, .bits b] => some ((join a b 0 0).take 1)
  | _ => none

/-- The bytes of the end of a text, at most eight characters. -/
def finish (symbols : List Symbol) : Except Flaw Bytes :=
  if 4 < symbols.length then
    match group (symbols.take 4), lastGroup (symbols.drop 4) with
    | none, _ => .error .prematurePadding
    | some _, none => .error .invalidTrailingPadding
    | some first, some last => .ok (first ++ last)
  else
    match lastGroup symbols with
    | none => .error .invalidTrailingPadding
    | some last => .ok last

/-- Reads on after the characters `held`, the last one first, of which there are at most eight.  A
group of eight is decoded when a ninth character is there. -/
def decodeFrom (held : List Symbol) : Bytes → Except Flaw Bytes
  | [] => finish held.reverse
  | b :: rest =>
    if isSpace b then decodeFrom held rest
    else
      match symbol? b with
      | none => .error (.invalidCharacter b)
      | some symbol =>
        if held.length < 8 then decodeFrom (symbol :: held) rest
        else
          let symbols := held.reverse
          match group (symbols.take 4), group (symbols.drop 4) with
          | some first, some second => (first ++ second ++ ·) <$> decodeFrom [symbol] rest
          | _, _ => .error .prematurePadding

/-- The bytes that a text writes. -/
def decode (text : Bytes) : Except Flaw Bytes := decodeFrom [] text

end Base64
end CertRotation
