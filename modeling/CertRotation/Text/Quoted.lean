import CertRotation.Text.Unprintable
import CertRotation.Text.Utf8

/-!
# Quoted text

Messages show the texts of others between double quotes, so that blanks, quotes and line ends in
them cannot be mistaken for the message.  `Text.quote` quotes a text and `Text.quoteBytes` a byte
string, in which a part that spells no character is shown byte by byte.
-/

set_option autoImplicit false

namespace CertRotation.Text

/-- The digits of `n` in base sixteen, lower case. -/
def hex (n : Nat) : String := String.ofList (Nat.toDigits 16 n)

/-- Two digits in base sixteen, upper case. -/
def hexByte (b : UInt8) : String :=
  let digit (n : Nat) : Char := if n < 10 then Char.ofNat (48 + n) else Char.ofNat (55 + n)
  String.ofList [digit (b.toNat / 16), digit (b.toNat % 16)]

/-- A character inside quotes. -/
def escape (c : Char) : String :=
  if c = '"' then "\\\""
  else if c = '\\' then "\\\\"
  else if c = '\n' then "\\n"
  else if c = '\r' then "\\r"
  else if c = '\t' then "\\t"
  else if c = '\x00' then "\\0"
  else if isUnprintable c then "\\u\x7b" ++ hex c.toNat ++ "\x7d"
  else c.toString

/-- A text between double quotes. -/
def quote (text : List Char) : String :=
  "\"" ++ String.join (text.map escape) ++ "\""

/-- A piece of a byte string inside quotes. -/
def escapePiece : Utf8.Piece → String
  | .char c => escape c
  | .broken bytes => String.join (bytes.map fun b => "\\x" ++ hexByte b)

/-- A byte string between double quotes. -/
def quoteBytes (bytes : Bytes) : String :=
  "\"" ++ String.join ((Utf8.pieces bytes).map escapePiece) ++ "\""

/-- A list of shown values between brackets. -/
def bracket (shown : List String) : String := "[" ++ ", ".intercalate shown ++ "]"

/-- A value that may be missing. -/
def optional (shown : Option String) : String :=
  match shown with
  | none => "None"
  | some shown => "Some(" ++ shown ++ ")"

end CertRotation.Text
