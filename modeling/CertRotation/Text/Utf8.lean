/-!
# Bytes read as text

File names and file contents are bytes; keys and messages are text.  `Utf8.pieces` cuts a byte
string into the characters it spells and the parts that spell nothing, and every reading used in
this library is a short function of those pieces:

* `Utf8.decode?` asks for characters only,
* `Utf8.lossy` puts one replacement character in the place of each broken part,
* `Utf8.encode` is the way back from characters to bytes.

A broken part is as long as it can be without taking in a byte that could start a character, so
`lossy` shows one replacement character per interrupted sequence and not one per byte.
-/

set_option autoImplicit false

namespace CertRotation

/-- A byte string: a file name, a path, the content of a file. -/
abbrev Bytes := List UInt8

namespace Utf8

/-- A character, or a maximal run of bytes which is the beginning of none. -/
inductive Piece where
  | char (c : Char)
  | broken (bytes : Bytes)
  deriving DecidableEq

/-- A sequence that has begun: the bytes read so far, the number they spell, the range in which the
next byte must lie and how many bytes are to come after that one. -/
structure Open where
  seen : Bytes
  code : Nat
  low : UInt8
  high : UInt8
  more : Nat

/-- What a byte means at the start of a character. -/
inductive Start where
  | whole (c : Char)
  | opens (o : Open)
  | nothing

/-- The bounds on the second byte rule out overlong spellings (after E0 and F0), surrogates (after
ED) and numbers beyond the last character (after F4). -/
def start (b : UInt8) : Start :=
  if b < 0x80 then .whole (Char.ofNat b.toNat)
  else if b < 0xC2 then .nothing
  else if b < 0xE0 then .opens ⟨[b], b.toNat - 0xC0, 0x80, 0xBF, 0⟩
  else if b < 0xF0 then
    .opens ⟨[b], b.toNat - 0xE0, if b = 0xE0 then 0xA0 else 0x80, if b = 0xED then 0x9F else 0xBF, 1⟩
  else if b < 0xF5 then
    .opens ⟨[b], b.toNat - 0xF0, if b = 0xF0 then 0x90 else 0x80, if b = 0xF4 then 0x8F else 0xBF, 2⟩
  else .nothing

/-- The sequence `o` goes on with the byte `b`, which lies in its range. -/
def Open.push (o : Open) (b : UInt8) : Open ⊕ Char :=
  let code := o.code * 64 + b.toNat % 64
  match o.more with
  | 0 => .inr (Char.ofNat code)
  | n + 1 => .inl ⟨o.seen ++ [b], code, 0x80, 0xBF, n⟩

/-- The pieces of `bytes`, given the sequence that is open where they begin. -/
def piecesFrom : Option Open → Bytes → List Piece
  | none, [] => []
  | some o, [] => [.broken o.seen]
  | none, b :: bs =>
    match start b with
    | .whole c => .char c :: piecesFrom none bs
    | .opens o => piecesFrom (some o) bs
    | .nothing => .broken [b] :: piecesFrom none bs
  | some o, b :: bs =>
    if o.low ≤ b ∧ b ≤ o.high then
      match o.push b with
      | .inl o' => piecesFrom (some o') bs
      | .inr c => .char c :: piecesFrom none bs
    else
      .broken o.seen ::
        match start b with
        | .whole c => .char c :: piecesFrom none bs
        | .opens o' => piecesFrom (some o') bs
        | .nothing => .broken [b] :: piecesFrom none bs

/-- The characters and the broken parts of `bytes`, in order. -/
def pieces (bytes : Bytes) : List Piece := piecesFrom none bytes

/-- The replacement character stands for a broken part. -/
def replacement : Char := Char.ofNat 0xFFFD

/-- The text a piece is shown as. -/
def Piece.shown : Piece → Char
  | .char c => c
  | .broken _ => replacement

/-- The character a piece is, if it is one. -/
def Piece.char? : Piece → Option Char
  | .char c => some c
  | .broken _ => none

/-- The text that `bytes` spells, with a replacement character for each broken part. -/
def lossy (bytes : Bytes) : List Char := (pieces bytes).map Piece.shown

/-- The text that `bytes` spells; nothing if some part of them is broken. -/
def decode? (bytes : Bytes) : Option (List Char) := (pieces bytes).mapM Piece.char?

/-- The bytes that spell `c`. -/
def encodeChar (c : Char) : Bytes :=
  let n := c.toNat
  if n < 0x80 then [n.toUInt8]
  else if n < 0x800 then [(0xC0 + n / 64).toUInt8, (0x80 + n % 64).toUInt8]
  else if n < 0x10000 then
    [(0xE0 + n / 4096).toUInt8, (0x80 + n / 64 % 64).toUInt8, (0x80 + n % 64).toUInt8]
  else
    [(0xF0 + n / 262144).toUInt8, (0x80 + n / 4096 % 64).toUInt8, (0x80 + n / 64 % 64).toUInt8,
      (0x80 + n % 64).toUInt8]

/-- The bytes that spell `text`. -/
def encode (text : List Char) : Bytes := text.flatMap encodeChar

/-- The bytes that spell `s`. -/
def ofString (s : String) : Bytes := encode s.toList

end Utf8

end CertRotation
