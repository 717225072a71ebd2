import CertRotation.Number.BigEndian

/-!
# DER

A DER text is a sequence of elements, each with a tag, a length and a content that may again be a
sequence of elements.  A `Der.Reader` takes something off the front of some bytes or fails.

Lengths are read in their shortest form only, and up to two bytes of length: nothing that this
library reads is longer.  Tags have one byte.
-/

set_option autoImplicit false

namespace CertRotation
namespace Der

/-! ## Tags -/

def boolean : UInt8 := 0x01
def integer : UInt8 := 0x02
def bitString : UInt8 := 0x03
def octetString : UInt8 := 0x04
def identifier : UInt8 := 0x06
def sequence : UInt8 := 0x30

/-- The tag of a part that is told from others by its number. -/
def numbered (n : UInt8) : UInt8 := 0xA0 + n

/-! ## Readers -/

/-- Takes something off the front of some bytes. -/
abbrev Reader (α : Type) := Bytes → Option (α × Bytes)

variable {α : Type}

/-- Reads all of some bytes. -/
def all (reader : Reader α) (bytes : Bytes) : Option α :=
  match reader bytes with
  | some (a, []) => some a
  | _ => none

/-- The length of an element and what follows it. -/
def length : Reader Nat
  | 0x81 :: a :: rest => if a.toNat < 128 then none else some (a.toNat, rest)
  | 0x82 :: a :: b :: rest =>
    let n := a.toNat * 256 + b.toNat
    if n < 256 then none else some (n, rest)
  | n :: rest => if n.toNat < 128 then some (n.toNat, rest) else none
  | [] => none

/-- An element: its tag and its content. -/
def element : Reader (UInt8 × Bytes)
  | [] => none
  | tag :: rest =>
    if tag &&& 0x1F = 0x1F then none
    else
      match length rest with
      | none => none
      | some (n, rest) =>
        if rest.length < n then none else some ((tag, rest.take n), rest.drop n)

/-- The content of an element that has the given tag. -/
def tagged (tag : UInt8) : Reader Bytes := fun bytes =>
  match element bytes with
  | some ((found, content), rest) => if found = tag then some (content, rest) else none
  | none => none

/-- An element whose content is read to its end. -/
def nested (tag : UInt8) (reader : Reader α) : Reader α := fun bytes =>
  match tagged tag bytes with
  | none => none
  | some (content, rest) => (all reader content).map fun a => (a, rest)

/-- Whether an element with the given tag comes next. -/
def nextIs (tag : UInt8) (bytes : Bytes) : Bool := bytes.head? = some tag

/-- The bytes of a number that is not negative, without the zero that keeps its sign. -/
def naturalBytes : Reader Bytes := fun bytes =>
  match tagged integer bytes with
  | none => none
  | some (content, rest) =>
    match content with
    | [] => none
    | [0] => some (content, rest)
    | 0 :: b :: more => if b < 128 then none else some (b :: more, rest)
    | b :: _ => if b < 128 then some (content, rest) else none

/-- A number that is not negative. -/
def natural : Reader Nat := fun bytes =>
  (naturalBytes bytes).map fun (content, rest) => (BigEndian.read content, rest)

/-- A number below 256. -/
def small : Reader Nat := fun bytes =>
  match naturalBytes bytes with
  | some ([b], rest) => some (b.toNat, rest)
  | _ => none

/-- The content of a string of bits that fills whole bytes. -/
def wholeBits : Reader Bytes := fun bytes =>
  match tagged bitString bytes with
  | some (0 :: content, rest) => some (content, rest)
  | _ => none

/-! ## Writing -/

/-- The shortest form of a length. -/
def writeLength (n : Nat) : Bytes :=
  if n < 128 then [n.toUInt8]
  else
    let digits := BigEndian.shortest n
    (0x80 + digits.length.toUInt8) :: digits

/-- An element. -/
def write (tag : UInt8) (content : Bytes) : Bytes := tag :: (writeLength content.length ++ content)

/-- A number, with a zero in front where it would read as negative otherwise. -/
def writeNatural (n : Nat) : Bytes :=
  let digits := BigEndian.shortest n
  write integer (if digits.head?.all (128 ≤ ·) then 0 :: digits else digits)

end Der
end CertRotation
