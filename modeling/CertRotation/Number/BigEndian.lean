import CertRotation.Text.Utf8

/-!
# Numbers as bytes

A natural number is written as bytes with the most significant byte first.  `BigEndian.read` takes
any bytes, `BigEndian.write` gives a fixed number of bytes and `BigEndian.shortest` as few as there
can be.
-/

set_option autoImplicit false

namespace CertRotation
namespace BigEndian

/-- The number that some bytes write. -/
def read (bytes : Bytes) : Nat := bytes.foldl (fun n b => n * 256 + b.toNat) 0

/-- The last `width` bytes of a number. -/
def write : Nat → Nat → Bytes
  | 0, _ => []
  | width + 1, n => write width (n / 256) ++ [n.toUInt8]

/-- The number of bytes that a number needs. -/
def width (n : Nat) : Nat := if n = 0 then 0 else n.log2 / 8 + 1

/-- A number without leading zeros. -/
def shortest (n : Nat) : Bytes := write (width n) n

@[simp] theorem length_write (width n : Nat) : (write width n).length = width := by
  induction width generalizing n with
  | zero => rfl
  | succ width ih => simp [write, ih]

end BigEndian
end CertRotation
