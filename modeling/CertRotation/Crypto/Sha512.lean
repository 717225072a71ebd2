import CertRotation.Number.BigEndian

/-!
# SHA-512

The digest of a text of bytes.  The text is padded to whole blocks of 128 bytes, each block is
spread into eighty words, and the words are mixed one by one into a state of eight words.

The constants of the algorithm are the first bits behind the point of roots of primes, and are
computed as such.
-/

set_option autoImplicit false

namespace CertRotation
namespace Sha512

/-! ## Constants -/

/-- The greatest number between `low` and `low + 2 ^ bits` whose power to `degree` is at most `n`,
provided that `low` is such a number. -/
def rootFrom (degree n : Nat) : Nat → Nat → Nat
  | 0, low => low
  | bits + 1, low =>
    let middle := low + Nat.pow 2 bits
    rootFrom degree n bits (if Nat.pow middle degree ≤ n then middle else low)

/-- The first 64 bits behind the point of a root of `n`. -/
def rootFraction (degree n : Nat) : UInt64 :=
  (rootFrom degree (n * Nat.pow 2 (64 * degree)) 70 0).toUInt64

/-- The primes below 410, of which there are eighty. -/
def primes : List Nat :=
  (List.range 410).filter fun n =>
    2 ≤ n && (List.range 21).all fun d => d < 2 || n ≤ d || n % d != 0

/-- The constants of the eighty rounds: cube roots of primes. -/
def roundConstants : List UInt64 := primes.map (rootFraction 3)

/-! ## The state -/

/-- The eight words that are mixed. -/
structure State where
  a : UInt64
  b : UInt64
  c : UInt64
  d : UInt64
  e : UInt64
  f : UInt64
  g : UInt64
  h : UInt64

namespace State

/-- The state at the start: square roots of the first primes. -/
def initial : State :=
  ⟨rootFraction 2 2, rootFraction 2 3, rootFraction 2 5, rootFraction 2 7, rootFraction 2 11,
    rootFraction 2 13, rootFraction 2 17, rootFraction 2 19⟩

/-- The sum of two states, word by word. -/
def add (s t : State) : State :=
  ⟨s.a + t.a, s.b + t.b, s.c + t.c, s.d + t.d, s.e + t.e, s.f + t.f, s.g + t.g, s.h + t.h⟩

/-- The words of a state. -/
def words (s : State) : List UInt64 := [s.a, s.b, s.c, s.d, s.e, s.f, s.g, s.h]

end State

/-- A word turned to the right by `n` places. -/
def rotate (w : UInt64) (n : UInt64) : UInt64 := (w >>> n) ||| (w <<< (64 - n))

/-- A round: one word of the block and one constant are mixed into the state. -/
def round (s : State) (word constant : UInt64) : State :=
  let sum1 := rotate s.e 14 ^^^ rotate s.e 18 ^^^ rotate s.e 41
  let choice := (s.e &&& s.f) ^^^ (~~~s.e &&& s.g)
  let first := s.h + sum1 + choice + constant + word
  let sum0 := rotate s.a 28 ^^^ rotate s.a 34 ^^^ rotate s.a 39
  let majority := (s.a &&& s.b) ^^^ (s.a &&& s.c) ^^^ (s.b &&& s.c)
  ⟨first + (sum0 + majority), s.a, s.b, s.c, s.d + first, s.e, s.f, s.g⟩

/-! ## Blocks -/

/-- The next word of a schedule, from the words before it, the last one first. -/
def nextWord (before : List UInt64) : UInt64 :=
  let word (i : Nat) : UInt64 := before.getD (i - 1) 0
  let w15 := word 15
  let w2 := word 2
  word 16 + (rotate w15 1 ^^^ rotate w15 8 ^^^ (w15 >>> 7)) + word 7
    + (rotate w2 19 ^^^ rotate w2 61 ^^^ (w2 >>> 6))

/-- A schedule with `n` more words, the last one first. -/
def extend : Nat → List UInt64 → List UInt64
  | 0, words => words
  | n + 1, words => extend n (nextWord words :: words)

/-- The first `n` words of some bytes. -/
def wordsOf : Nat → Bytes → List UInt64
  | 0, _ => []
  | n + 1, bytes => (BigEndian.read (bytes.take 8)).toUInt64 :: wordsOf n (bytes.drop 8)

/-- The state after a block. -/
def absorb (s : State) (block : Bytes) : State :=
  let words := (extend 64 (wordsOf 16 block).reverse).reverse
  s.add ((words.zip roundConstants).foldl (fun s w => round s w.1 w.2) s)

/-- The state after `n` blocks. -/
def absorbAll : Nat → State → Bytes → State
  | 0, s, _ => s
  | n + 1, s, bytes => absorbAll n (absorb s (bytes.take 128)) (bytes.drop 128)

/-- A text with its padding: a one bit, zeros and the length of the text in bits. -/
def padded (text : Bytes) : Bytes :=
  let zeros := (128 - (text.length + 17) % 128) % 128
  text ++ 0x80 :: (List.replicate zeros 0 ++ BigEndian.write 16 (8 * text.length))

/-- The digest of a text. -/
def digest (text : Bytes) : Bytes :=
  let bytes := padded text
  (absorbAll (bytes.length / 128) .initial bytes).words.flatMap fun w => BigEndian.write 8 w.toNat

end Sha512
end CertRotation
