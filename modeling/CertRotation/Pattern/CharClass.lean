import CertRotation.Text.Alphabetic
import CertRotation.Text.CaseFold

/-!
# Classes of characters

What one place of a pattern may hold.  A class is kept as the expression that describes it, so that
patterns can be compared; `CharClass.contains` is its meaning.
-/

set_option autoImplicit false

namespace CertRotation

/-- An expression for a set of characters. -/
inductive CharClass where
  | nothing
  | range (first last : Char)
  | alphabetic
  | mark
  | decimal
  | numeral
  | joining
  | blank
  | union (a b : CharClass)
  | inter (a b : CharClass)
  | complement (a : CharClass)
  /-- The characters one of whose case forms is in the class. -/
  | anyCase (a : CharClass)
  deriving DecidableEq

namespace CharClass

/-- Whether a character is in the class. -/
def contains : CharClass → Char → Bool
  | nothing, _ => false
  | range first last, c => first ≤ c && c ≤ last
  | alphabetic, c => Text.inRanges Text.alphabeticRanges c
  | mark, c => Text.inRanges Text.markRanges c
  | decimal, c => Text.inRanges Text.decimalRanges c
  | numeral, c => Text.inRanges Text.numeralRanges c
  | joining, c => Text.inRanges Text.joiningRanges c
  | blank, c => Text.inRanges Text.blankRanges c
  | union a b, c => contains a c || contains b c
  | inter a b, c => contains a c && contains b c
  | complement a, c => !contains a c
  | anyCase a, c => contains a c || (Text.caseForms c).any (contains a)

/-- The class of one character. -/
def single (c : Char) : CharClass := range c c

/-- The union of classes. -/
def ofList (classes : List CharClass) : CharClass := classes.foldl union nothing

/-- The characters of words. -/
def word : CharClass := ofList [alphabetic, mark, decimal, joining]

/-- The letters of plain English and the digits and the low line. -/
def plainWord : CharClass :=
  ofList [range 'a' 'z', range 'A' 'Z', range '0' '9', single '_']

/-- The plain blanks. -/
def plainBlank : CharClass := ofList [range '\t' '\r', single ' ']

/-- The characters that begin a new line. -/
def newline : CharClass := single '\n'

/-- The classes that have a name between colons. -/
def named : List (String × CharClass) :=
  [("alnum", ofList [range '0' '9', range 'A' 'Z', range 'a' 'z']),
    ("alpha", ofList [range 'A' 'Z', range 'a' 'z']),
    ("ascii", range '\x00' '\x7f'),
    ("blank", ofList [single '\t', single ' ']),
    ("cntrl", ofList [range '\x00' '\x1f', single '\x7f']),
    ("digit", range '0' '9'),
    ("graph", range '!' '~'),
    ("lower", range 'a' 'z'),
    ("print", range ' ' '~'),
    ("punct", ofList [range '!' '/', range ':' '@', range '[' '\x60', range '\x7b' '~']),
    ("space", plainBlank),
    ("upper", range 'A' 'Z'),
    ("word", plainWord),
    ("xdigit", ofList [range '0' '9', range 'A' 'F', range 'a' 'f'])]

/-- The letters: what is alphabetic without marks, numbers and the letters drawn in a circle or a
square. -/
def letter : CharClass :=
  inter alphabetic (complement (ofList [mark, numeral,
    range (Char.ofNat 0x24B6) (Char.ofNat 0x24E9),
    range (Char.ofNat 0x1F130) (Char.ofNat 0x1F189)]))

/-- The properties that a pattern may ask for by name. -/
def properties : List (String × CharClass) :=
  [("alphabetic", alphabetic), ("alpha", alphabetic), ("l", letter), ("letter", letter),
    ("m", mark), ("mark", mark), ("nd", decimal), ("decimalnumber", decimal), ("digit", decimal),
    ("n", ofList [decimal, numeral]), ("number", ofList [decimal, numeral]),
    ("whitespace", blank), ("wspace", blank), ("space", blank),
    ("any", complement nothing), ("ascii", range '\x00' '\x7f')]

/-- A bound on the room, in bytes, that the class takes in a compiled pattern. -/
def weight : CharClass → Nat
  | nothing | range .. => 64
  | alphabetic => 40000
  | mark => 10000
  | decimal | numeral => 5000
  | joining | blank => 500
  | union a b | inter a b => weight a + weight b
  | complement a | anyCase a => weight a + 64

end CharClass

end CertRotation
