import CertRotation.Pattern.CharClass

/-!
# Patterns

A pattern describes texts, and prefers some of its matches to others: the left side of a choice to
the right side, more repetitions to fewer (or fewer to more, where it says so).  `Pattern.find?` is
the match that begins first, and of those that begin there the preferred one.

At a place in a text a pattern has *heads*: the ways to go on, in order of preference.  A head is
either the end of the match or a class of characters, one of which is taken, together with the
pattern for what comes after.  So a search is a list of patterns, carried along the text and thinned
at each character, and it ends with the text.
-/

set_option autoImplicit false

namespace CertRotation

/-- A condition on a place in a text. -/
inductive Place where
  | textStart
  | textEnd
  | lineStart
  | lineEnd
  /-- A line start or end where a line may also end in a carriage return. -/
  | returnStart
  | returnEnd
  | wordEdge (plain : Bool)
  | noWordEdge (plain : Bool)
  | wordStart (plain : Bool)
  | wordEnd (plain : Bool)
  | beforeWord (plain : Bool)
  | afterWord (plain : Bool)
  deriving DecidableEq

namespace Place

/-- Whether a character beside a place belongs to a word. -/
def inWord (plain : Bool) (c : Option Char) : Bool :=
  c.any (if plain then CharClass.plainWord else CharClass.word).contains

/-- Whether the condition holds between `prev` and `next`. -/
def holds (prev next : Option Char) : Place → Bool
  | textStart => prev.isNone
  | textEnd => next.isNone
  | lineStart => prev.isNone || prev = some '\n'
  | lineEnd => next.isNone || next = some '\n'
  | returnStart => prev.isNone || prev = some '\n' || (prev = some '\r' && next != some '\n')
  | returnEnd => next.isNone || next = some '\r' || (next = some '\n' && prev != some '\r')
  | wordEdge plain => inWord plain prev != inWord plain next
  | noWordEdge plain => inWord plain prev == inWord plain next
  | wordStart plain => !inWord plain prev && inWord plain next
  | wordEnd plain => inWord plain prev && !inWord plain next
  | beforeWord plain => !inWord plain prev
  | afterWord plain => !inWord plain next

end Place

/-- A description of texts. -/
inductive Pattern where
  | empty
  | place (condition : Place)
  | one (chars : CharClass)
  | seq (a b : Pattern)
  /-- Either side, the left one rather than the right one. -/
  | alt (a b : Pattern)
  /-- Between `least` and `most` repetitions, many rather than few if `greedy`. -/
  | times (least : Nat) (most : Option Nat) (greedy : Bool) (a : Pattern)
  deriving DecidableEq

namespace Pattern

/-- A way to go on from a place. -/
inductive Head where
  | done
  | eat (chars : CharClass) (rest : Pattern)

/-- `a` and then `b`. -/
def andThen : Pattern → Pattern → Pattern
  | empty, b => b
  | a, empty => a
  | a, b => seq a b

/-- The same way to go on, with `b` to come afterwards. -/
def Head.before (b : Pattern) : Head → Head
  | done => done
  | eat chars rest => eat chars (rest.andThen b)

/-- The ways to go on between `prev` and `next`, in order of preference.  A repetition that takes no
character is as good as no more repetitions. -/
def heads (prev next : Option Char) : Pattern → List Head
  | empty => [.done]
  | place condition => if condition.holds prev next then [.done] else []
  | one chars => [.eat chars .empty]
  | seq a b =>
    let later := heads prev next b
    (heads prev next a).flatMap fun
      | .done => later
      | .eat chars rest => [.eat chars (rest.andThen b)]
  | alt a b => heads prev next a ++ heads prev next b
  | times least most greedy a =>
    if most = some 0 then [.done]
    else
      let again := (heads prev next a).map (.before (times (least - 1) (most.map (· - 1)) greedy a))
      if 0 < least then again else if greedy then again ++ [.done] else .done :: again

/-- The heads before the first end of the match, and whether there is such an end. -/
def upToDone : List Head → List (CharClass × Pattern) × Bool
  | [] => ([], false)
  | .done :: _ => ([], true)
  | .eat chars rest :: heads =>
    let (eats, ended) := upToDone heads
    ((chars, rest) :: eats, ended)

/-- The length of the preferred match of some patterns, the first ones preferred, given the length
read so far and the best match among those that have ended. -/
def run : List Pattern → Option Char → List Char → Nat → Option Nat → Option Nat
  | threads, prev, [], length, best =>
    if (upToDone (threads.flatMap (heads prev none))).2 then some length else best
  | threads, prev, c :: text, length, best =>
    let (eats, ended) := upToDone (threads.flatMap (heads prev (some c)))
    let best := if ended then some length else best
    let next := ((eats.filter fun e => e.1.contains c).map Prod.snd).eraseDups
    if next.isEmpty then best else run next (some c) text (length + 1) best

/-- The first match in what follows `prev`, as the number of characters before it and its length. -/
def findFrom (p : Pattern) : Option Char → List Char → Nat → Option (Nat × Nat)
  | prev, [], skipped => (run [p] prev [] 0 none).map fun length => (skipped, length)
  | prev, c :: text, skipped =>
    match run [p] prev (c :: text) 0 none with
    | some length => some (skipped, length)
    | none => findFrom p (some c) text (skipped + 1)

/-- The first match in a text, as the number of characters before it and its length. -/
def find? (p : Pattern) (text : List Char) : Option (Nat × Nat) := p.findFrom none text 0

/-- Whether the pattern occurs in a text. -/
def occursIn (p : Pattern) (text : List Char) : Bool := (p.find? text).isSome

/-- The text without the first match of the pattern; the whole text if there is none. -/
def eraseFirst (p : Pattern) (text : List Char) : List Char :=
  match p.find? text with
  | none => text
  | some (start, length) => text.take start ++ text.drop (start + length)

/-- A bound on the room, in bytes, that the compiled pattern takes. -/
def weight : Pattern → Nat
  | empty | place _ => 64
  | one chars => chars.weight
  | seq a b | alt a b => weight a + weight b + 32
  | times least most _ a => (max 1 (max least (most.getD 1))) * (weight a + 32)

end Pattern

end CertRotation
