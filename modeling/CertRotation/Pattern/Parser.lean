import CertRotation.Pattern.Basic

/-!
# Reading patterns

`Pattern.parse?` reads the written form of a pattern.  It knows alternatives, groups (with names and
with options), repetitions, bracketed classes with their set operations, and escapes.  Text that is
no pattern is refused, and so is what a linear search cannot do (looking around, repeating what a
group matched) and a pattern whose compiled form would take more than ten mebibytes.

Every reader takes the characters that are left and gives those that are left after it.
-/

set_option autoImplicit false

namespace CertRotation.Pattern

/-- The options that hold at a place of a written pattern. -/
structure Options where
  anyCase : Bool
  multiLine : Bool
  dotAll : Bool
  swapGreed : Bool
  unicode : Bool
  verbose : Bool
  returns : Bool

/-- The options a pattern starts with. -/
def Options.initial : Options := ⟨false, false, false, false, true, false, false⟩

/-- Sets the option of the letter `c`, if it is one. -/
def Options.set? (o : Options) (c : Char) (value : Bool) : Option Options :=
  match c with
  | 'i' => some { o with anyCase := value }
  | 'm' => some { o with multiLine := value }
  | 's' => some { o with dotAll := value }
  | 'U' => some { o with swapGreed := value }
  | 'u' => some { o with unicode := value }
  | 'x' => some { o with verbose := value }
  | 'R' => some { o with returns := value }
  | _ => none

/-- The class of a character or class under the options. -/
def Options.cased (o : Options) (chars : CharClass) : CharClass :=
  if o.anyCase then .anyCase chars else chars

/-- What is left after blanks and remarks, `remark` if a remark has begun. -/
def skipRemarks (remark : Bool) : List Char → List Char
  | [] => []
  | c :: cs =>
    if remark then skipRemarks (c ≠ '\n') cs
    else if Text.isBlank c then skipRemarks false cs
    else if c = '#' then skipRemarks true cs
    else c :: cs

/-- What is left after what the options let one pass over. -/
def Options.skip (o : Options) (cs : List Char) : List Char :=
  if o.verbose then skipRemarks false cs else cs

/-! ## Escapes -/

/-- What an escape stands for. -/
inductive Escape where
  | char (c : Char)
  | chars (set : CharClass)
  | place (condition : Place)

/-- The digit `c` in base sixteen. -/
def hexDigit? (c : Char) : Option Nat :=
  if '0' ≤ c ∧ c ≤ '9' then some (c.toNat - 48)
  else if 'a' ≤ c ∧ c ≤ 'f' then some (c.toNat - 87)
  else if 'A' ≤ c ∧ c ≤ 'F' then some (c.toNat - 55)
  else none

/-- The character with the number spelt by `digits` in base sixteen. -/
def charOfHex? (digits : List Char) : Option Char := do
  if digits.isEmpty then none
  else
    let n ← digits.foldlM (fun acc c => (hexDigit? c).map fun d => acc * 16 + d) 0
    if n < 0xD800 ∨ (0xDFFF < n ∧ n < 0x110000) then some (Char.ofNat n) else none

/-- A character given by its number, in `width` digits or between braces. -/
def hexEscape? (o : Options) (width : Nat) (cs : List Char) : Option (Escape × List Char) := do
  match o.skip cs with
  | '\x7b' :: rest =>
    let digits := rest.takeWhile (· ≠ '\x7d')
    match rest.drop digits.length with
    | _ :: rest => some (.char (← charOfHex? digits), rest)
    | [] => none
  | rest =>
    let c ← charOfHex? (rest.take width)
    if rest.length < width ∨ (!o.unicode ∧ width = 2 ∧ 0x7F < c.toNat) then none
    else some (.char c, rest.drop width)

/-- A class known by its property, in one letter or between braces. -/
def propertyEscape? (o : Options) (negated : Bool) (cs : List Char) :
    Option (Escape × List Char) := do
  if !o.unicode then none
  else
    let (name, rest) ← match o.skip cs with
      | '\x7b' :: rest =>
        let name := rest.takeWhile (· ≠ '\x7d')
        if (rest.drop name.length).isEmpty then none else some (name, rest.drop (name.length + 1))
      | c :: rest => some ([c], rest)
      | [] => none
    let (negated, name) :=
      if name.head? = some '^' then (!negated, name.drop 1) else (negated, name)
    let plain := (name.filter fun c => c ≠ '_' ∧ c ≠ '-' ∧ c ≠ ' ').map Char.toLower
    let chars := o.cased (← CharClass.properties.lookup (String.ofList plain))
    some (.chars (if negated then .complement chars else chars), rest)

/-- The digits, the blanks and the characters of words, by the letter of their escape. -/
def classEscape? (o : Options) (c : Char) : Option CharClass :=
  let plain (chars : CharClass) (negated : Bool) : Option CharClass :=
    if negated then none else some chars
  let choose (wide narrow : CharClass) (negated : Bool) : Option CharClass :=
    if o.unicode then some (if negated then .complement wide else wide) else plain narrow negated
  match c with
  | 'd' => choose .decimal (.range '0' '9') false
  | 'D' => choose .decimal (.range '0' '9') true
  | 's' => choose .blank CharClass.plainBlank false
  | 'S' => choose .blank CharClass.plainBlank true
  | 'w' => choose CharClass.word CharClass.plainWord false
  | 'W' => choose CharClass.word CharClass.plainWord true
  | _ => none

/-- The conditions on places that have a name between braces. -/
def wordPlaces (plain : Bool) : List (String × Place) :=
  [("start", .wordStart plain), ("end", .wordEnd plain), ("start-half", .beforeWord plain),
    ("end-half", .afterWord plain)]

/-- The edge of a word, or one of the places with a name.  Braces that hold no name but a number are
left for a repetition. -/
def edgeEscape? (o : Options) (cs : List Char) : Option (Escape × List Char) :=
  let isNameChar (c : Char) : Bool := c.isAlpha || c = '-'
  match cs with
  | '\x7b' :: c :: rest =>
    if isNameChar c then
      let name := (c :: rest).takeWhile isNameChar
      match (c :: rest).drop name.length with
      | '\x7d' :: rest =>
        ((wordPlaces !o.unicode).lookup (String.ofList name)).map fun p => (.place p, rest)
      | _ => none
    else some (.place (.wordEdge !o.unicode), cs)
  | _ => some (.place (.wordEdge !o.unicode), cs)

/-- Whether a character stands for itself after a backslash. -/
def isEscapable (c : Char) : Bool :=
  c.toNat < 0x80 && !c.isAlphanum && c ≠ '<' && c ≠ '>'

/-- What a backslash and the characters after it stand for. -/
def escape? (o : Options) : List Char → Option (Escape × List Char)
  | [] => none
  | 'x' :: cs => hexEscape? o 2 cs
  | 'u' :: cs => hexEscape? o 4 cs
  | 'U' :: cs => hexEscape? o 8 cs
  | 'p' :: cs => propertyEscape? o false cs
  | 'P' :: cs => propertyEscape? o true cs
  | 'b' :: cs => edgeEscape? o cs
  | 'B' :: cs => some (.place (.noWordEdge !o.unicode), cs)
  | '<' :: cs => some (.place (.wordStart !o.unicode), cs)
  | '>' :: cs => some (.place (.wordEnd !o.unicode), cs)
  | 'A' :: cs => some (.place .textStart, cs)
  | 'z' :: cs => some (.place .textEnd, cs)
  | 'a' :: cs => some (.char '\x07', cs)
  | 'f' :: cs => some (.char '\x0c', cs)
  | 't' :: cs => some (.char '\t', cs)
  | 'n' :: cs => some (.char '\n', cs)
  | 'r' :: cs => some (.char '\r', cs)
  | 'v' :: cs => some (.char '\x0b', cs)
  | c :: cs =>
    match classEscape? o c with
    | some chars => some (.chars chars, cs)
    | none => if isEscapable c then some (.char c, cs) else none

/-! ## Bracketed classes -/

/-- The operations on classes that are written between their operands. -/
inductive SetOp where
  | inter
  | diff
  | symmDiff

/-- The class that an operation makes of its operands. -/
def SetOp.apply (o : Options) (op : SetOp) (a b : CharClass) : CharClass :=
  let a := o.cased a
  let b := o.cased b
  match op with
  | inter => .inter a b
  | diff => .inter a (.complement b)
  | symmDiff => .union (.inter a (.complement b)) (.inter b (.complement a))

/-- A bracketed class that is being read: whether it is negated, the operand and operation before,
and what has been read since. -/
structure OpenClass where
  negated : Bool
  before : Option (CharClass × SetOp)
  items : CharClass

namespace OpenClass

/-- The class with more items. -/
def add (k : OpenClass) (chars : CharClass) : OpenClass :=
  { k with items := if k.items = .nothing then chars else .union k.items chars }

/-- The operation so far, applied to what has been read since. -/
def value (o : Options) (k : OpenClass) : CharClass :=
  match k.before with
  | none => k.items
  | some (a, op) => op.apply o a k.items

/-- The class after the sign of an operation. -/
def operate (o : Options) (k : OpenClass) (op : SetOp) : OpenClass :=
  { k with before := some (k.value o, op), items := .nothing }

/-- The class after its closing bracket.  Outside Unicode a negated class would match parts of
characters. -/
def close? (o : Options) (k : OpenClass) : Option CharClass :=
  let chars := o.cased (k.value o)
  if !k.negated then some chars else if o.unicode then some (.complement chars) else none

end OpenClass

/-- A class with a name between colons, such as may stand in a bracketed class. -/
def namedClass? (cs : List Char) : Option (CharClass × List Char) := do
  match cs with
  | '[' :: ':' :: rest =>
    let (negated, rest) := if rest.head? = some '^' then (true, rest.drop 1) else (false, rest)
    let name := rest.takeWhile (· ≠ ':')
    match rest.drop name.length with
    | ':' :: ']' :: rest =>
      let chars ← CharClass.named.lookup (String.ofList name)
      some (if negated then .complement chars else chars, rest)
    | _ => none
  | _ => none

/-- A character or an escape inside a bracketed class. -/
def classItem? (o : Options) : List Char → Option (Escape × List Char)
  | [] => none
  | '\\' :: cs => escape? o cs
  | c :: cs => if !o.unicode ∧ 0x7F < c.toNat then none else some (.char c, cs)

/-- An item of a bracketed class, or a range of characters. -/
def classRange? (o : Options) (cs : List Char) : Option (CharClass × List Char) := do
  let (first, rest) ← classItem? o cs
  let rest := o.skip rest
  let single : Option (CharClass × List Char) :=
    match first with
    | .char c => some (.single c, rest)
    | .chars set => some (set, rest)
    | .place _ => none
  match rest with
  | [] => none
  | '-' :: more =>
    match o.skip more with
    | [] => none
    | ']' :: _ | '-' :: _ => single
    | more =>
      match first, ← classItem? o more with
      | .char a, (.char b, rest) => if a ≤ b then some (.range a b, rest) else none
      | _, _ => none
  | _ => single

/-- The beginning of a bracketed class, after its bracket: a sign of negation, and characters that
are not signs because they come first. -/
def openClass (o : Options) (cs : List Char) : OpenClass × List Char :=
  let cs := o.skip cs
  let (negated, cs) := if cs.head? = some '^' then (true, o.skip (cs.drop 1)) else (false, cs)
  let dashes := cs.takeWhile (· = '-')
  let cs := o.skip (cs.drop dashes.length)
  if !dashes.isEmpty then (⟨negated, none, .single '-'⟩, cs)
  else if cs.head? = some ']' then (⟨negated, none, .single ']'⟩, o.skip (cs.drop 1))
  else (⟨negated, none, .nothing⟩, cs)

/-- The deepest nesting of groups and brackets. -/
def maxDepth : Nat := 250

/-- The rest of a bracketed class that is being read, `outer` being the classes around it. -/
def class? (o : Options) : Nat → List OpenClass → OpenClass → List Char →
    Option (CharClass × List Char)
  | 0, _, _, _ => none
  | fuel + 1, outer, k, cs =>
    match o.skip cs with
    | [] => none
    | '[' :: rest =>
      match namedClass? ('[' :: rest) with
      | some (chars, rest) => class? o fuel outer (k.add chars) rest
      | none =>
        let (inner, rest) := openClass o rest
        if maxDepth < outer.length then none else class? o fuel (k :: outer) inner rest
    | ']' :: rest =>
      match k.close? o, outer with
      | none, _ => none
      | some chars, [] => some (chars, rest)
      | some chars, around :: outer => class? o fuel outer (around.add chars) rest
    | '&' :: '&' :: rest => class? o fuel outer (k.operate o .inter) rest
    | '-' :: '-' :: rest => class? o fuel outer (k.operate o .diff) rest
    | '~' :: '~' :: rest => class? o fuel outer (k.operate o .symmDiff) rest
    | cs =>
      match classRange? o cs with
      | none => none
      | some (chars, rest) => class? o fuel outer (k.add chars) rest

/-! ## Repetitions -/

/-- A number in decimal digits with blanks around it. -/
def count? (o : Options) (cs : List Char) : Option (Nat × List Char) :=
  let cs := cs.dropWhile Text.isBlank
  let digits := cs.takeWhile Char.isDigit
  let n := digits.foldl (fun acc c => acc * 10 + (c.toNat - 48)) 0
  if digits.isEmpty ∨ UInt32.size ≤ n then none
  else some (n, (o.skip (cs.drop digits.length)).dropWhile Text.isBlank)

/-- The bounds of a repetition, after its opening brace. -/
def bounds? (o : Options) (cs : List Char) : Option (Nat × Option Nat × List Char) := do
  let (least, rest) ← count? o (o.skip cs)
  match rest with
  | '\x7d' :: rest => some (least, some least, rest)
  | ',' :: rest =>
    match o.skip rest with
    | '\x7d' :: rest => some (least, none, rest)
    | rest =>
      let (most, rest) ← count? o rest
      match rest with
      | '\x7d' :: rest => if least ≤ most then some (least, some most, rest) else none
      | _ => none
  | _ => none

/-- What has been read in one alternative; options set on the way leave a mark, since nothing can
repeat them. -/
inductive Item where
  | pattern (p : Pattern)
  | options

/-- The last item, repeated; a question mark that follows turns the preference round. -/
def repeat? (o : Options) (least : Nat) (most : Option Nat) (items : List Item) (cs : List Char) :
    Option (List Item × List Char) :=
  match items with
  | .pattern p :: items =>
    let cs := o.skip cs
    let lazy := cs.head? = some '?'
    some (.pattern (.times least most (lazy = o.swapGreed) p) :: items,
      if lazy then cs.drop 1 else cs)
  | _ => none

/-! ## Groups -/

/-- What the beginning of a group says. -/
inductive GroupStart where
  | options (o : Options)
  | group (o : Options) (names : List (List Char))

/-- Options between a question mark and a colon or a parenthesis. -/
def options? : Options → Bool → List Char → List Char → Option (Options × List Char × List Char)
  | _, _, _, [] => none
  | o, negated, seen, c :: cs =>
    if c = ':' ∨ c = ')' then
      if negated ∧ seen.head? = some '-' then none else some (o, seen, c :: cs)
    else if c ∈ seen then none
    else if c = '-' then options? o true (c :: seen) cs
    else
      match o.set? c !negated with
      | none => none
      | some o => options? o negated (c :: seen) cs

/-- Whether a name of a group may have a character. -/
def isNameChar (c : Char) : Bool :=
  c = '_' || c = '.' || c = '[' || c = ']' || Text.isAlphanumeric c

/-- The name of a group that no group before has, after its angle bracket. -/
def groupName? (names : List (List Char)) (cs : List Char) : Option (List Char × List Char) :=
  let name := cs.takeWhile (· ≠ '>')
  let begins (c : Char) : Bool := c = '_' || CharClass.alphabetic.contains c
  if (cs.drop name.length).isEmpty ∨ !(name.head?.any begins) ∨ !name.all isNameChar ∨ name ∈ names
  then none
  else some (name, cs.drop (name.length + 1))

/-- The beginning of a group, after its parenthesis. -/
def groupStart? (o : Options) (names : List (List Char)) (cs : List Char) :
    Option (GroupStart × List Char) :=
  match cs with
  | '?' :: '=' :: _ | '?' :: '!' :: _ | '?' :: '<' :: '=' :: _ | '?' :: '<' :: '!' :: _ => none
  | '?' :: 'P' :: '<' :: rest | '?' :: '<' :: rest =>
    (groupName? names rest).map fun (name, rest) => (.group o (name :: names), rest)
  | '?' :: rest =>
    match options? o false [] rest with
    | some (set, _, ':' :: rest) => some (.group set names, rest)
    | some (set, _ :: _, ')' :: rest) => some (.options set, rest)
    | _ => none
  | _ => some (.group o names, cs)

/-! ## Patterns -/

/-- One alternative, read from its items in reverse. -/
def ofItems (items : List Item) : Pattern :=
  items.foldl (fun p item =>
    match item with
    | .pattern q => q.andThen p
    | .options => p) .empty

/-- The choice between an alternative and those before it, which come in reverse. -/
def ofAlternatives (last : Pattern) (before : List Pattern) : Pattern :=
  before.foldl (fun p q => .alt q p) last

/-- What an escape matches. -/
def ofEscape (o : Options) : Escape → Pattern
  | .char c => .one (o.cased (.single c))
  | .chars set => .one set
  | .place condition => .place condition

/-- What a dot matches. -/
def dotClass (o : Options) : CharClass :=
  if o.dotAll then .complement .nothing
  else if o.returns then .complement (.union .newline (.single '\r'))
  else .complement .newline

/-- Reads up to the end of a group or of the text, given the alternatives and the items read so far
in reverse and the names of the groups. -/
def group? : Nat → Nat → Options → List (List Char) → List Pattern → List Item → List Char →
    Option (Pattern × List (List Char) × List Char)
  | 0, _, _, _, _, _, _ => none
  | fuel + 1, depth, o, names, before, items, cs =>
    let go (items : List Item) (rest : List Char) := group? fuel depth o names before items rest
    let add (p : Pattern) (rest : List Char) := go (.pattern p :: items) rest
    let again (least : Nat) (most : Option Nat) (rest : List Char) :=
      match repeat? o least most items rest with
      | none => none
      | some (items, rest) => go items rest
    match o.skip cs with
    | [] => some (ofAlternatives (ofItems items) before, names, [])
    | ')' :: rest => some (ofAlternatives (ofItems items) before, names, ')' :: rest)
    | '|' :: rest => group? fuel depth o names (ofItems items :: before) [] rest
    | '(' :: rest =>
      match groupStart? o names (o.skip rest) with
      | none => none
      | some (.options set, rest) => group? fuel depth set names before (.options :: items) rest
      | some (.group set names, rest) =>
        match depth with
        | 0 => none
        | depth' + 1 =>
          match group? fuel depth' set names [] [] rest with
          | some (p, names, ')' :: rest) =>
            group? fuel depth o names before (.pattern p :: items) rest
          | _ => none
    | '[' :: rest =>
      let (k, rest) := openClass o rest
      match class? o fuel [] k rest with
      | none => none
      | some (chars, rest) => add (.one chars) rest
    | '*' :: rest => again 0 none rest
    | '+' :: rest => again 1 none rest
    | '?' :: rest => again 0 (some 1) rest
    | '\x7b' :: rest =>
      match bounds? o rest with
      | none => none
      | some (least, most, rest) => again least most rest
    | '\\' :: rest =>
      match escape? o rest with
      | none => none
      | some (e, rest) => add (ofEscape o e) rest
    | '.' :: rest => if o.unicode then add (.one (dotClass o)) rest else none
    | '^' :: rest =>
      add (.place (if !o.multiLine then .textStart else if o.returns then .returnStart
        else .lineStart)) rest
    | '$' :: rest =>
      add (.place (if !o.multiLine then .textEnd else if o.returns then .returnEnd
        else .lineEnd)) rest
    | c :: rest => add (.one (o.cased (.single c))) rest

/-- The room, in bytes, that a compiled pattern may take. -/
def maxWeight : Nat := 10 * 1024 * 1024

/-- The pattern that a text is the written form of. -/
def parse? (text : List Char) : Option Pattern :=
  match group? (text.length + 1) maxDepth .initial [] [] [] text with
  | some (p, _, []) => if p.weight ≤ maxWeight then some p else none
  | _ => none

end CertRotation.Pattern
