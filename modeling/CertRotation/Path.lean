import CertRotation.Text.Quoted

/-!
# Paths

A path is a byte string, and most questions about it are questions about its components: repeated
separators, separators at the end and dots inside name nothing and make no difference.  Two paths
are compared, ordered and put below one another by their components, while the text of a path stays
as it was given.

* `Path.components` reads a path,
* `Path.parent?` and `Path.ancestors` go upwards and keep the text of what remains,
* `Path.below?` is the rest of a path below another one,
* `Path.compare` is the order in which sets of paths are listed.
-/

set_option autoImplicit false

namespace CertRotation

/-- The byte that separates the names of a path. -/
def separator : UInt8 := 47

/-- The name that stands for the directory it is in. -/
def dot : Bytes := [46]

/-- The name that stands for the directory above. -/
def dotDot : Bytes := [46, 46]

/-- The runs of `bytes` between separators; one more than there are separators. -/
def splitNames : Bytes → List Bytes
  | [] => [[]]
  | b :: bs =>
    if b = separator then [] :: splitNames bs
    else
      match splitNames bs with
      | [] => [[b]]
      | name :: names => (b :: name) :: names

/-- Names with separators between them. -/
def joinNames (names : List Bytes) : Bytes := [separator].intercalate names

/-- A path as it was given. -/
structure Path where
  bytes : Bytes
  deriving DecidableEq

/-- What a path is made of: the top of the tree, the directory one is in, the directory above, or a
name. -/
inductive Component where
  | top
  | here
  | above
  | name (bytes : Bytes)
  deriving DecidableEq

namespace Component

/-- The kinds of component in their order. -/
def rank : Component → Nat
  | top => 0
  | here => 1
  | above => 2
  | name _ => 3

/-- Components are ordered by kind, names among themselves by their bytes. -/
def compare (a b : Component) : Ordering :=
  match a, b with
  | name x, name y => compareOfLessAndEq x y
  | _, _ => Ord.compare a.rank b.rank

/-- What a run between separators stands for inside a path; an empty run and a dot stand for
nothing. -/
def ofName? (bytes : Bytes) : Option Component :=
  if bytes = [] ∨ bytes = dot then none
  else if bytes = dotDot then some above
  else some (name bytes)

/-- The bytes of a name. -/
def name? : Component → Option Bytes
  | name bytes => some bytes
  | _ => none

end Component

namespace Path

/-- The path with the text `s`. -/
def ofString (s : String) : Path := ⟨Utf8.ofString s⟩

/-- The text of a path, broken parts replaced. -/
def text (p : Path) : List Char := Utf8.lossy p.bytes

/-- The path as messages show it. -/
def shown (p : Path) : String := String.ofList p.text

/-- The path between quotes. -/
def quoted (p : Path) : String := Text.quoteBytes p.bytes

/-- Whether the path starts at the top of the tree. -/
def isAbsolute (p : Path) : Bool := p.bytes.head? == some separator

/-- The first component where it is not a name, with its bytes, and the bytes after it.  A dot at
the very beginning counts, unlike the dots inside. -/
def lead (p : Path) : Option Component × Bytes × Bytes :=
  match p.bytes with
  | [] => (none, [], [])
  | b :: bs =>
    if b = separator then (some .top, [b], bs)
    else if (splitNames (b :: bs)).head? = some dot then (some .here, [b], bs)
    else (none, [], b :: bs)

/-- What the path is made of. -/
def components (p : Path) : List Component :=
  let (first, _, rest) := p.lead
  first.toList ++ (splitNames rest).filterMap Component.ofName?

/-- Whether a run between separators names nothing. -/
def isBlankName (name : Bytes) : Bool := name = [] || name = dot

/-- `names` without the runs at its end that name nothing. -/
def trimNames (names : List Bytes) : List Bytes :=
  (names.reverse.dropWhile isBlankName).reverse

/-- The path without its last component.  The text before it is kept as it is, up to separators and
dots at its end. -/
def parent? (p : Path) : Option Path :=
  let (first, head, rest) := p.lead
  match trimNames (splitNames rest) with
  | [] => if first = some .here then some ⟨[]⟩ else none
  | names => some ⟨head ++ joinNames (trimNames names.dropLast)⟩

/-- The path, then its parents upwards, at most `fuel` of them. -/
def ancestorsWithin : Nat → Path → List Path
  | 0, p => [p]
  | fuel + 1, p =>
    match p.parent? with
    | none => [p]
    | some q => p :: ancestorsWithin fuel q

/-- The path, its parent, the parent of that one and so on. -/
def ancestors (p : Path) : List Path := ancestorsWithin p.components.length p

/-- The name at the end of the path. -/
def fileName? (p : Path) : Option Bytes := p.components.getLast?.bind Component.name?

/-- The components of `p` after those of `root`, if `p` starts with them. -/
def below? (p root : Path) : Option (List Component) :=
  if root.components <+: p.components then some (p.components.drop root.components.length) else none

/-- Whether two paths have the same components. -/
def same (p q : Path) : Bool := p.components = q.components

/-- A path taken from `p`; an absolute path is taken as it is. -/
def join (p q : Path) : Path :=
  if q.isAbsolute then q
  else if p.bytes = [] ∨ p.bytes.getLast? = some separator then ⟨p.bytes ++ q.bytes⟩
  else ⟨p.bytes ++ separator :: q.bytes⟩

/-- The path of `name` in the directory `p`. -/
def child (p : Path) (name : Bytes) : Path :=
  if p.bytes = [] ∨ p.bytes.getLast? = some separator then ⟨p.bytes ++ name⟩
  else ⟨p.bytes ++ separator :: name⟩

/-- Lexicographic order on lists of components. -/
def compareComponents : List Component → List Component → Ordering
  | [], [] => .eq
  | [], _ :: _ => .lt
  | _ :: _, [] => .gt
  | a :: as, b :: bs => (a.compare b).then (compareComponents as bs)

/-- Paths are ordered component by component. -/
def compare (p q : Path) : Ordering := compareComponents p.components q.components

/-- `p` added to a list of different paths in ascending order. -/
def insertSorted (p : Path) : List Path → List Path
  | [] => [p]
  | q :: qs =>
    match p.compare q with
    | .lt => p :: q :: qs
    | .eq => q :: qs
    | .gt => q :: insertSorted p qs

/-- The different paths among `ps` in ascending order. -/
def sorted (ps : List Path) : List Path := ps.foldl (fun set p => insertSorted p set) []

end Path

end CertRotation
