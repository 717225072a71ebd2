import CertRotation.Settings.Token

/-!
# Settings as documents

A document is what a settings file says: a word, a number, a text, a list or an object.
`Document.read` reads the tokens one by one and keeps, in a stack, the lists and objects that are
not closed yet; so there is no limit to how deep they lie in one another.
-/

set_option autoImplicit false

namespace CertRotation

/-- The name of a member of an object; none if it is no text. -/
abbrev MemberName := Option (List Char)

/-- What a settings file says. -/
inductive Document where
  | null
  | flag (value : Bool)
  | number (value : Numeral)
  /-- A text; none if it writes half of a pair of code units. -/
  | text (value : Option (List Char))
  | list (elements : List Document)
  | object (members : List (MemberName × Document))

namespace Document

/-- A list or object that waits for a value; what it holds already, the last one first. -/
inductive Frame where
  | list (before : List Document)
  | object (before : List (MemberName × Document)) (name : MemberName)

/-- What a reader waits for. -/
inductive State where
  | value (stack : List Frame)
  | listStart (stack : List Frame)
  | listNext (before : List Document) (stack : List Frame)
  | objectStart (stack : List Frame)
  | name (before : List (MemberName × Document)) (stack : List Frame)
  | colon (before : List (MemberName × Document)) (name : MemberName) (stack : List Frame)
  | objectNext (before : List (MemberName × Document)) (stack : List Frame)
  | finished (document : Document)

namespace State

/-- A value is complete and goes to whatever waits for it. -/
def place (v : Document) : List Frame → State
  | [] => finished v
  | .list before :: stack => listNext (v :: before) stack
  | .object before t :: stack => objectNext ((t, v) :: before) stack

/-- A token that begins a value. -/
def begin (stack : List Frame) : Token → Option State
  | .null => some (place .null stack)
  | .flag b => some (place (.flag b) stack)
  | .number n => some (place (.number n) stack)
  | .text t => some (place (.text t) stack)
  | .openList => some (listStart stack)
  | .openObject => some (objectStart stack)
  | .closeList | .closeObject | .comma | .colon => none

/-- Reads one token. -/
def step : State → Token → Option State
  | value stack, token => begin stack token
  | listStart stack, .closeList => some (place (.list []) stack)
  | listStart stack, token => begin (.list [] :: stack) token
  | listNext before stack, .comma => some (value (.list before :: stack))
  | listNext before stack, .closeList => some (place (.list before.reverse) stack)
  | objectStart stack, .closeObject => some (place (.object []) stack)
  | objectStart stack, .text t => some (colon [] t stack)
  | name before stack, .text t => some (colon before t stack)
  | colon before t stack, .colon => some (value (.object before t :: stack))
  | objectNext before stack, .comma => some (name before stack)
  | objectNext before stack, .closeObject => some (place (.object before.reverse) stack)
  | _, _ => none

end State

/-- The document that some tokens write. -/
def ofTokens? (tokens : List Token) : Option Document :=
  match tokens.foldlM State.step (.value []) with
  | some (.finished d) => some d
  | _ => none

/-- Reads a settings file. -/
def read (text : List Char) : Option Document := (Token.scan text).bind ofTokens?

/-! ## Looking into a document -/

/-- A text. -/
def text? : Document → Option (List Char)
  | text t => t
  | _ => none

/-- A truth value. -/
def flag? : Document → Option Bool
  | flag b => some b
  | _ => none

/-- A natural number of at most `limit`. -/
def natural? (limit : Nat) : Document → Option Nat
  | number n => n.natural? limit
  | _ => none

/-- A number with a fraction. -/
def fraction? : Document → Option Float
  | number n => n.fraction?
  | _ => none

/-- The value of a member; nothing if there is none, and a refusal if there are two. -/
def member? (members : List (MemberName × Document)) (name : List Char) :
    Option (Option Document) :=
  match members.filter fun m => m.1 = some name with
  | [] => some none
  | [(_, d)] => some (some d)
  | _ => none

/-- The values of some named members.  They may also be written as a list in the order of the names,
whose end may be missing.  Other members do not matter, but all names must be texts. -/
def members? (names : List String) : Document → Option (List (Option Document))
  | object members =>
    if members.all fun m => m.1.isSome then names.mapM fun name => member? members name.toList
    else none
  | list elements =>
    if names.length < elements.length then none
    else some (elements.map some ++ List.replicate (names.length - elements.length) none)
  | _ => none

/-- The value of a member if there is one, and the usual value if there is none. -/
def orUsual {α : Type} (decode : Document → Option α) (usual : α) : Option Document → Option α
  | none => some usual
  | some d => decode d

end Document
end CertRotation
