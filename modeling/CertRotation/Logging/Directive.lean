import CertRotation.Text.Alphabetic
import CertRotation.Text.Literal

/-!
# Directives

A directive says up to which level lines are kept, for the targets that begin in a certain way or
for all.  It is written as `target=level`, as a target alone, which stands for all levels, or as a
level alone.

Space around a directive is set aside only to look at its first character and to find the equals
sign; the place of the sign is then counted from the start of the text, space included.
-/

set_option autoImplicit false

namespace CertRotation

/-- How important a line is at least, from nothing at all to everything. -/
inductive LogLevel where
  | off
  | error
  | warn
  | info
  | debug
  | trace
  deriving DecidableEq

namespace LogLevel

/-- The levels with their names, each after those that keep less. -/
def named : List (LogLevel × String) :=
  [(off, "off"), (error, "error"), (warn, "warn"), (info, "info"), (debug, "debug"),
    (trace, "trace")]

/-- The number of levels that are kept. -/
def count : LogLevel → Nat
  | off => 0
  | error => 1
  | warn => 2
  | info => 3
  | debug => 4
  | trace => 5

/-- The name of a level. -/
def name : LogLevel → String
  | off => "off"
  | error => "error"
  | warn => "warn"
  | info => "info"
  | debug => "debug"
  | trace => "trace"

/-- The level that is called so, in small or capital letters, or that has this number.  No text at
all is `error`. -/
def read? (text : List Char) : Option LogLevel :=
  match (Text.natural? (UInt64.size - 1) text).bind fun n => named[n]? with
  | some (level, _) => some level
  | none =>
    if text = [] then some error
    else (named.find? fun l => l.2.toList = text.map Char.toLower).map Prod.fst

end LogLevel

/-- Which lines are kept for some targets. -/
structure Directive where
  /-- How the targets begin; all targets if there is nothing. -/
  target : Option (List Char)
  level : LogLevel
  deriving DecidableEq

namespace Directive

/-- Why a text is no directive. -/
inductive Flaw where
  | invalid
  | level
  deriving DecidableEq

/-- The message of a flaw. -/
def Flaw.message : Flaw → String
  | .invalid => "invalid filter directive"
  | .level => "error parsing level filter: expected one of \"off\", \"error\", \"warn\", "
      ++ "\"info\", \"debug\", \"trace\", or a number 0-5"

/-- Whether a directive may begin with a character. -/
def mayBegin (c : Char) : Bool := Text.isAlphanumeric c || c = '-' || c = ':' || c = '_'

/-- A text without the space around it. -/
def trim (text : List Char) : List Char :=
  ((text.dropWhile Text.isBlank).reverse.dropWhile Text.isBlank).reverse

/-- A target or a level. -/
def ofWord (text : List Char) : Directive :=
  match LogLevel.read? text with
  | some level => ⟨none, level⟩
  | none => ⟨some text, .trace⟩

/-- A directive with an equals sign at byte `place`. -/
def ofPair (text : List Char) (place : Nat) : Except Flaw Directive :=
  let bytes := Utf8.encode text
  let target := Utf8.lossy (bytes.take place)
  let level := Utf8.lossy (bytes.drop (place + 1))
  if level = [] then .ok ⟨some target, .trace⟩
  else
    match LogLevel.read? level with
    | some level => .ok ⟨some target, level⟩
    | none => .error .level

/-- Reads a directive. -/
def parse (text : List Char) : Except Flaw Directive :=
  let trimmed := trim text
  match trimmed with
  | [] => .error .invalid
  | c :: _ =>
    if !mayBegin c then .error .invalid
    else if '=' ∈ trimmed then
      ofPair text (Utf8.encode (trimmed.takeWhile (· ≠ '='))).length
    else .ok (ofWord text)

/-- The written form of a directive. -/
def shown (d : Directive) : String :=
  match d.target with
  | none => d.level.name
  | some target => String.ofList target ++ "=" ++ d.level.name

/-- Whether a directive comes before another: the longer target first, of two equally long ones the
one that is later in the alphabet, and the directive for all targets last. -/
def before (d e : Directive) : Bool :=
  match d.target, e.target with
  | none, _ => false
  | some _, none => true
  | some t, some u =>
    let t := Utf8.encode t
    let u := Utf8.encode u
    u.length < t.length || (u.length = t.length && u < t)

end Directive

/-- The directives of a log, one for each target, in the order in which they are tried. -/
structure LogFilter where
  directives : List Directive
  deriving DecidableEq

namespace LogFilter

/-- Puts a directive in its place.  It replaces the one for the same targets. -/
def insert (d : Directive) : List Directive → List Directive
  | [] => [d]
  | e :: rest =>
    if d.target = e.target then d :: rest
    else if d.before e then d :: e :: rest
    else e :: insert d rest

/-- The filter of some directives, of which the later one counts. -/
def ofDirectives (ds : List Directive) : LogFilter := ⟨ds.foldl (fun set d => insert d set) []⟩

/-- The pieces of a text between commas that are not empty. -/
def pieces (text : List Char) : List (List Char) := (text.splitOn ',').filter (· ≠ [])

/-- Reads a filter; the first piece that is no directive spoils it. -/
def parse (text : List Char) : Except Directive.Flaw LogFilter :=
  ((pieces text).mapM Directive.parse).map ofDirectives

/-- Reads a filter and passes over what is no directive.  Without any directive it keeps errors. -/
def parseLenient (text : List Char) : LogFilter :=
  match (pieces text).filterMap fun piece => (Directive.parse piece).toOption with
  | [] => ⟨[⟨none, .error⟩]⟩
  | ds => ofDirectives ds

/-- The level up to which lines of a target are kept. -/
def levelFor (f : LogFilter) (target : List Char) : LogLevel :=
  match f.directives.find? fun d => d.target.all fun t => t.isPrefixOf target with
  | some d => d.level
  | none => .off

/-- The written form of a filter. -/
def shown (f : LogFilter) : String := ",".intercalate (f.directives.map Directive.shown)

end LogFilter
end CertRotation
