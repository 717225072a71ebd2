import CertRotation.Path

/-!
# Changes

A change is one thing that happened to one path.  The kinds of operation are bits, so that a filter
is a combination of kinds; bits without a name are kept and match like any other.
-/

set_option autoImplicit false

namespace CertRotation

/-- A set of kinds of operation, one bit each. -/
structure Ops where
  bits : UInt8
  deriving DecidableEq

namespace Ops

def none : Ops := ⟨0⟩
/-- A file or directory appeared. -/
def create : Ops := ⟨1⟩
/-- The content of a file changed. -/
def write : Ops := ⟨2⟩
/-- A file or directory was deleted. -/
def remove : Ops := ⟨4⟩
/-- A file or directory was moved away. -/
def rename : Ops := ⟨8⟩
/-- Permissions or times changed. -/
def attributes : Ops := ⟨16⟩

/-- The kinds in either set. -/
def union (a b : Ops) : Ops := ⟨a.bits ||| b.bits⟩

/-- Whether the sets have a kind in common. -/
def meets (a b : Ops) : Bool := a.bits &&& b.bits != 0

/-- The kinds that have a name, in the order of their bits. -/
def named : List (Ops × String) :=
  [(create, "CREATE"), (write, "WRITE"), (remove, "REMOVE"), (rename, "RENAME"),
    (attributes, "CHMOD")]

/-- The names of the kinds in a set. -/
def names (ops : Ops) : List String := (named.filter fun k => ops.meets k.1).map Prod.snd

/-- The bits of a set that have no name. -/
def unnamed (ops : Ops) : UInt8 := ops.bits &&& 0xE0

/-- The names of the kinds with bars between them. -/
def shown (ops : Ops) : String := "|".intercalate ops.names

/-- The set as a value: the names, and the bits without a name as one number in base sixteen. -/
def described (ops : Ops) : String :=
  let rest := if ops.unnamed = 0 then [] else ["0x" ++ Text.hex ops.unnamed.toNat]
  let parts := ops.names ++ rest
  "Op(" ++ (if parts.isEmpty then "0x0" else " | ".intercalate parts) ++ ")"

end Ops

/-- Something that happened to a path. -/
structure Change where
  path : Path
  op : Ops
  deriving DecidableEq

namespace Change

/-- Whether the change is of a kind in `ops`. -/
def isAny (change : Change) (ops : Ops) : Bool := change.op.meets ops

/-- The kind and the path. -/
def shown (change : Change) : String := change.op.shown ++ " " ++ change.path.shown

end Change

end CertRotation
