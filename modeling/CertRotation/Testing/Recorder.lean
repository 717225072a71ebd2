/-!
# Recording calls

A recorder keeps the values that a callback was called with, in the order of the calls.
-/

set_option autoImplicit false

namespace CertRotation

/-- The values received so far. -/
structure Recorder (α : Type) where
  items : List α

namespace Recorder

variable {α : Type}

/-- A recorder that has received nothing. -/
def empty : Recorder α := ⟨[]⟩

/-- Receives a value. -/
def push (r : Recorder α) (a : α) : Recorder α := ⟨r.items ++ [a]⟩

/-- Forgets what was received. -/
def clear (_ : Recorder α) : Recorder α := ⟨[]⟩

/-- The number of values received. -/
def size (r : Recorder α) : Nat := r.items.length

/-- Whether nothing was received. -/
def isEmpty (r : Recorder α) : Bool := r.items.isEmpty

/-- The values received, in order. -/
def snapshot (r : Recorder α) : List α := r.items

end Recorder

end CertRotation
