import CertRotation.Watch.Key

/-!
# The store

A store keeps one value for each of some keys.  `Store.get?` is the view of a store: two stores that
answer alike are alike, whatever the order in which their entries came.
-/

set_option autoImplicit false

namespace CertRotation

/-- Entries by key, each key once. -/
structure Store where
  entries : List (Key × Bytes)
  nodup : (entries.map Prod.fst).Nodup
  deriving DecidableEq

namespace Store

/-- The store without entries. -/
def empty : Store := ⟨[], List.nodup_nil⟩

/-- The value of `key`. -/
def get? (store : Store) (key : Key) : Option Bytes := store.entries.lookup key

/-- Whether `key` has a value. -/
def contains (store : Store) (key : Key) : Bool := (store.get? key).isSome

/-- The store without `key`. -/
def erase (store : Store) (key : Key) : Store :=
  ⟨store.entries.filter fun e => e.1 ≠ key, (List.filter_sublist.map _).nodup store.nodup⟩

/-- The store in which `key` has `value`. -/
def insert (store : Store) (key : Key) (value : Bytes) : Store :=
  ⟨(key, value) :: (store.erase key).entries,
    List.nodup_cons.2 ⟨by simp [erase], (store.erase key).nodup⟩⟩

/-- The number of entries. -/
def size (store : Store) : Nat := store.entries.length

/-- Whether there is no entry. -/
def isEmpty (store : Store) : Bool := store.entries.isEmpty

/-- The view of a store as a value. -/
def described (store : Store) : String :=
  "ReadOnlyStore \x7b len: " ++ toString store.size ++ " \x7d"

theorem get?_empty (key : Key) : empty.get? key = none := rfl

theorem get?_erase (store : Store) (key other : Key) :
    (store.erase key).get? other = if other = key then none else store.get? other := by
  obtain ⟨entries, distinct⟩ := store
  simp only [get?, erase]
  clear distinct
  induction entries with
  | nil => simp
  | cons e rest ih =>
    obtain ⟨k, v⟩ := e
    by_cases hk : k = key
    · subst hk
      by_cases ho : other = k
      · simpa [ho] using ih
      · have : (other == k) = false := by simp [ho]
        simpa [List.lookup_cons, ho, this] using ih
    · by_cases ho : other = k
      · subst ho
        simp [hk]
      · have : (other == k) = false := by simp [ho]
        simpa [List.lookup_cons, hk, this] using ih

theorem get?_insert (store : Store) (key other : Key) (value : Bytes) :
    (store.insert key value).get? other = if other = key then some value else store.get? other := by
  have h := get?_erase store key other
  by_cases ho : other = key
  · simp [insert, get?, ho]
  · have hne : (other == key) = false := by simp [ho]
    rw [if_neg ho] at h ⊢
    rw [← h, get?, insert, List.lookup_cons, hne]
    rfl

end Store

end CertRotation
