import Shorthand.Fault
import Shorthand.Path

/-!
# Stores of files

A store is read and written by path. Reading does not change it; writing may, even where it fails.

Stores keep their files in lists of keys with values. Inserting takes away what the key had before,
so a list that is made by inserting has each key once.

    (insert xs k v).lookup k = some v        (insert xs k v).lookup j = xs.lookup j    for j ≠ k
-/

namespace Shorthand

/-- How files are read from and written to a state `σ`. -/
structure Store (σ : Type) where
  read : σ → String → Except IoFault (List UInt8)
  write : σ → String → List UInt8 → Except IoFault Unit × σ

/-- The same store, its paths seen from a folder. -/
def Store.within {σ : Type} (base : String) (store : Store σ) : Store σ where
  read s path := store.read s (Path.join base path)
  write s path data := store.write s (Path.join base path) data

/-! ## Values by key -/

namespace Entries

variable {α β : Type} [BEq α]

def erase (xs : List (α × β)) (key : α) : List (α × β) := xs.filter fun x => x.1 != key

/-- The list with a value for a key, at its end. -/
def insert (xs : List (α × β)) (key : α) (value : β) : List (α × β) :=
  erase xs key ++ [(key, value)]

variable [LawfulBEq α]

@[simp]
theorem lookup_erase_self (xs : List (α × β)) (key : α) : (erase xs key).lookup key = none := by
  rw [List.lookup_eq_none_iff]
  intro x hx
  have hne := (List.mem_filter.mp hx).2
  rw [bne_iff_ne] at hne ⊢
  exact hne.symm

theorem lookup_erase_of_ne (xs : List (α × β)) {key other : α} (hne : other ≠ key) :
    (erase xs key).lookup other = xs.lookup other := by
  induction xs with
  | nil => rfl
  | cons x xs ih =>
    obtain ⟨k, v⟩ := x
    rw [erase, List.filter_cons, List.lookup_cons]
    by_cases hk : k = key
    · have hother : (other == k) = false := beq_eq_false_iff_ne.mpr (hk ▸ hne)
      rw [if_neg (by simp [hk]), hother]
      exact ih
    · rw [if_pos (by simp [hk]), List.lookup_cons]
      split
      · rfl
      · exact ih

@[simp]
theorem lookup_insert_self (xs : List (α × β)) (key : α) (value : β) :
    (insert xs key value).lookup key = some value := by
  simp [insert, List.lookup_append]

theorem lookup_insert_of_ne (xs : List (α × β)) {key other : α} (hne : other ≠ key) (value : β) :
    (insert xs key value).lookup other = xs.lookup other := by
  have hlast : [(key, value)].lookup other = none := by simp [hne]
  rw [insert, List.lookup_append, lookup_erase_of_ne xs hne, hlast, Option.or_none]

end Entries

end Shorthand
