import Shorthand.Store.Basic

/-!
# Shelves

A shelf keeps files under their paths, which are compared as texts. Some paths it refuses to write.

    get? (put s p d) p = some d        get? (put s p d) q = get? s q    for q ≠ p
-/

namespace Shorthand

structure Shelf where
  /-- At most one file for a path. -/
  files : List (String × List UInt8)
  /-- The paths that are not written. -/
  refused : List String
  deriving DecidableEq, Repr

namespace Shelf

def empty : Shelf := ⟨[], []⟩

/-! ## Files -/

def get? (s : Shelf) (path : String) : Option (List UInt8) := s.files.lookup path

def remove (s : Shelf) (path : String) : Shelf :=
  { s with files := Entries.erase s.files path }

/-- Puts a file under a path, in the place of the one that is there. -/
def put (s : Shelf) (path : String) (data : List UInt8) : Shelf :=
  { s with files := Entries.insert s.files path data }

def refuse (s : Shelf) (paths : List String) : Shelf := { s with refused := paths }

/-! ## Lemmas -/

@[simp]
theorem get?_put_self (s : Shelf) (path : String) (data : List UInt8) :
    (s.put path data).get? path = some data :=
  Entries.lookup_insert_self s.files path data

@[simp]
theorem get?_put_of_ne (s : Shelf) {path other : String} (hne : other ≠ path) (data : List UInt8) :
    (s.put path data).get? other = s.get? other :=
  Entries.lookup_insert_of_ne s.files hne data

/-! ## The store -/

def read (s : Shelf) (path : String) : Except IoFault (List UInt8) :=
  match s.get? path with
  | some data => .ok data
  | none => .error (.notFound path)

/-- Writes a file, unless its path is refused. -/
def write (s : Shelf) (path : String) (data : List UInt8) : Except IoFault Unit × Shelf :=
  if s.refused.contains path then (.error (.refused path), s) else (.ok (), s.put path data)

def store : Store Shelf := ⟨read, write⟩

end Shelf

end Shorthand
