import Shorthand.Store.Basic

/-!
# Trees of folders

A tree has folders and files at places, and one folder from which relative paths start. A path is
walked name by name; every step needs a folder to stand in. Writing a file makes the folders above
it first, and those stay even where the file cannot be written.

    read ⟨"a" ↦ folder, "a/b" ↦ file d⟩ "./a//b" = d
-/

namespace Shorthand

/-- The name of a folder or a file in the folder above it. -/
abbrev Name := List Char

/-- The names that lead to a folder or a file from the root. -/
abbrev Place := List Name

inductive Node where
  | folder
  | file (data : List UInt8)
  deriving DecidableEq, Repr

structure Tree where
  /-- At most one node for a place; the root is not listed. -/
  nodes : List (Place × Node)
  /-- The folder from which relative paths start. -/
  here : Place
  deriving DecidableEq, Repr

namespace Tree

/-! ## Nodes -/

def empty : Tree := ⟨[], []⟩

def node? (t : Tree) (place : Place) : Option Node :=
  if place = [] then some .folder else t.nodes.lookup place

/-- Puts a node at a place, instead of what stands there. -/
def put (t : Tree) (place : Place) (node : Node) : Tree :=
  { t with nodes := Entries.insert t.nodes place node }

@[simp]
theorem node?_put_self (t : Tree) {place : Place} (h : place ≠ []) (node : Node) :
    (t.put place node).node? place = some node := by
  simp [node?, put, h]

@[simp]
theorem node?_put_of_ne (t : Tree) {place other : Place} (hne : other ≠ place) (node : Node) :
    (t.put place node).node? other = t.node? other := by
  simp [node?, put, Entries.lookup_insert_of_ne t.nodes hne]

/-- The tree that starts at an empty folder below the root. -/
def startingAt (name : String) : Tree := ⟨[([name.toList], .folder)], [name.toList]⟩

/-! ## Limits -/

/-- The octets that a name or a path takes. -/
def size (cs : List Char) : Nat := cs.foldl (fun n c => n + c.utf8Size) 0

/-- Names have at most 255 octets. -/
def nameLimit : Nat := 255

/-- Paths have fewer than 4096 octets. -/
def pathLimit : Nat := 4096

/-- A path that may be looked at: no NUL, not too long, and not empty. -/
def permit (path : List Char) : Except IoFault Unit :=
  if path.contains '\x00' then .error .nulInPath
  else if path.isEmpty then .error (.os .noEntry)
  else if pathLimit ≤ size path then .error (.os .nameTooLong)
  else .ok ()

/-! ## Walking -/

/-- The name of a folder for itself. -/
def self : Name := ['.']

/-- The name of a folder for the one above it. -/
def above : Name := ['.', '.']

def needFolder (t : Tree) (place : Place) : Except OsError Unit :=
  match t.node? place with
  | some .folder => .ok ()
  | some (.file _) => .error .notDirectory
  | none => .error .noEntry

/-- The place to which names lead. Nothing has to stand there. -/
def walk (t : Tree) : Place → List Name → Except OsError Place
  | place, [] => .ok place
  | place, name :: names => do
    t.needFolder place
    if name = self then t.walk place names
    else if name = above then t.walk place.dropLast names
    else if nameLimit < size name then .error .nameTooLong
    else t.walk (place ++ [name]) names

def start (t : Tree) (path : List Char) : Place :=
  if path.head? = some '/' then [] else t.here

/-- The folder in which the last of some names stands. -/
def walkAbove (t : Tree) (start : Place) (names : List Name) : Except OsError Place := do
  let place ← t.walk start names.dropLast
  t.needFolder place
  return place

/-! ## Reading -/

/-- True of a path that ends in a slash and so names a folder. -/
def namesFolder (path : List Char) : Bool := path.getLast? == some '/'

/-- The place of a path that is read. -/
def locate (t : Tree) (path : List Char) : Except OsError Place :=
  t.walk (t.start path) (Path.steps path ++ if namesFolder path then [self] else [])

def fileAt (t : Tree) (path : List Char) : Except OsError (List UInt8) := do
  match t.node? (← t.locate path) with
  | some (.file data) => .ok data
  | some .folder => .error .isDirectory
  | none => .error .noEntry

def read (t : Tree) (path : String) : Except IoFault (List UInt8) := do
  permit path.toList
  (t.fileAt path.toList).mapError .os

/-! ## Making folders -/

/-- Makes the folder to which names lead. -/
def makeFolder (t : Tree) (start : Place) (names : List Name) : Except OsError Tree :=
  match names.getLast? with
  | none => .error .exists
  | some name => do
    let place ← t.walkAbove start names
    if name = self ∨ name = above then .error .exists
    else if nameLimit < size name then .error .nameTooLong
    else
      match t.node? (place ++ [name]) with
      | some _ => .error .exists
      | none => .ok (t.put (place ++ [name]) .folder)

def hasFolder (t : Tree) (start : Place) (names : List Name) : Bool :=
  match t.walk start names with
  | .ok place => t.node? place == some .folder
  | .error _ => false

/-- Makes a folder that may be there already. -/
def ensureFolder (t : Tree) (start : Place) (names : List Name) : Except OsError Tree :=
  match t.makeFolder start names with
  | .ok t => .ok t
  | .error e => if t.hasFolder start names then .ok t else .error e

/-- Makes the folder to which names lead, given the last name first, and the folders above it where
they are missing. Those it made stay if it fails. -/
def ensureFolders (t : Tree) (start : Place) : List Name → Except OsError Unit × Tree
  | [] => (.ok (), t)
  | name :: names =>
    let path := (name :: names).reverse
    match t.ensureFolder start path with
    | .ok t => (.ok (), t)
    | .error .noEntry =>
      match t.ensureFolders start names with
      | (.ok (), t) =>
        match t.ensureFolder start path with
        | .ok t => (.ok (), t)
        | .error e => (.error e, t)
      | (.error e, t) => (.error e, t)
    | .error e => (.error e, t)

/-! ## Writing -/

/-- The names of the folder above the file of a path. -/
def folderOf (path : List Char) : List Name := Path.parts (Path.parent path)

/-- The folder above the file of a path may be looked at, by the path that leads to it. -/
def permitFolder (path : List Char) : Except IoFault Unit :=
  if (Path.parent path).isEmpty then .ok () else permit (Path.parent path)

/-- Makes the folders above the file of a path. -/
def prepare (t : Tree) (path : List Char) : Except IoFault Unit × Tree :=
  match permitFolder path with
  | .error e => (.error e, t)
  | .ok () =>
    let (made, t) := t.ensureFolders (t.start path) (folderOf path).reverse
    (made.mapError .os, t)

def create (t : Tree) (path : List Char) (data : List UInt8) : Except OsError Tree :=
  match (Path.steps path).getLast? with
  | none => .error .isDirectory
  | some name => do
    let place ← t.walkAbove (t.start path) (Path.steps path)
    if name = self ∨ name = above ∨ namesFolder path then .error .isDirectory
    else if nameLimit < size name then .error .nameTooLong
    else
      match t.node? (place ++ [name]) with
      | some .folder => .error .isDirectory
      | _ => .ok (t.put (place ++ [name]) (.file data))

def write (t : Tree) (path : String) (data : List UInt8) : Except IoFault Unit × Tree :=
  match t.prepare path.toList with
  | (.error e, t) => (.error e, t)
  | (.ok (), t) =>
    match permit path.toList with
    | .error e => (.error e, t)
    | .ok () =>
      match t.create path.toList data with
      | .ok t => (.ok (), t)
      | .error e => (.error (.os e), t)

def store : Store Tree := ⟨read, write⟩

/-! ## Contents -/

/-- A place below another one, as a path from there. -/
def pathFrom? (base place : Place) : Option (List Char) :=
  if base.isPrefixOf place && base.length < place.length then
    some (['/'].intercalate (place.drop base.length))
  else none

/-- True of a place below which nothing stands. -/
def isBare (t : Tree) (place : Place) : Bool :=
  t.nodes.all fun n => (pathFrom? place n.1).isNone

/-- The files below the starting folder by their paths, and the folders that hold nothing; those
have no data and end in a slash. -/
def contents (t : Tree) : List (String × Option (List UInt8)) :=
  t.nodes.filterMap fun n =>
    match pathFrom? t.here n.1, n.2 with
    | some path, .file data => some (String.ofList path, some data)
    | some path, .folder =>
      if t.isBare n.1 then some (String.ofList (path ++ ['/']), none) else none
    | none, _ => none

end Tree

end Shorthand
