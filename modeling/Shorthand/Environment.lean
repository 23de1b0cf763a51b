/-!
# Environment references

A reference is a dollar sign and a name in braces. One scan from left to right replaces every
reference whose name is defined by its value; what is put in is not read again, and a reference to
an undefined name stays as it is.

    substitute env "a ${HOME} ${}" = "a /root ${}"
-/

namespace Shorthand

/-- The value of each defined name. -/
abbrev Environment := String → Option String

namespace Environment

def empty : Environment := fun _ => none

def ofList (definitions : List (String × String)) : Environment := fun name =>
  definitions.lookup name

/-! ## Algorithm -/

/-- The name of the reference at the start of a text: not empty, and up to the next closing
brace. -/
def reference? : List Char → Option (List Char)
  | '$' :: '\x7b' :: cs =>
    let name := cs.takeWhile (· ≠ '\x7d')
    if name.isEmpty || name.length = cs.length then none else some name
  | _ => none

/-- What a reference is replaced by. -/
def replacement (env : Environment) (name : List Char) : List Char :=
  match env (String.ofList name) with
  | some value => value.toList
  | none => '$' :: '\x7b' :: name ++ ['\x7d']

/-- Scans a text of which the next `skip` characters belong to a reference that was replaced. -/
def substituteFrom (env : Environment) : (skip : Nat) → List Char → List Char
  | _, [] => []
  | skip + 1, _ :: cs => substituteFrom env skip cs
  | 0, c :: cs =>
    match reference? (c :: cs) with
    | some name => replacement env name ++ substituteFrom env (name.length + 2) cs
    | none => c :: substituteFrom env 0 cs

/-- The names of the references that a scan comes to, of a text of which the next `skip` characters
belong to a reference. -/
def namesFrom : (skip : Nat) → List Char → List String
  | _, [] => []
  | skip + 1, _ :: cs => namesFrom skip cs
  | 0, c :: cs =>
    match reference? (c :: cs) with
    | some name => String.ofList name :: namesFrom (name.length + 2) cs
    | none => namesFrom 0 cs

def names (cs : List Char) : List String := namesFrom 0 cs

def substitute (env : Environment) (cs : List Char) : List Char := substituteFrom env 0 cs

end Environment

end Shorthand
