import Shorthand.Schema
import Shorthand.Toml.Value

/-!
# Taking data out of TOML values

A decoder turns a value into data or tells how it differs from what is expected. A record is a table
with the record's keys, or an array with its fields in order. The keys of a table are visited in
ascending order, and the first difference counts; only then are missing keys noticed.
-/

namespace Shorthand.Toml

/-- Why a well-formed document is not what is expected. -/
inductive Misfit where
  | mismatch (m : Schema.Mismatch)
  /-- A numeral denotes no number. -/
  | noNumber
  deriving DecidableEq, Repr

def Misfit.message : Misfit → String
  | .mismatch m => m.message .plain
  | .noNumber => "syntax"

/-- Data out of a value. -/
abbrev Decoder (α : Type) := Value → Except Misfit α

/-! ## Values of the wrong kind -/

/-- True of integers below `2 ^ bits`. -/
def isBelow (n : Int) (bits : Nat) : Bool := n < Int.ofNat (Nat.pow 2 bits)

/-- True of integers from `-2 ^ bits` on. -/
def isAtLeast (n : Int) (bits : Nat) : Bool := -Int.ofNat (Nat.pow 2 bits) ≤ n

def foundInteger (n : Int) : Schema.Found :=
  if isAtLeast n 63 && isBelow n 64 then .integer n else .wideInteger n (isBelow n 127)

/-- A value as something found in a document; a date counts as a map. -/
def Value.found : Value → Except Misfit Schema.Found
  | .string s => .ok (.string s)
  | .integer n => .ok (foundInteger n)
  | .float x => .ok (.float x)
  | .noNumber => .error .noNumber
  | .boolean b => .ok (.boolean b)
  | .dateTime _ => .ok .map
  | .array _ _ => .ok .sequence
  | .table _ _ => .ok .map

def mismatch {α : Type} (expected : String) (v : Value) : Except Misfit α := do
  let found ← v.found
  .error (.mismatch (.type found expected))

mutual

/-- Passes over a value that nobody wants: all its numerals must denote numbers. -/
def ignore : Value → Except Misfit Unit
  | .array _ items => ignoreItems items
  | .table _ entries => ignoreEntries entries
  | .noNumber => .error .noNumber
  | _ => .ok ()

def ignoreItems : List Value → Except Misfit Unit
  | [] => .ok ()
  | v :: vs => do
    ignore v
    ignoreItems vs

def ignoreEntries : List (String × Value) → Except Misfit Unit
  | [] => .ok ()
  | (_, v) :: t => do
    ignore v
    ignoreEntries t

end

/-! ## Simple data -/

def text : Decoder String
  | .string s => .ok s
  | v => mismatch "a string" v

def truth : Decoder Bool
  | .boolean b => .ok b
  | v => mismatch "a boolean" v

def listOf {α : Type} (item : Decoder α) : Decoder (List α)
  | .array _ items => items.mapM item
  | v => mismatch "a sequence" v

/-! ## Records -/

/-- A field's key and what is expected of its value. -/
abbrev Expectation := String × (Value → Except Misfit Unit)

/-- Expects data of a kind under a key. -/
def field {α : Type} (key : String) (decode : Decoder α) : Expectation :=
  (key, fun v => (decode v).map fun _ => ())

def visit (fields : List Expectation) (t : Table) : Except Misfit Unit :=
  t.forM fun e =>
    match fields.find? fun f => f.1 == e.1 with
    | some f => f.2 e.2
    | none => ignore e.2

/-- The data under a key that must be there. -/
def required {α : Type} (t : Table) (key : String) (decode : Decoder α) : Except Misfit α :=
  match t.lookup key with
  | some v => decode v
  | none => .error (.mismatch (.missingField key))

/-- The data under a key that may be missing. -/
def optional {α : Type} (t : Table) (key : String) (decode : Decoder α) :
    Except Misfit (Option α) :=
  match t.lookup key with
  | some v => (decode v).map some
  | none => .ok none

/-- The element of a record's array that stands for field number `index`. -/
def element {α : Type} (name : String) (fields : Nat) (items : List Value) (index : Nat)
    (decode : Decoder α) : Except Misfit α :=
  match items[index]? with
  | some v => decode v
  | none => .error (.mismatch (.length index name fields))

/-- A record: a table is decoded by `ofTable`, an array by `ofItems`. A date is like a table without
any key of the record. -/
def record {α : Type} (name : String) (ofTable : Table → Except Misfit α)
    (ofItems : List Value → Except Misfit α) : Decoder α
  | .table _ t => ofTable t
  | .dateTime _ => ofTable []
  | .array _ items => ofItems items
  | v => mismatch ("struct " ++ name) v

end Shorthand.Toml
