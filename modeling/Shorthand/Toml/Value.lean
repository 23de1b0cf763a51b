import Shorthand.Binary64

/-!
# TOML values and tables

A table lists its keys in ascending order. It remembers where it came from, since that decides
what may still be added to it:

    header      a line `[a]`                       closed to dotted keys, cannot be opened again
    implied     on the way to `[a.b]`              may still be opened by its own header
    dotted      on the way to `a.b = 1`            open to dotted keys only
    inline      written between braces             closed
-/

namespace Shorthand.Toml

/-- Where a table came from. -/
inductive Origin where
  | header
  | implied
  | dotted
  | inline
  deriving DecidableEq, Repr

inductive Value where
  | string (s : String)
  | integer (n : Int)
  | float (x : Binary64)
  /-- A numeral that denotes no number: it has a base and no digits, or is too large. -/
  | noNumber
  | boolean (b : Bool)
  | dateTime (text : String)
  /-- An array; `ofTables` where it was written by headers `[[a]]`. -/
  | array (ofTables : Bool) (items : List Value)
  | table (origin : Origin) (entries : List (String × Value))
  deriving Repr

/-- Keys in ascending order, with their values. -/
abbrev Table := List (String × Value)

namespace Table

/-- Gives a key a value, in place of any it had. -/
def insert (key : String) (value : Value) : Table → Table
  | [] => [(key, value)]
  | (k, v) :: t =>
    if key = k then (k, value) :: t
    else if key < k then (key, value) :: (k, v) :: t
    else (k, v) :: insert key value t

def insertNew? (key : String) (value : Value) (t : Table) : Option Table :=
  match t.lookup key with
  | none => some (t.insert key value)
  | some _ => none

/-! ## Paths -/

/-- What a table on the way to a dotted key, or to a header, comes from. -/
def originOnTheWay (dotted : Bool) : Origin := if dotted then .dotted else .implied

/-- Whether a path may lead through a table. -/
def isOpenTo (dotted : Bool) : Origin → Bool
  | .inline => false
  | .header => !dotted
  | .implied => true
  | .dotted => true

def changeLast? (f : Value → Option Value) : List Value → Option (List Value)
  | [] => none
  | [v] => (f v).map ([·])
  | v :: vs => (changeLast? f vs).map (v :: ·)

/-- Changes the table at the end of a path by `f`, which is told where that table came from. Tables
that are missing on the way are made; a path through an array of tables leads to its last one. -/
def changeAt? (dotted : Bool) (f : Origin → Table → Option Table) :
    (path : List String) → Origin → Table → Option Table
  | [], origin, t => f origin t
  | key :: path, _, t =>
    match t.lookup key with
    | none =>
      (changeAt? dotted f path (originOnTheWay dotted) []).map fun sub =>
        t.insert key (.table (originOnTheWay dotted) sub)
    | some (.table origin sub) =>
      if isOpenTo dotted origin then
        (changeAt? dotted f path origin sub).map fun sub => t.insert key (.table origin sub)
      else none
    | some (.array true items) =>
      let inLast : Value → Option Value
        | .table origin sub => (changeAt? dotted f path origin sub).map (.table origin)
        | _ => none
      (changeLast? inLast items).map fun items => t.insert key (.array true items)
    | some _ => none

end Table

/-- A key with the keys on the way to it. -/
structure Key where
  path : List String
  last : String
  deriving DecidableEq, Repr

/-- Adds an entry. A plain key goes into the table itself; a dotted key needs a table that only
dotted keys made. -/
def Table.addEntry? (key : Key) (value : Value) (t : Table) : Option Table :=
  let add (origin : Origin) (t : Table) : Option Table :=
    if (origin == .dotted) == key.path.isEmpty then none else t.insertNew? key.last value
  Table.changeAt? true add key.path .header t

end Shorthand.Toml
