import Shorthand.Text.Quoted
import Shorthand.Decimal

/-!
# Data that does not have the expected shape

A document can be well formed and still not be what its reader wants: a value of another kind, an
array with too few elements, a record without one of its fields or with one of them twice.
-/

namespace Shorthand.Schema

inductive Found where
  | null
  | boolean (b : Bool)
  | integer (n : Int)
  /-- An integer of more than 64 bits; `signed` tells whether 128 bits with a sign hold it. -/
  | wideInteger (n : Int) (signed : Bool)
  | float (x : Binary64)
  | string (s : String)
  | sequence
  | map
  deriving DecidableEq, Repr

/-- What was found, in words; `layout` is the document format's way to write numbers. -/
def Found.describe (layout : Decimal.Layout) : Found → String
  | .null => "null"
  | .boolean b => if b then "boolean `true`" else "boolean `false`"
  | .integer n => "integer `" ++ toString n ++ "`"
  | .wideInteger n signed =>
    "integer `" ++ toString n ++ (if signed then "` as i128" else "` as u128")
  | .float x => "floating point `" ++ layout.text x ++ "`"
  | .string s => "string " ++ Text.quoted s
  | .sequence => "sequence"
  | .map => "map"

/-- How a document differs from what was expected. -/
inductive Mismatch where
  | type (found : Found) (expected : String)
  /-- An array of `length` elements where a record with `fields` fields was expected. -/
  | length (length : Nat) (record : String) (fields : Nat)
  | missingField (field : String)
  | duplicateField (field : String)
  deriving DecidableEq, Repr

def Mismatch.message (layout : Decimal.Layout) : Mismatch → String
  | .type found expected => "invalid type: " ++ found.describe layout ++ ", expected " ++ expected
  | .length n record fields =>
    "invalid length " ++ toString n ++ ", expected struct " ++ record ++ " with " ++
      toString fields ++ " elements"
  | .missingField f => "missing field `" ++ f ++ "`"
  | .duplicateField f => "duplicate field `" ++ f ++ "`"

end Shorthand.Schema
