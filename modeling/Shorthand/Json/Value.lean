import Shorthand.Json.Number

/-!
# JSON values

Values of any kind, read without knowing what is wanted. Brackets may be nested up to a depth
that the reader is given as the number of brackets it may still open.

    value room reads a value with at most room nested brackets
-/

namespace Shorthand.Json

/-- A JSON value. The members of an object keep their order, and keys may repeat. -/
inductive Value where
  | null
  | boolean (b : Bool)
  | number (n : Number)
  | string (s : String)
  | array (items : List Value)
  | object (members : List (String × Value))
  deriving Repr

/-- How many brackets of a text may be open at once. -/
def maxDepth : Nat := 127

/-- Reads a word that starts with the next character. -/
def wordValue {α : Type} (text : String) (x : α) : Reader α := do
  word text.toList
  return x

/-- Reads the rest of a member and puts it behind the others. -/
def memberStep (inner : Reader Value) (ms : List (String × Value)) (key : String) :
    Reader (List (String × Value)) := do
  colon
  return ms ++ [(key, ← inner)]

/-- Reads a value whose inner values are read by `inner?`; without it no bracket may be opened. -/
def valueWith (inner? : Option (Reader Value)) : Reader Value := do
  match ← look with
  | none => throw .endOfValue
  | some 'n' => wordValue "null" .null
  | some 't' => wordValue "true" (.boolean true)
  | some 'f' => wordValue "false" (.boolean false)
  | some '"' => do
    advance
    return .string (← string)
  | some '[' =>
    match inner? with
    | none => throw .tooDeep
    | some inner => do
      advance
      return .array (← elements inner)
  | some '\x7b' =>
    match inner? with
    | none => throw .tooDeep
    | some inner => do
      advance
      return .object (← members (memberStep inner) [])
  | some c =>
    if c = '-' || c.isDigit then return .number (← number) else throw .expectedValue

/-- Reads a value that opens at most `room` brackets at once. -/
def value : (room : Nat) → Reader Value
  | 0 => valueWith none
  | room + 1 => valueWith (some (value room))

/-! ## Values of the wrong kind -/

/-- Refuses the value that follows: a value that can be named is read first. -/
def mismatch {α : Type} (expected : String) : Reader α := do
  let refuse (found : Schema.Found) : Reader α := throw (.mismatch (.type found expected))
  match ← peek with
  | some 'n' => do
    word "null".toList
    refuse .null
  | some 't' => do
    word "true".toList
    refuse (.boolean true)
  | some 'f' => do
    word "false".toList
    refuse (.boolean false)
  | some '"' => do
    advance
    refuse (.string (← string))
  | some '[' => refuse .sequence
  | some '\x7b' => refuse .map
  | some c =>
    if c = '-' || c.isDigit then refuse (← number).found else throw .expectedValue
  | none => throw .expectedValue

def text : Reader String := do
  match ← look with
  | none => throw .endOfValue
  | some '"' => do
    advance
    string
  | some _ => mismatch "a string"

def text? : Reader (Option String) := do
  match ← look with
  | some 'n' => wordValue "null" none
  | _ => some <$> text

def truth : Reader Bool := do
  match ← look with
  | none => throw .endOfValue
  | some 't' => wordValue "true" true
  | some 'f' => wordValue "false" false
  | some _ => mismatch "a boolean"

def listOf {α : Type} (item : Reader α) : Reader (List α) := do
  match ← look with
  | none => throw .endOfValue
  | some '[' => do
    advance
    elements item
  | some _ => mismatch "a sequence"

/-! ## Records -/

/-- Reads a record: an object by `ofObject`, an array by `ofArray`, which is followed by the
closing bracket. -/
def record {α : Type} (name : String) (ofObject ofArray : Reader α) : Reader α := do
  match ← look with
  | none => throw .endOfValue
  | some '[' => do
    advance
    let x ← ofArray
    closeArray
    return x
  | some '\x7b' => do
    advance
    ofObject
  | some _ => mismatch ("struct " ++ name)

/-- Reads the element of a record's array that stands for field number `index`. -/
def element {α : Type} (name : String) (fields index : Nat) (read : Reader α) : Reader α := do
  if ← nextElement (index = 0) then read
  else throw (.mismatch (.length index name fields))

/-- Reads the value of a field that must not have been read before. -/
def once {α : Type} (field : String) (seen : Option α) (read : Reader α) : Reader (Option α) := do
  if seen.isSome then throw (.mismatch (.duplicateField field))
  else do
    colon
    return some (← read)

def required {α : Type} (field : String) : Option α → Reader α
  | some x => return x
  | none => throw (.mismatch (.missingField field))

end Shorthand.Json
