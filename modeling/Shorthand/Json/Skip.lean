import Shorthand.Json.Number

/-!
# Passing over a JSON value

A value that nobody wants is only checked for its form: numbers may be of any size, strings may
hold any octets and any surrogates, and brackets may be nested to any depth. The open brackets are
kept on a stack.
-/

namespace Shorthand.Json

inductive Bracket where
  | array
  | object
  deriving DecidableEq, Repr

def Bracket.close : Bracket → Char
  | .array => ']'
  | .object => '\x7d'

/-- The fault of a text that ends inside a bracket. -/
def Bracket.atEnd : Bracket → Fault
  | .array => .endOfList
  | .object => .endOfObject

/-- The fault of an item that is followed by neither a comma nor the closing bracket. -/
def Bracket.noComma : Bracket → Fault
  | .array => .expectedCommaOrBracket
  | .object => .expectedCommaOrBrace

/-! ## Strings -/

def skipEscape : List UInt8 → Except Fault (List UInt8)
  | [] => .error .endOfString
  | b :: rest =>
    if charOf b = 'u' then (hexQuad rest).map (·.2)
    else if (shortEscape? (charOf b)).isSome then .ok rest
    else .error .badEscape

/-- Passes over a string up to and with its closing quote. -/
def skipStringFrom : (fuel : Nat) → List UInt8 → Except Fault (List UInt8)
  | 0, _ => .error .endOfString
  | _, [] => .error .endOfString
  | fuel + 1, b :: rest =>
    if charOf b = '"' then .ok rest
    else if charOf b = '\\' then do
      let rest ← skipEscape rest
      skipStringFrom fuel rest
    else if b < 0x20 then .error .controlCharacter
    else skipStringFrom fuel rest

/-- Passes over a string whose opening quote has been passed. -/
def skipString : Reader Unit := fun bs => do
  let rest ← skipStringFrom (bs.length + 1) bs
  .ok ((), rest)

/-! ## Values -/

/-- Passes over the key and the colon of a member. -/
def skipKey : Reader Unit := do
  match ← look with
  | none => throw .endOfObject
  | some '"' => do
    advance
    skipString
    colon
  | some _ => throw .keyNotString

/-- Goes on inside the innermost of the open brackets, after an item or right after the bracket:
closes brackets while it can, and stops where a value must follow. The result is the brackets that
are then open; none are left at the end of the whole value. -/
def skipBetween : (fuel : Nat) → (afterItem : Bool) → List Bracket → Reader (List Bracket)
  | 0, _, stack => return stack
  | _, _, [] => return []
  | fuel + 1, afterItem, top :: stack => do
    match ← look with
    | none => throw top.atEnd
    | some c =>
      if c = top.close then do
        advance
        skipBetween fuel true stack
      else do
        if afterItem then
          if c = ',' then advance else throw top.noComma
        if top = .object then skipKey
        return top :: stack

/-- Passes over a value inside the open brackets, and over all that follows up to the end of the
outermost of them. -/
def skipFrom : (fuel : Nat) → List Bracket → Reader Unit
  | 0, _ => throw .endOfValue
  | fuel + 1, stack => do
    let opened : Option Bracket ← do
      match ← look with
      | none => throw .endOfValue
      | some 'n' => do
        word "null".toList
        pure none
      | some 't' => do
        word "true".toList
        pure none
      | some 'f' => do
        word "false".toList
        pure none
      | some '"' => do
        advance
        skipString
        pure none
      | some '[' => do
        advance
        pure (some .array)
      | some '\x7b' => do
        advance
        pure (some .object)
      | some c =>
        if c = '-' || c.isDigit then do
          let _ ← numeral .badNumber
          pure none
        else throw .expectedValue
    let room := (← get).length + 1
    let stack ← match opened with
      | some bracket => skipBetween room false (bracket :: stack)
      | none => skipBetween room true stack
    if stack.isEmpty then return () else skipFrom fuel stack

def skipValue : Reader Unit := do skipFrom ((← get).length + 1) []

end Shorthand.Json
