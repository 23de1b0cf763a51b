import Shorthand.Json.Fault
import Shorthand.Text.Utf8

/-!
# Reading JSON from left to right

A reader takes octets off the front of a text, or stops at the first problem. Here are the steps
that all readers share: blanks, words, strings, and the punctuation of arrays and objects.

    string reads the octets up to the closing quote, resolves escapes, and then asks for UTF-8
    elements, members read items up to the closing bracket, each after the first behind a comma
-/

namespace Shorthand.Json

/-- A reader of JSON: what it reads, and what is left. -/
abbrev Reader := StateT (List UInt8) (Except Fault)

/-! ## Single octets -/

/-- An octet as a character. Only octets below 0x80 are characters of the format's own. -/
def charOf (b : UInt8) : Char := Char.ofNat b.toNat

/-- The next octet, left in place. -/
def peek : Reader (Option Char) := do return (← get).head?.map charOf

def advance : Reader Unit := modify List.tail

def isSpace (b : UInt8) : Bool := b == 0x20 || b == 0x0A || b == 0x09 || b == 0x0D

/-- Passes over blanks and looks at what follows. -/
def look : Reader (Option Char) := do
  modify fun bs => bs.dropWhile isSpace
  peek

/-- Reads the rest of a word such as `true`. -/
def word : List Char → Reader Unit
  | [] => pure ()
  | c :: cs => do
    match ← peek with
    | none => throw .endOfValue
    | some d =>
      if d = c then do
        advance
        word cs
      else throw .expectedIdent

/-! ## Strings -/

def hexDigit? (b : UInt8) : Option Nat :=
  let n := b.toNat
  if 0x30 ≤ n && n ≤ 0x39 then some (n - 0x30)
  else if 0x41 ≤ n && n ≤ 0x46 then some (n - 0x41 + 10)
  else if 0x61 ≤ n && n ≤ 0x66 then some (n - 0x61 + 10)
  else none

def hexQuad : List UInt8 → Except Fault (Nat × List UInt8)
  | a :: b :: c :: d :: rest =>
    match hexDigit? a, hexDigit? b, hexDigit? c, hexDigit? d with
    | some a, some b, some c, some d => .ok (((a * 16 + b) * 16 + c) * 16 + d, rest)
    | _, _, _, _ => .error .badEscape
  | _ => .error .endOfString

/-- A surrogate that opens a pair. -/
def isLeading (n : Nat) : Bool := 0xD800 ≤ n && n ≤ 0xDBFF

/-- A surrogate that closes a pair. -/
def isTrailing (n : Nat) : Bool := 0xDC00 ≤ n && n ≤ 0xDFFF

/-- The character that a pair of surrogates stands for. -/
def pairChar (n m : Nat) : Char := Char.ofNat ((n - 0xD800) * 0x400 + (m - 0xDC00) + 0x10000)

/-- Reads what follows an opening surrogate: the escape of a closing one. -/
def closePair (n : Nat) : List UInt8 → Except Fault (Char × List UInt8)
  | [] => .error .endOfString
  | b :: rest =>
    if charOf b ≠ '\\' then .error .cutHexEscape
    else
      match rest with
      | [] => .error .endOfString
      | b :: rest =>
        if charOf b ≠ 'u' then .error .cutHexEscape
        else do
          let (m, rest) ← hexQuad rest
          if isTrailing m then .ok (pairChar n m, rest) else .error .loneSurrogate

/-- Reads the digits of a `\u` escape, and of the one after it where a pair is needed. -/
def unicodeEscape (bs : List UInt8) : Except Fault (Char × List UInt8) := do
  let (n, rest) ← hexQuad bs
  if isTrailing n then .error .loneSurrogate
  else if isLeading n then closePair n rest
  else .ok (Char.ofNat n, rest)

/-- The character that a letter stands for after a backslash. -/
def shortEscape? (c : Char) : Option Char :=
  match c with
  | '"' => some '"'
  | '\\' => some '\\'
  | '/' => some '/'
  | 'b' => some '\x08'
  | 'f' => some '\x0C'
  | 'n' => some '\n'
  | 'r' => some '\r'
  | 't' => some '\t'
  | _ => none

def escape : List UInt8 → Except Fault (Char × List UInt8)
  | [] => .error .endOfString
  | b :: rest =>
    if charOf b = 'u' then unicodeEscape rest
    else
      match shortEscape? (charOf b) with
      | some c => .ok (c, rest)
      | none => .error .badEscape

/-- Reads a string up to its closing quote; `fuel` is the number of steps allowed. -/
def stringFrom : (fuel : Nat) → List UInt8 → Except Fault (List UInt8 × List UInt8)
  | 0, _ => .error .endOfString
  | _, [] => .error .endOfString
  | fuel + 1, b :: rest =>
    if charOf b = '"' then .ok ([], rest)
    else if charOf b = '\\' then do
      let (c, rest) ← escape rest
      let (bs, rest) ← stringFrom fuel rest
      .ok (Text.Utf8.encodeChar c ++ bs, rest)
    else if b < 0x20 then .error .controlCharacter
    else do
      let (bs, rest) ← stringFrom fuel rest
      .ok (b :: bs, rest)

/-- Reads a string whose opening quote has been passed. -/
def string : Reader String := fun bs => do
  let (octets, rest) ← stringFrom (bs.length + 1) bs
  match Text.Utf8.toString? octets with
  | .ok s => .ok (s, rest)
  | .error _ => .error .badCodePoint

/-! ## Arrays -/

/-- Whether an element follows; each but the first stands behind a comma. -/
def nextElement (first : Bool) : Reader Bool := do
  match ← look with
  | none => throw .endOfList
  | some ']' => return false
  | some c =>
    if first then return true
    else if c = ',' then do
      advance
      match ← look with
      | none => throw .endOfValue
      | some ']' => throw .trailingComma
      | some _ => return true
    else throw .expectedCommaOrBracket

/-- Reads elements up to the closing bracket, which is left in place. -/
def elementsFrom {α : Type} (item : Reader α) : (fuel : Nat) → (first : Bool) → Reader (List α)
  | 0, _ => throw .endOfList
  | fuel + 1, first => do
    if ← nextElement first then do
      let x ← item
      let xs ← elementsFrom item fuel false
      return x :: xs
    else return []

/-- Reads the closing bracket of an array whose wanted elements have been read. -/
def closeArray : Reader Unit := do
  match ← look with
  | none => throw .endOfList
  | some ']' => advance
  | some ',' => do
    advance
    match ← look with
    | some ']' => throw .trailingComma
    | _ => throw .trailingCharacters
  | some _ => throw .trailingCharacters

/-- Reads all elements of an array whose opening bracket has been passed. -/
def elements {α : Type} (item : Reader α) : Reader (List α) := do
  let xs ← elementsFrom item ((← get).length + 1) true
  closeArray
  return xs

/-! ## Objects -/

/-- Whether a member follows; each but the first stands behind a comma. -/
def nextMember (first : Bool) : Reader Bool := do
  match ← look with
  | none => throw .endOfObject
  | some '\x7d' => return false
  | some c =>
    if first then
      if c = '"' then return true else throw .keyNotString
    else if c = ',' then do
      advance
      match ← look with
      | none => throw .endOfValue
      | some '"' => return true
      | some '\x7d' => throw .trailingComma
      | some _ => throw .keyNotString
    else throw .expectedCommaOrBrace

/-- Reads the colon between a key and its value. -/
def colon : Reader Unit := do
  match ← look with
  | none => throw .endOfObject
  | some ':' => advance
  | some _ => throw .expectedColon

/-- Reads members up to the closing brace, which is left in place. After each key `step` reads the
rest of the member and extends the result. -/
def membersFrom {σ : Type} (step : σ → String → Reader σ) :
    (fuel : Nat) → (first : Bool) → σ → Reader σ
  | 0, _, _ => throw .endOfObject
  | fuel + 1, first, acc => do
    if ← nextMember first then do
      advance
      let key ← string
      let acc ← step acc key
      membersFrom step fuel false acc
    else return acc

/-- Reads all members of an object whose opening brace has been passed. -/
def members {σ : Type} (step : σ → String → Reader σ) (init : σ) : Reader σ := do
  let acc ← membersFrom step ((← get).length + 1) true init
  advance
  return acc

/-! ## Whole texts -/

/-- Reads a whole text: after the value only blanks may follow. -/
def readAll {α : Type} (reader : Reader α) (bs : List UInt8) : Except Fault α := do
  let (x, rest) ← reader bs
  if (rest.dropWhile isSpace).isEmpty then .ok x else .error .trailingCharacters

end Shorthand.Json
