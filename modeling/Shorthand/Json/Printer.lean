import Shorthand.Json.Value
import Shorthand.Text.Quoted

/-!
# Writing JSON

Values are written over several lines, two blanks deeper for each bracket; empty brackets stay on
one line. In strings only quotes, backslashes and controls are escaped.
-/

namespace Shorthand.Json

/-! ## Strings -/

def escapeChar (c : Char) : List Char :=
  if c = '"' then ['\\', '"']
  else if c = '\\' then ['\\', '\\']
  else if c = '\x08' then ['\\', 'b']
  else if c = '\x0C' then ['\\', 'f']
  else if c = '\n' then ['\\', 'n']
  else if c = '\r' then ['\\', 'r']
  else if c = '\t' then ['\\', 't']
  else if c.toNat < 0x20 then
    ['\\', 'u', '0', '0', Nat.digitChar (c.toNat / 16), Nat.digitChar (c.toNat % 16)]
  else [c]

def quote : String → List Char := Text.quotedBy escapeChar

/-! ## Values -/

def newline (depth : Nat) : List Char := '\n' :: List.replicate (2 * depth) ' '

def Number.chars : Number → List Char
  | .integer n => (toString n).toList
  | .float x => (Decimal.Layout.compact.text x).toList

mutual

/-- A value whose brackets are opened at a depth. -/
def Value.pretty (depth : Nat) : Value → List Char
  | .null => "null".toList
  | .boolean b => if b then "true".toList else "false".toList
  | .number n => n.chars
  | .string s => quote s
  | .array [] => ['[', ']']
  | .array (v :: vs) =>
    '[' :: newline (depth + 1) ++ v.pretty (depth + 1) ++ prettyItems (depth + 1) vs ++
      newline depth ++ [']']
  | .object [] => ['\x7b', '\x7d']
  | .object ((k, v) :: ms) =>
    '\x7b' :: newline (depth + 1) ++ quote k ++ [':', ' '] ++ v.pretty (depth + 1) ++
      prettyMembers (depth + 1) ms ++ newline depth ++ ['\x7d']

/-- The elements after the first. -/
def prettyItems (depth : Nat) : List Value → List Char
  | [] => []
  | v :: vs => ',' :: newline depth ++ v.pretty depth ++ prettyItems depth vs

/-- The members after the first. -/
def prettyMembers (depth : Nat) : List (String × Value) → List Char
  | [] => []
  | (k, v) :: ms =>
    ',' :: newline depth ++ quote k ++ [':', ' '] ++ v.pretty depth ++ prettyMembers depth ms

end

def Value.document (v : Value) : List Char := v.pretty 0

end Shorthand.Json
