import Shorthand.Text.Printable

/-!
# Quoted texts

A text between double quotes in which every character is visible: quotes, backslashes and the
common controls have short escapes, and every other character that is not printable is written by
its code point.

    quoted "a\"\u200b" = "\"a\\\"\\u\x7b200b\x7d\""
-/

namespace Shorthand.Text

def hexDigits (n : Nat) : List Char := Nat.toDigits 16 n

def quoteChar (c : Char) : List Char :=
  if c = '"' then ['\\', '"']
  else if c = '\\' then ['\\', '\\']
  else if c = '\n' then ['\\', 'n']
  else if c = '\r' then ['\\', 'r']
  else if c = '\t' then ['\\', 't']
  else if c.toNat = 0 then ['\\', '0']
  else if isPrintable c then [c]
  else ['\\', 'u', '\x7b'] ++ hexDigits c.toNat ++ ['\x7d']

/-- A text between quotes, its characters escaped one by one. -/
def quotedBy (escape : Char → List Char) (s : String) : List Char :=
  '"' :: s.toList.flatMap escape ++ ['"']

def quoted (s : String) : String := String.ofList (quotedBy quoteChar s)

/-- An optional text, in words. -/
def quotedOption : Option String → String
  | none => "None"
  | some s => "Some(" ++ quoted s ++ ")"

def bracketed (items : List String) : String := "[" ++ ", ".intercalate items ++ "]"

end Shorthand.Text
