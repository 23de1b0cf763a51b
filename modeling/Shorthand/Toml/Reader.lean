import Shorthand.Toml.Value

/-!
# Reading TOML: blanks, comments, strings and keys

A reader takes characters off the front of a text; where the text is not well formed it stops, and
says no more than that.
-/

namespace Shorthand.Toml

def maxParts : Nat := 80

/-- Where a reader stands. -/
structure Cursor where
  /-- What is left of the text. -/
  rest : List Char
  /-- Whether some key so far had too many parts. Such a key is no reason to stop, since what
  follows may have a worse flaw. -/
  overlong : Bool
  deriving DecidableEq, Repr

abbrev Reader := StateT Cursor Option

/-- The reader that takes off the front of the text what `f` takes. -/
def taking {α : Type} (f : List Char → Option (α × List Char)) : Reader α := fun c =>
  (f c.rest).map fun r => (r.1, { c with rest := r.2 })

/-! ## Characters -/

def isSpace (c : Char) : Bool := c == ' ' || c == '\t'

/-- A character that may stand in a comment or a string: no control, the tab apart. -/
def isText (c : Char) : Bool := c == '\t' || (0x20 ≤ c.toNat && c.toNat ≠ 0x7F)

/-- A character of a key without quotes. -/
def isBare (c : Char) : Bool := c.isAlphanum || c == '_' || c == '-'

/-- The next character, left in place. -/
def peek : Reader (Option Char) := do return (← get).rest.head?

/-- Passes over the next character, which must be `c`. -/
def expect (c : Char) : Reader Unit := taking fun cs =>
  match cs with
  | d :: rest => if d = c then some ((), rest) else none
  | [] => none

def spaces : Reader Unit := taking fun cs => some ((), cs.dropWhile isSpace)

/-! ## Lines -/

/-- Passes over blanks, line ends and comments. -/
def triviaFrom : (inComment : Bool) → List Char → Option (List Char)
  | _, [] => some []
  | _, '\n' :: cs => triviaFrom false cs
  | _, '\r' :: '\n' :: cs => triviaFrom false cs
  | true, c :: cs => if isText c then triviaFrom true cs else none
  | false, c :: cs =>
    if c = '#' then triviaFrom true cs
    else if isSpace c then triviaFrom false cs
    else some (c :: cs)

/-- Passes over blanks, line ends and comments. -/
def trivia : Reader Unit := taking fun cs => (triviaFrom false cs).map ((), ·)

/-- Passes over the rest of a line, on which only blanks and a comment may stand. -/
def lineEndFrom : (inComment : Bool) → List Char → Option (List Char)
  | _, [] => some []
  | _, '\n' :: cs => some cs
  | _, '\r' :: '\n' :: cs => some cs
  | true, c :: cs => if isText c then lineEndFrom true cs else none
  | false, c :: cs =>
    if c = '#' then lineEndFrom true cs
    else if isSpace c then lineEndFrom false cs
    else none

def lineEnd : Reader Unit := taking fun cs => (lineEndFrom false cs).map ((), ·)

/-! ## Strings -/

def hexDigit? (c : Char) : Option Nat :=
  if c.isDigit then some (c.toNat - '0'.toNat)
  else if 'a' ≤ c && c ≤ 'f' then some (c.toNat - 'a'.toNat + 10)
  else if 'A' ≤ c && c ≤ 'F' then some (c.toNat - 'A'.toNat + 10)
  else none

/-- Reads a number of `count` hexadecimal digits that goes on from `n`. -/
def hexFrom : (count n : Nat) → List Char → Option (Nat × List Char)
  | 0, n, cs => some (n, cs)
  | _ + 1, _, [] => none
  | count + 1, n, c :: cs =>
    match hexDigit? c with
    | some d => hexFrom count (n * 16 + d) cs
    | none => none

def codePoint (count : Nat) (cs : List Char) : Option (Char × List Char) :=
  match hexFrom count 0 cs with
  | some (n, rest) => if n.isValidChar then some (Char.ofNat n, rest) else none
  | none => none

def escape : List Char → Option (Char × List Char)
  | '"' :: cs => some ('"', cs)
  | '\\' :: cs => some ('\\', cs)
  | 'b' :: cs => some ('\x08', cs)
  | 't' :: cs => some ('\t', cs)
  | 'n' :: cs => some ('\n', cs)
  | 'f' :: cs => some ('\x0C', cs)
  | 'r' :: cs => some ('\r', cs)
  | 'e' :: cs => some ('\x1B', cs)
  | 'x' :: cs => codePoint 2 cs
  | 'u' :: cs => codePoint 4 cs
  | 'U' :: cs => codePoint 8 cs
  | _ => none

/-- Reads a string on one line up to its closing quote. -/
def basicFrom : (fuel : Nat) → List Char → Option (List Char × List Char)
  | 0, _ => none
  | _, [] => none
  | fuel + 1, c :: cs =>
    if c = '"' then some ([], cs)
    else if c = '\\' then do
      let (d, rest) ← escape cs
      let (s, rest) ← basicFrom fuel rest
      some (d :: s, rest)
    else if isText c then do
      let (s, rest) ← basicFrom fuel cs
      some (c :: s, rest)
    else none

/-- Reads a string without escapes on one line up to its closing quote. -/
def literalFrom : List Char → Option (List Char × List Char)
  | [] => none
  | c :: cs =>
    if c = '\'' then some ([], cs)
    else if isText c then do
      let (s, rest) ← literalFrom cs
      some (c :: s, rest)
    else none

/-- Drops a line end right after opening quotes. -/
def dropFirstBreak : List Char → List Char
  | '\n' :: cs => cs
  | '\r' :: '\n' :: cs => cs
  | cs => cs

/-- Drops the blanks and line ends after a backslash at the end of a line. -/
def dropBlanks : List Char → List Char
  | '\n' :: cs => dropBlanks cs
  | '\r' :: '\n' :: cs => dropBlanks cs
  | c :: cs => if isSpace c then dropBlanks cs else c :: cs
  | [] => []

/-- True of a text whose first line holds blanks only and has an end. -/
def blankToLineEnd : List Char → Bool
  | '\n' :: _ => true
  | '\r' :: '\n' :: _ => true
  | c :: cs => isSpace c && blankToLineEnd cs
  | [] => false

/-- Reads a run of quotes in a string of several lines, of which `count` have been seen: three
close the string, and up to two right before those belong to it. The result is the quotes that
belong to the string, and whether it is closed. -/
def quoteRun (count : Nat) : Option (Nat × Bool) :=
  if count < 3 then some (count, false)
  else if count ≤ 5 then some (count - 3, true)
  else none

/-- Reads a string of several lines up to its closing quotes. -/
def multilineFrom (quote : Char) (escapes : Bool) :
    (fuel : Nat) → List Char → Option (List Char × List Char)
  | 0, _ => none
  | _, [] => none
  | fuel + 1, c :: cs =>
    if c = quote then do
      let run := (c :: cs).takeWhile (· = quote)
      let rest := (c :: cs).dropWhile (· = quote)
      let (inside, closed) ← quoteRun run.length
      if closed then some (List.replicate inside quote, rest)
      else do
        let (s, rest) ← multilineFrom quote escapes fuel rest
        some (List.replicate inside quote ++ s, rest)
    else if c = '\\' && escapes then
      if blankToLineEnd cs then multilineFrom quote escapes fuel (dropBlanks cs)
      else do
        let (d, rest) ← escape cs
        let (s, rest) ← multilineFrom quote escapes fuel rest
        some (d :: s, rest)
    else
      match c, cs with
      | '\r', '\n' :: cs => do
        let (s, rest) ← multilineFrom quote escapes fuel cs
        some ('\r' :: '\n' :: s, rest)
      | c, cs =>
        if c = '\n' || isText c then do
          let (s, rest) ← multilineFrom quote escapes fuel cs
          some (c :: s, rest)
        else none

/-- Reads a string, with its quotes. -/
def string : Reader String := taking fun cs => do
  let fuel := cs.length + 1
  let (s, rest) ← match cs with
    | '"' :: '"' :: '"' :: cs => multilineFrom '"' true fuel (dropFirstBreak cs)
    | '\'' :: '\'' :: '\'' :: cs => multilineFrom '\'' false fuel (dropFirstBreak cs)
    | '"' :: cs => basicFrom fuel cs
    | '\'' :: cs => literalFrom cs
    | _ => none
  some (String.ofList s, rest)

/-! ## Keys -/

def keyPart : Reader String := taking fun cs =>
  match cs with
  | '"' :: rest => (basicFrom (rest.length + 1) rest).map fun r => (String.ofList r.1, r.2)
  | '\'' :: rest => (literalFrom rest).map fun r => (String.ofList r.1, r.2)
  | _ =>
    let name := cs.takeWhile isBare
    if name.isEmpty then none else some (String.ofList name, cs.dropWhile isBare)

/-- Reads the parts of a key after `first`; each stands behind a dot. -/
def keyFrom : (fuel : Nat) → (first : String) → Reader Key
  | 0, _ => failure
  | fuel + 1, first => do
    spaces
    if (← peek) = some '.' then do
      expect '.'
      spaces
      let next ← keyPart
      let key ← keyFrom fuel next
      return ⟨first :: key.path, key.last⟩
    else return ⟨[], first⟩

def Key.isOverlong (k : Key) : Bool := maxParts ≤ k.path.length

/-- Reads a key, and the blanks after it. -/
def key : Reader Key := do
  let first ← keyPart
  let k ← keyFrom ((← get).rest.length + 1) first
  modify fun c => { c with overlong := c.overlong || k.isOverlong }
  return k

end Shorthand.Toml
