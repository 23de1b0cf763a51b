import Shorthand.Text.Utf8

/-!
# Control sequences of a terminal

A text that is meant for a terminal may hold sequences that the terminal obeys and does not show.
`withoutControls` gives what is shown: the sequences are left out, and so are single controls other
than white space.

    ESC [ … final          control sequence, ends with a character from @ to ~
    ESC ] … BEL            command, holds anything
    ESC P … ESC \          device control: parameters, then a string
    ESC X, ^ or _ … ESC \  string
    ESC … final            any other sequence, ends with a character from 0 to ~

An escape character begins a new sequence wherever it stands, and the controls 0x18 and 0x1A end
one.
-/

namespace Shorthand.Text.Terminal

/-- What a terminal is reading. -/
inductive Mode where
  /-- Text to be shown. -/
  | shown
  /-- An escape character has been read. -/
  | escape
  /-- A short sequence. -/
  | sequence
  /-- A control sequence. -/
  | control
  /-- A command. -/
  | command
  /-- Device control: nothing yet. -/
  | device
  /-- Device control: parameters. -/
  | deviceParameters
  /-- Device control: what stands between the parameters and the final character. -/
  | deviceIntermediates
  /-- A string. -/
  | string
  deriving DecidableEq, Repr

/-! ## Classes of characters -/

/-- True of a code point from `low` to `high`. -/
def within (c : Char) (low high : Nat) : Bool := low ≤ c.toNat && c.toNat ≤ high

/-- The control characters that show as white space. -/
def isWhite (c : Char) : Bool := c == '\t' || c == '\n' || c == '\x0c' || c == '\r'

/-- A character from the space to the slash. -/
def isIntermediate (c : Char) : Bool := within c 0x20 0x2F

/-- A digit or one of the signs up to the question mark. -/
def isParameter (c : Char) : Bool := within c 0x30 0x3F

/-- A character that ends a control sequence. -/
def isFinal (c : Char) : Bool := within c 0x40 0x7E

/-- A character outside ASCII whose octets hold the one that ends a string. -/
def endsString (c : Char) : Bool := (Utf8.encodeChar c).contains 0x9C

def isShown (c : Char) : Bool := isWhite c || within c 0x20 0x7E || 0x80 ≤ c.toNat

/-! ## Algorithm -/

/-- The mode in which an escape character and the character `c` put the terminal. -/
def Mode.opened (c : Char) : Mode :=
  if isIntermediate c then .sequence
  else if c = '[' then .control
  else if c = ']' then .command
  else if c = 'P' then .device
  else if c = 'X' || c = '^' || c = '_' then .string
  else if isParameter c || isFinal c then .shown
  else .escape

/-- The mode after a character that neither begins nor breaks off a sequence. -/
def Mode.inside (m : Mode) (c : Char) : Mode :=
  match m with
  | .shown => .shown
  | .escape => .opened c
  | .sequence => if isParameter c || isFinal c then .shown else .sequence
  | .control => if isFinal c then .shown else .control
  | .command => if c = '\x07' then .shown else .command
  | .device =>
    if isFinal c || c = ':' then .string
    else if isParameter c then .deviceParameters
    else if isIntermediate c then .deviceIntermediates
    else .device
  | .deviceParameters =>
    if isFinal c || c = ':' || within c 0x3C 0x3F then .string
    else if isIntermediate c then .deviceIntermediates
    else .deviceParameters
  | .deviceIntermediates =>
    if isFinal c || isParameter c then .string else .deviceIntermediates
  | .string => if endsString c then .shown else .string

/-- Whether white space is shown in the midst of what the terminal reads, which it then ends. -/
def Mode.brokenByWhite : Mode → Bool
  | .shown | .escape | .sequence | .control => true
  | .command | .device | .deviceParameters | .deviceIntermediates | .string => false

/-- Reads a character: the next mode, and whether the character is shown. -/
def Mode.step (m : Mode) (c : Char) : Mode × Bool :=
  if c = '\x1b' then (.escape, false)
  else if c = '\x18' || c = '\x1a' then (.shown, false)
  else if m.brokenByWhite && isWhite c then (.shown, true)
  else if m = .shown then (.shown, isShown c)
  else (m.inside c, false)

/-- The characters that are shown when a terminal in mode `m` reads a text. -/
def shownFrom (m : Mode) : List Char → List Char
  | [] => []
  | c :: cs =>
    let (next, seen) := m.step c
    if seen then c :: shownFrom next cs else shownFrom next cs

def withoutControls (cs : List Char) : List Char := shownFrom .shown cs

end Shorthand.Text.Terminal
