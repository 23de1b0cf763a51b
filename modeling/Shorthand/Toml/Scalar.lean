import Shorthand.Toml.Reader

/-!
# TOML numbers, truth values and dates

Values without quotes and brackets. Such a value is a run of letters, digits and a few signs; the
whole run must have one of the forms. A date may be followed by one blank and a time.
-/

namespace Shorthand.Toml

/-! ## Digits -/

/-- Digits of which any two may have an underscore between them, without the underscores. -/
def digitRun? (isDigit : Char → Bool) (cs : List Char) : Option (List Char) :=
  let pieces := cs.splitOn '_'
  if pieces.all fun p => !p.isEmpty && p.all isDigit then some pieces.flatten else none

def ofDigits (base : Nat) (cs : List Char) : Nat :=
  cs.foldl (fun n c => n * base + (hexDigit? c).getD 0) 0

def isDigitOf (base : Nat) (c : Char) : Bool := (hexDigit? c).any (· < base)

/-- Decimal digits without a zero in front of others. -/
def wholeRun? (cs : List Char) : Option (List Char) :=
  match cs with
  | '0' :: _ :: _ => none
  | _ => digitRun? Char.isDigit cs

/-- The sign of a number (true for minus) and what follows it. -/
def splitSign : List Char → Bool × List Char
  | '+' :: cs => (false, cs)
  | '-' :: cs => (true, cs)
  | cs => (false, cs)

/-! ## Numbers -/

/-- True of the integers that 128 bits can hold, with a sign or without. -/
def isRepresentable (n : Int) : Bool :=
  -Int.ofNat (Nat.pow 2 127) ≤ n && n < Int.ofNat (Nat.pow 2 128)

def Value.ofInt (n : Int) : Value := if isRepresentable n then .integer n else .noNumber

/-- An integer in a base other than ten; its digits may be missing, but then it is no number. -/
def basedInteger? (base : Nat) (cs : List Char) : Option Value :=
  if cs.isEmpty then some .noNumber
  else (digitRun? (isDigitOf base) cs).map fun ds => .ofInt (ofDigits base ds)

def integer? (cs : List Char) : Option Value :=
  match cs with
  | '0' :: 'x' :: ds => basedInteger? 16 ds
  | '0' :: 'o' :: ds => basedInteger? 8 ds
  | '0' :: 'b' :: ds => basedInteger? 2 ds
  | _ =>
    let (minus, ds) := splitSign cs
    (wholeRun? ds).map fun ds =>
      .ofInt (if minus then -(ofDigits 10 ds : Int) else ofDigits 10 ds)

def isRunChar (c : Char) : Bool := c.isDigit || c == '_'

/-- The exponent of a number, with its mark. -/
def exponent? : List Char → Option Int
  | [] => some 0
  | mark :: cs =>
    if mark = 'e' || mark = 'E' then
      let (minus, ds) := splitSign cs
      (digitRun? Char.isDigit ds).map fun ds =>
        if minus then -(ofDigits 10 ds : Int) else ofDigits 10 ds
    else none

/-- The digits after the point, with the point, and what follows them. -/
def fraction? : List Char → Option (List Char × List Char)
  | '.' :: cs =>
    (digitRun? Char.isDigit (cs.takeWhile isRunChar)).map fun ds => (ds, cs.dropWhile isRunChar)
  | cs => some ([], cs)

/-- A number with a point or an exponent. -/
def decimal? (minus : Bool) (cs : List Char) : Option Value := do
  let whole ← wholeRun? (cs.takeWhile isRunChar)
  let rest := cs.dropWhile isRunChar
  if rest.isEmpty then none
  let (fraction, rest) ← fraction? rest
  let e ← exponent? rest
  let x := Binary64.ofDecimal minus (ofDigits 10 (whole ++ fraction)) (e - fraction.length)
  some (if x.isInfinite then .noNumber else .float x)

def float? (cs : List Char) : Option Value :=
  let (minus, ds) := splitSign cs
  if ds = "inf".toList then some (.float (.infinite minus))
  else if ds = "nan".toList then some (.float .notANumber)
  else decimal? minus ds

/-! ## Dates and times -/

/-- Reads `count` decimal digits. -/
def digits? (count : Nat) (cs : List Char) : Option (Nat × List Char) :=
  let ds := cs.take count
  if ds.length = count && ds.all Char.isDigit then some (ofDigits 10 ds, cs.drop count) else none

def after? (c : Char) : List Char → Option (List Char)
  | d :: cs => if d = c then some cs else none
  | [] => none

def daysIn (year month : Nat) : Nat :=
  if month = 2 then
    if year % 4 = 0 && (year % 100 ≠ 0 || year % 400 = 0) then 29 else 28
  else if month = 4 || month = 6 || month = 9 || month = 11 then 30
  else 31

def date? (cs : List Char) : Option (List Char) := do
  let (year, cs) ← digits? 4 cs
  let cs ← after? '-' cs
  let (month, cs) ← digits? 2 cs
  let cs ← after? '-' cs
  let (day, cs) ← digits? 2 cs
  if 1 ≤ month && month ≤ 12 && 1 ≤ day && day ≤ daysIn year month then some cs else none

/-- Passes over a fraction of a second, if there is one. -/
def secondFraction? : List Char → Option (List Char)
  | '.' :: cs =>
    if (cs.takeWhile Char.isDigit).isEmpty then none else some (cs.dropWhile Char.isDigit)
  | cs => some cs

/-- Passes over seconds, if there are any. A minute may have a sixty-first second. -/
def seconds? : List Char → Option (List Char)
  | ':' :: cs => do
    let (second, cs) ← digits? 2 cs
    if second ≤ 60 then secondFraction? cs else none
  | cs => some cs

/-- Passes over hours and minutes. -/
def clock? (cs : List Char) : Option (List Char) := do
  let (hour, cs) ← digits? 2 cs
  let cs ← after? ':' cs
  let (minute, cs) ← digits? 2 cs
  if hour ≤ 23 && minute ≤ 59 then some cs else none

def time? (cs : List Char) : Option (List Char) := do
  let cs ← clock? cs
  seconds? cs

/-- Passes over the offset of a time, if there is one. -/
def offset? : List Char → Option (List Char)
  | [] => some []
  | c :: cs =>
    if c = 'Z' || c = 'z' then some cs
    else if c = '+' || c = '-' then clock? cs
    else none

def isDate (cs : List Char) : Bool := date? cs == some []

/-- True of a date, a time of day, or a date with a time. -/
def isDateTime (cs : List Char) : Bool :=
  match date? cs with
  | some [] => true
  | some (c :: cs) =>
    (c == 'T' || c == 't' || c == ' ') && ((time? cs).bind offset? == some [])
  | none => time? cs == some []

/-! ## Scalars -/

/-- The value of a run. -/
def scalar? (cs : List Char) : Option Value :=
  if cs = "true".toList then some (.boolean true)
  else if cs = "false".toList then some (.boolean false)
  else if isDateTime cs then some (.dateTime (String.ofList cs))
  else (integer? cs).or (float? cs)

/-- True of the characters of a run. -/
def isScalarChar (c : Char) : Bool :=
  c.isAlphanum || c == '_' || c == '+' || c == '-' || c == '.' || c == ':'

/-- The run at the start of a text; a date goes on after a blank with the time behind it. -/
def scalarRun (cs : List Char) : List Char × List Char :=
  let run := cs.takeWhile isScalarChar
  match cs.dropWhile isScalarChar with
  | ' ' :: d :: rest =>
    if isDate run && d.isDigit then
      (run ++ ' ' :: (d :: rest).takeWhile isScalarChar, (d :: rest).dropWhile isScalarChar)
    else (run, ' ' :: d :: rest)
  | rest => (run, rest)

/-- Reads a value without quotes and brackets. -/
def scalar : Reader Value := taking fun cs =>
  let (run, rest) := scalarRun cs
  (scalar? run).map (·, rest)

end Shorthand.Toml
