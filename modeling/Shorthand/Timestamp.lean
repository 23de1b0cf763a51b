/-!
# Points in time as text

A point in time counts nanoseconds from the start of 1970, and is written by date and time of day in
UTC. A fraction of a second takes three, six or nine digits, as few as say it exactly.

    text 0 = "1970-01-01T00:00:00+00:00"
    text 1_500_000_000 = "1970-01-01T00:00:01.500+00:00"
-/

namespace Shorthand.Timestamp

/-! ## Dates -/

structure Date where
  year : Nat
  month : Nat
  day : Nat
  deriving DecidableEq, Repr

/-- Whether February has 29 days. -/
def isLeap (year : Nat) : Bool := year % 4 == 0 && (year % 100 != 0 || year % 400 == 0)

def monthLengths (year : Nat) : List Nat :=
  [31, if isLeap year then 29 else 28, 31, 30, 31, 30, 31, 31, 30, 31, 30, 31]

def yearLength (year : Nat) : Nat := (monthLengths year).foldl (· + ·) 0

/-- The month and the day of a day in months of given lengths, of which the first has the number
`month`. -/
def inMonths (month : Nat) : List Nat → (days : Nat) → Nat × Nat
  | [], days => (month, days + 1)
  | n :: ns, days => if days < n then (month, days + 1) else inMonths (month + 1) ns (days - n)

/-- The date of a day counted from the start of a year; `fuel` bounds the years that may pass. -/
def dateFrom (year : Nat) : (fuel days : Nat) → Date
  | 0, days => ⟨year, 1, days + 1⟩
  | fuel + 1, days =>
    if days < yearLength year then
      let (month, day) := inMonths 1 (monthLengths year) days
      ⟨year, month, day⟩
    else dateFrom (year + 1) fuel (days - yearLength year)

/-- The date of a day counted from the start of 1970. A year passes at most every 365 days. -/
def dateOf (days : Nat) : Date := dateFrom 1970 (days / 365 + 1) days

/-! ## Text -/

/-- A number with zeros in front up to a width. -/
def padded (width n : Nat) : String :=
  String.ofList ((Nat.toDigits 10 n).leftpad width '0')

def fraction (nanoseconds : Nat) : String :=
  if nanoseconds = 0 then ""
  else if nanoseconds % 1000000 = 0 then "." ++ padded 3 (nanoseconds / 1000000)
  else if nanoseconds % 1000 = 0 then "." ++ padded 6 (nanoseconds / 1000)
  else "." ++ padded 9 nanoseconds

def text (nanoseconds : Nat) : String :=
  let seconds := nanoseconds / 1000000000
  let date := dateOf (seconds / 86400)
  padded 4 date.year ++ "-" ++ padded 2 date.month ++ "-" ++ padded 2 date.day ++ "T" ++
    padded 2 (seconds / 3600 % 24) ++ ":" ++ padded 2 (seconds / 60 % 60) ++ ":" ++
    padded 2 (seconds % 60) ++ fraction (nanoseconds % 1000000000) ++ "+00:00"

end Shorthand.Timestamp
