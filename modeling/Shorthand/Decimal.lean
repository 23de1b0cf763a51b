import Shorthand.Binary64

/-!
# The shortest decimal of a floating point number

Every finite number is the rounded value of many decimals. `shortest` gives one with the fewest
digits, and of those the nearest to the number. A `Layout` says how the digits are set out.

    layout.text (± d₁d₂…dₙ · 10 ^ e)   with a point, or with an exponent
-/

namespace Shorthand

/-- A decimal `digits · 10 ^ exponent`. -/
structure Decimal where
  digits : Nat
  exponent : Int
  deriving DecidableEq, Repr

namespace Decimal

/-! ## The fewest digits -/

structure Fraction where
  num : Nat
  den : Nat

/-- `x ≤ y`. -/
def Fraction.le (x y : Fraction) : Bool := x.num * y.den ≤ y.num * x.den

/-- `x < y`. -/
def Fraction.lt (x y : Fraction) : Bool := x.num * y.den < y.num * x.den

/-- `n · 2 ^ q` as a fraction. -/
def Fraction.ofBinary (n : Nat) (q : Int) : Fraction :=
  ⟨n * Nat.pow 2 q.toNat, Nat.pow 2 (-q).toNat⟩

/-- `n · 10 ^ e` as a fraction. -/
def Fraction.ofDecimal (n : Nat) (e : Int) : Fraction :=
  ⟨n * Nat.pow 10 e.toNat, Nat.pow 10 (-e).toNat⟩

/-- The numbers that round to a given one: those between `low` and `high`, with the ends where
the mantissa is even. -/
structure Interval where
  low : Fraction
  high : Fraction
  closed : Bool

/-- The numbers that round to `m · 2 ^ q`. Below a power of two the next number is half as far. -/
def roundingInterval (m : Nat) (q : Int) : Interval where
  low := if m = Nat.pow 2 52 && -1074 < q then .ofBinary (4 * m - 1) (q - 2)
    else .ofBinary (2 * m - 1) (q - 1)
  high := .ofBinary (2 * m + 1) (q - 1)
  closed := m % 2 = 0

def Interval.has (i : Interval) (x : Fraction) : Bool :=
  if i.closed then i.low.le x && x.le i.high else i.low.lt x && x.lt i.high

/-- The least `p` with `x < 10 ^ p`, for a positive `x`, found by counting digits. -/
def magnitude (x : Fraction) : Int :=
  let guess : Int := ((Nat.toDigits 10 x.num).length : Int) - ((Nat.toDigits 10 x.den).length : Int)
  if x.lt (.ofDecimal 1 guess) then guess else guess + 1

/-- Of two neighbours `n` and `n + 1` on the grid of `10 ^ e`, the one nearer to `x`; a tie goes
to the even one. -/
def nearer (x : Fraction) (n : Nat) (e : Int) : Nat :=
  let middle := Fraction.ofDecimal (10 * n + 5) (e - 1)
  if x.lt middle then n
  else if middle.lt x then n + 1
  else n + n % 2

/-- A decimal with `count` digits that rounds to the number, if there is one: the neighbours of
the number on the grid are tried. -/
def withDigits? (x : Fraction) (i : Interval) (p : Int) (count : Nat) : Option Decimal :=
  let e := p - count
  let unit := Fraction.ofDecimal 1 e
  let n := x.num * unit.den / (x.den * unit.num)
  let below := 0 < n && i.has (.ofDecimal n e)
  let above := i.has (.ofDecimal (n + 1) e)
  if below && above then some ⟨nearer x n e, e⟩
  else if below then some ⟨n, e⟩
  else if above then some ⟨n + 1, e⟩
  else none

/-- Takes the zeros off the end of the digits. -/
def dropZeros : (fuel : Nat) → Decimal → Decimal
  | 0, d => d
  | fuel + 1, d =>
    if d.digits ≠ 0 && d.digits % 10 = 0 then dropZeros fuel ⟨d.digits / 10, d.exponent + 1⟩ else d

/-- The nearest of the shortest decimals that round to `m · 2 ^ q`. Seventeen digits always do. -/
def shortest (m : Nat) (q : Int) : Decimal :=
  if m = 0 then ⟨0, 0⟩
  else
    let x := Fraction.ofBinary m q
    let i := roundingInterval m q
    let p := magnitude x
    match (List.range 17).findSome? fun k => withDigits? x i p (k + 1) with
    | some d => dropZeros 20 d
    | none => ⟨m * Nat.pow 2 q.toNat, 0⟩

/-! ## Layout -/

/-- How a number is written: whether its point may stand after `p` digits, counted from the first
digit that is not zero, is for `positional`; other numbers get an exponent. -/
structure Layout where
  positional : (p : Int) → Bool

/-- All digits, however many zeros that takes. -/
def Layout.plain : Layout := ⟨fun _ => true⟩

/-- A point among the first sixteen digits or up to four zeros after it, else an exponent. -/
def Layout.compact : Layout := ⟨fun p => -5 < p && p ≤ 16⟩

/-- Digits with a point, which always has a digit on both sides. -/
def positionalChars (d : Decimal) : List Char :=
  let ds := Nat.toDigits 10 d.digits
  let p : Int := ds.length + d.exponent
  if p ≤ 0 then '0' :: '.' :: List.replicate (-p).toNat '0' ++ ds
  else if (ds.length : Int) ≤ p then
    ds ++ List.replicate (p - ds.length).toNat '0' ++ ['.', '0']
  else ds.take p.toNat ++ '.' :: ds.drop p.toNat

/-- Digits with an exponent, which always has a sign: the point, where one is needed, stands after
the first digit. -/
def scientificChars (d : Decimal) : List Char :=
  let ds := Nat.toDigits 10 d.digits
  let e : Int := ds.length + d.exponent - 1
  let sign := if e < 0 then '-' else '+'
  ds.take 1 ++ (if ds.length ≤ 1 then [] else '.' :: ds.drop 1) ++
    'e' :: sign :: Nat.toDigits 10 e.natAbs

def Layout.chars (l : Layout) (d : Decimal) : List Char :=
  let p : Int := (Nat.toDigits 10 d.digits).length + d.exponent
  if d.digits = 0 || l.positional p then positionalChars d else scientificChars d

def Layout.text (l : Layout) : Binary64 → String
  | .finite negative m q =>
    String.ofList ((if negative then ['-'] else []) ++ l.chars (shortest m q))
  | .infinite negative => if negative then "-inf" else "inf"
  | .notANumber => "NaN"

end Decimal

end Shorthand
