import Shorthand.Json.Reader

/-!
# Numbers of JSON

A numeral is read first and valued afterwards. An integer that 64 bits hold stays one; every other
numeral becomes a floating point number: as many of its leading digits as 64 bits hold are taken
as an integer, and that is multiplied with, or divided by, a power of ten, rounding at each step.
-/

namespace Shorthand.Json

inductive Number where
  | integer (n : Int)
  | float (x : Binary64)
  deriving DecidableEq, Repr

/-- A number as its digits were written. -/
structure Numeral where
  negative : Bool
  whole : List Nat
  fraction : List Nat
  /-- The sign (true for minus) and the digits of the exponent. -/
  exponent : Option (Bool × List Nat)
  deriving DecidableEq, Repr

/-! ## Reading -/

def digit? (b : UInt8) : Option Nat :=
  if 0x30 ≤ b.toNat && b.toNat ≤ 0x39 then some (b.toNat - 0x30) else none

def digits : Reader (List Nat) := fun bs =>
  let ds := bs.takeWhile fun b => (digit? b).isSome
  .ok (ds.filterMap digit?, bs.drop ds.length)

/-- Reads digits, of which there is at least one; `atEnd` is the fault where the text ends. -/
def someDigits (atEnd : Fault) : Reader (List Nat) := do
  let ds ← digits
  if ds.isEmpty then
    match ← peek with
    | none => throw atEnd
    | some _ => throw .badNumber
  else return ds

/-- Reads the digits before the point: a zero stands alone. -/
def wholeDigits (atEnd : Fault) : Reader (List Nat) := do
  match ← peek with
  | some '0' => do
    advance
    let more ← digits
    if more.isEmpty then return [0] else throw .badNumber
  | _ => someDigits atEnd

/-- Reads the point and the digits after it, if there is a point. -/
def fractionDigits (atEnd : Fault) : Reader (List Nat) := do
  match ← peek with
  | some '.' => do
    advance
    someDigits atEnd
  | _ => return []

/-- Reads an exponent, if there is one. -/
def exponentDigits (atEnd : Fault) : Reader (Option (Bool × List Nat)) := do
  let mark ← peek
  if mark = some 'e' || mark = some 'E' then do
    advance
    let sign ← peek
    if sign = some '+' || sign = some '-' then advance
    return some (sign = some '-', ← someDigits atEnd)
  else return none

/-- Reads a numeral; `atEnd` is the fault where the text ends too soon. -/
def numeral (atEnd : Fault) : Reader Numeral := do
  let negative := (← peek) = some '-'
  if negative then advance
  let whole ← wholeDigits atEnd
  let fraction ← fractionDigits atEnd
  return { negative, whole, fraction, exponent := ← exponentDigits atEnd }

/-! ## Valuing -/

/-- The largest integer of 64 bits without a sign. -/
def maxWord : Nat := Nat.pow 2 64 - 1

def ofDigits (ds : List Nat) : Nat := ds.foldl (fun n d => n * 10 + d) 0

/-- A significand and the power of ten it is to be multiplied with. -/
structure Scaled where
  significand : Nat
  exponent : Int

/-- Takes digits before the point: from the first that does not fit on they only count. -/
def scaleWhole : List Nat → (significand : Nat) → Scaled
  | [], n => ⟨n, 0⟩
  | d :: ds, n =>
    if n * 10 + d ≤ maxWord then scaleWhole ds (n * 10 + d) else ⟨n, (ds.length + 1 : Nat)⟩

/-- Takes digits after the point: from the first that does not fit on they are dropped. -/
def scaleFraction : List Nat → Scaled → Scaled
  | [], s => s
  | d :: ds, s =>
    if s.significand * 10 + d ≤ maxWord then
      scaleFraction ds ⟨s.significand * 10 + d, s.exponent - 1⟩
    else s

/-- The largest power of ten that is used as one factor. -/
def maxPower : Nat := 308

/-- Multiplies with a power of ten. Exponents below `-maxPower` are reached in several divisions,
of which each allowed by `fuel`; three make every significand zero. -/
def scaleBy (x : Binary64) : (fuel : Nat) → (exponent : Int) → Except Fault Binary64
  | 0, _ => .ok x
  | fuel + 1, e =>
    if e.natAbs ≤ maxPower then
      let power := Binary64.ofDecimal false 1 e.natAbs
      if 0 ≤ e then
        let product := x.mul power
        if product.isInfinite then .error .numberOutOfRange else .ok product
      else .ok (x.div power)
    else if x.isZero then .ok x
    else if 0 ≤ e then .error .numberOutOfRange
    else scaleBy (x.div (Binary64.ofDecimal false 1 maxPower)) fuel (e + maxPower)

/-- The floating point number of a significand and an exponent. -/
def Scaled.value (negative : Bool) (s : Scaled) : Except Fault Binary64 :=
  (scaleBy (Binary64.ofNat s.significand) 8 s.exponent).map (·.withSign negative)

/-- The largest exponent that is taken at its value. -/
def maxExponent : Nat := Nat.pow 2 31 - 1

def Numeral.value (n : Numeral) : Except Fault Number := do
  let whole := scaleWhole n.whole 0
  if n.fraction.isEmpty && n.exponent.isNone && whole.exponent = 0 then
    let m := whole.significand
    if !n.negative then .ok (.integer m)
    else if 0 < m && m ≤ Nat.pow 2 63 then .ok (.integer (-m))
    else .ok (.float ((Binary64.ofNat m).withSign true))
  else
    let scaled := scaleFraction n.fraction whole
    match n.exponent with
    | none => .float <$> scaled.value n.negative
    | some (minus, ds) =>
      let e := ofDigits ds
      if maxExponent < e then
        if scaled.significand ≠ 0 && !minus then .error .numberOutOfRange
        else .ok (.float (.finite n.negative 0 0))
      else
        let shift : Int := if minus then -e else e
        .float <$> Scaled.value n.negative ⟨scaled.significand, scaled.exponent + shift⟩

def number : Reader Number := do
  let n ← numeral .endOfValue
  match n.value with
  | .ok x => return x
  | .error f => throw f

def Number.found : Number → Schema.Found
  | .integer n => .integer n
  | .float x => .float x

end Shorthand.Json
