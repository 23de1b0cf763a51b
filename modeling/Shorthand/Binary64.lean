/-!
# 64-bit binary floating point numbers

Numbers `m · 2 ^ q` with `m < 2 ^ 53` and `-1074 ≤ q ≤ 971`, with signed zeros and infinities and
one not-a-number. A rational number is rounded to the nearest of them, and of two equally near
ones to the one with an even `m`. Products and quotients are the rounded exact results.
-/

namespace Shorthand

/-- A 64-bit binary floating point number. -/
inductive Binary64 where
  /-- The number `± mantissa · 2 ^ exponent`. -/
  | finite (negative : Bool) (mantissa : Nat) (exponent : Int)
  | infinite (negative : Bool)
  | notANumber
  deriving DecidableEq, Repr

namespace Binary64

/-! ## Rounding -/

/-- The quotient rounded to the nearest natural number, halves to the even one. -/
def roundDiv (num den : Nat) : Nat :=
  let q := num / den
  let r := num % den
  if 2 * r < den then q
  else if den < 2 * r then q + 1
  else q + q % 2

/-- The numerator and the denominator of `(num / den) / 2 ^ q`. -/
def scaleDown (num den : Nat) (q : Int) : Nat × Nat :=
  (num * Nat.pow 2 (-q).toNat, den * Nat.pow 2 q.toNat)

/-- The exponent `q` for which the quotient divided by `2 ^ q` has 53 binary digits before the
point, or the least exponent there is. -/
def exponentFor (num den : Nat) : Int :=
  let guess : Int := (num.log2 : Int) - (den.log2 : Int) - 53
  let (n, d) := scaleDown num den guess
  max (if Nat.pow 2 53 ≤ n / d then guess + 1 else guess) (-1074)

/-- The number nearest to `num / den`; `den` is positive. -/
def ofRatio (negative : Bool) (num den : Nat) : Binary64 :=
  if num = 0 then .finite negative 0 0
  else
    let q := exponentFor num den
    let (n, d) := scaleDown num den q
    let m := roundDiv n d
    if m = Nat.pow 2 53 then
      if q + 1 ≤ 971 then .finite negative (Nat.pow 2 52) (q + 1) else .infinite negative
    else if q ≤ 971 then .finite negative m q
    else .infinite negative

/-- The number nearest to a natural number. -/
def ofNat (n : Nat) : Binary64 := ofRatio false n 1

/-- The number nearest to `digits · 10 ^ exponent`. Beyond `10 ^ 309`, and below `10 ^ -324`, no
arithmetic is needed. -/
def ofDecimal (negative : Bool) (digits : Nat) (exponent : Int) : Binary64 :=
  let point : Int := (Nat.toDigits 10 digits).length + exponent
  if digits = 0 || point < -323 then .finite negative 0 0
  else if 309 < point then .infinite negative
  else ofRatio negative (digits * Nat.pow 10 exponent.toNat) (Nat.pow 10 (-exponent).toNat)

/-! ## Arithmetic on magnitudes -/

def isNegative : Binary64 → Bool
  | .finite s _ _ => s
  | .infinite s => s
  | .notANumber => false

/-- True of both zeros. -/
def isZero : Binary64 → Bool
  | .finite _ m _ => m == 0
  | _ => false

def isInfinite : Binary64 → Bool
  | .infinite _ => true
  | _ => false

def withSign (negative : Bool) : Binary64 → Binary64
  | .finite _ m q => .finite negative m q
  | .infinite _ => .infinite negative
  | .notANumber => .notANumber

/-- The rounded product of two finite numbers. -/
def mul : Binary64 → Binary64 → Binary64
  | .finite s m q, .finite t n r =>
    ofRatio (s != t) (m * n * Nat.pow 2 (q + r).toNat) (Nat.pow 2 (-(q + r)).toNat)
  | x, y => if x.isZero || y.isZero then .notANumber else .infinite (x.isNegative != y.isNegative)

/-- The rounded quotient of two finite numbers, the second of them not zero. -/
def div : Binary64 → Binary64 → Binary64
  | .finite s m q, .finite t n r =>
    ofRatio (s != t) (m * Nat.pow 2 (q - r).toNat) (n * Nat.pow 2 (r - q).toNat)
  | x, .finite t _ _ => if x.isInfinite then .infinite (x.isNegative != t) else .notANumber
  | .finite s _ _, .infinite t => .finite (s != t) 0 0
  | _, _ => .notANumber

end Binary64

end Shorthand
