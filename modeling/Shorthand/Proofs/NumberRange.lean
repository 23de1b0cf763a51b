import Mathlib.Algebra.Order.Field.Power
import Mathlib.Algebra.Order.Field.Rat
import Mathlib.Tactic.Linarith
import Mathlib.Tactic.NormNum
import Mathlib.Tactic.Positivity
import Mathlib.Tactic.Ring
import Shorthand.Json.Number

/-!
# The range of numbers

The reader of a numeral takes its leading digits for an integer and multiplies that with a power of
ten, rounding three times.  Each of the first two steps makes the number larger by one part in
`2 ^ 53` at most, and the product is infinite only from half a step above the largest number on.  So
a numeral up to the third largest number has a value:

    |n| ≤ (2 ^ 53 - 3) · 2 ^ 971  →  n.value = .ok x                            (exists_value)

For the two largest numbers this depends on how they are written.
-/

namespace Shorthand

namespace Binary64

/-! ## Rounding -/

/-- A rounded quotient is too large by one half at most. -/
theorem two_mul_roundDiv_le (num den : Nat) : 2 * (roundDiv num den * den) ≤ 2 * num + den := by
  have hdiv := Nat.div_add_mod' num den
  unfold roundDiv
  dsimp only
  split
  · omega
  split
  · rw [Nat.add_mul, Nat.one_mul]
    omega
  · have hodd : num / den % 2 * den ≤ 1 * den := Nat.mul_le_mul_right den (by omega)
    rw [Nat.add_mul]
    omega

theorem scaleDown_natCast (num den q : Nat) : scaleDown num den q = (num, den * 2 ^ q) := by
  simp [scaleDown]

/-- Divided by the power of two that is chosen for it, a quotient has 53 binary digits at least. -/
theorem le_of_exponentFor {num den : Nat} (hnum : num ≠ 0) (hden : 0 < den) {q : Nat}
    (hq : exponentFor num den = q) (hpos : 1 ≤ q) : 2 ^ 52 * (den * 2 ^ q) ≤ num := by
  have hlow : 2 ^ num.log2 ≤ num := Nat.log2_self_le hnum
  have hhigh : den ≤ 2 ^ (den.log2 + 1) := Nat.le_of_lt Nat.lt_log2_self
  unfold exponentFor at hq
  dsimp only at hq
  obtain ⟨g, hg⟩ : ∃ g : Nat, (num.log2 : Int) - den.log2 - 53 = g := by
    split at hq
    · exact ⟨q - 1, by omega⟩
    · exact ⟨q, by omega⟩
  rw [hg, scaleDown_natCast] at hq
  dsimp only at hq
  split at hq
  · rename_i hlarge
    have hqg : q = g + 1 := by omega
    have hmul : 2 ^ 53 * (den * 2 ^ g) ≤ num :=
      (Nat.le_div_iff_mul_le (by positivity)).mp hlarge
    calc 2 ^ 52 * (den * 2 ^ q) = 2 ^ 53 * (den * 2 ^ g) := by rw [hqg]; ring
      _ ≤ num := hmul
  · have hqg : q = g := by omega
    have hexp : num.log2 = 52 + (den.log2 + 1) + g := by omega
    calc 2 ^ 52 * (den * 2 ^ q) ≤ 2 ^ 52 * (2 ^ (den.log2 + 1) * 2 ^ q) := by gcongr
      _ = 2 ^ num.log2 := by rw [hexp, hqg]; ring
      _ ≤ num := hlow

/-- From where on a number is infinite: half a step above the largest one, which is
`(2 ^ 53 - 1) · 2 ^ 971`. -/
def infinity : Nat := (2 ^ 54 - 1) * 2 ^ 970

/-- Only what is at least as large as `infinity` becomes infinite. -/
theorem infinity_le {negative : Bool} {num den : Nat} (hden : 0 < den)
    (h : (ofRatio negative num den).isInfinite = true) : infinity * den ≤ num := by
  unfold ofRatio at h
  split at h
  · cases h
  rename_i hnum
  generalize hq : exponentFor num den = q at h
  dsimp only at h
  obtain ⟨e, he⟩ : ∃ e, e = 970 := ⟨970, rfl⟩
  -- only exponents from 971 on give an infinite number
  obtain ⟨k, rfl⟩ : ∃ k : Nat, q = (e + 1 + k : Nat) := by
    refine ⟨(q - 971).toNat, ?_⟩
    split at h
    · split at h
      · cases h
      · omega
    · split at h
      · cases h
      · omega
  have hfits := le_of_exponentFor hnum hden hq (by omega)
  rw [scaleDown_natCast] at h
  dsimp only at h
  unfold infinity
  rw [Nat.mul_assoc, ← he]
  cases k with
  | zero =>
    split at h
    · rename_i hm
      have hround := two_mul_roundDiv_le num (den * 2 ^ (e + 1 + 0))
      have hpow : den * 2 ^ (e + 1 + 0) = 2 * (2 ^ e * den) := by ring
      rw [hm, hpow, Nat.pow_eq] at hround
      omega
    · rw [if_pos (by omega)] at h
      cases h
  | succ k =>
    have hk : 1 * (2 ^ e * den) ≤ 2 ^ k * (2 ^ e * den) :=
      Nat.mul_le_mul_right _ Nat.one_le_two_pow
    have hpow : den * 2 ^ (e + 1 + (k + 1)) = 4 * (2 ^ k * (2 ^ e * den)) := by ring
    rw [hpow] at hfits
    omega

/-! ## Magnitudes -/

/-- The magnitude of a finite number. -/
def magnitude (mantissa : Nat) (exponent : Int) : ℚ := mantissa * 2 ^ exponent

theorem magnitude_nonneg (m : Nat) (q : Int) : 0 ≤ magnitude m q := by
  unfold magnitude
  positivity

/-- A number that is not infinite is what rounding gives. -/
theorem ofRatio_eq {negative : Bool} {num den : Nat} (hnum : num ≠ 0) {q : Int}
    (hq : exponentFor num den = q) {m : Nat}
    (hm : roundDiv (scaleDown num den q).1 (scaleDown num den q).2 = m)
    (h : (ofRatio negative num den).isInfinite = false) :
    ∃ m' q', ofRatio negative num den = .finite negative m' q' ∧
      magnitude m' q' = magnitude m q := by
  unfold ofRatio at h ⊢
  rw [if_neg hnum] at h ⊢
  dsimp only at h ⊢
  rw [hq] at h ⊢
  rw [hm] at h ⊢
  split at h
  · rename_i hround
    rw [if_pos hround]
    split at h
    · rename_i hle
      refine ⟨Nat.pow 2 52, q + 1, if_pos hle, ?_⟩
      rw [hround, magnitude, magnitude, zpow_add₀ two_ne_zero]
      norm_num
      ring
    · cases h
  · rename_i hround
    rw [if_neg hround]
    split at h
    · rename_i hle
      exact ⟨m, q, if_pos hle, rfl⟩
    · cases h

/-- A natural number is rounded to a finite number that is hardly larger. -/
theorem ofNat_eq {n : Nat} (hn : n < infinity) :
    ∃ m q, ofNat n = .finite false m q ∧ magnitude m q ≤ n * (1 + 1 / 2 ^ 53) := by
  by_cases hzero : n = 0
  · subst hzero
    exact ⟨0, 0, rfl, by simp [magnitude]⟩
  have hfinite : (ofRatio false n 1).isInfinite = false := by
    rw [← Bool.not_eq_true]
    intro hinf
    have := infinity_le Nat.one_pos hinf
    omega
  obtain ⟨m, q, hofRatio, hvalue⟩ := ofRatio_eq hzero rfl rfl hfinite
  refine ⟨m, q, hofRatio, ?_⟩
  rw [hvalue]
  generalize hq : exponentFor n 1 = q
  by_cases hpos : 1 ≤ q
  · -- the rounding is half a step at most, and the number has 53 digits before the point
    obtain ⟨k, rfl⟩ : ∃ k : Nat, q = k := ⟨q.toNat, by omega⟩
    have hfits := le_of_exponentFor hzero Nat.one_pos hq (by omega)
    have hround := two_mul_roundDiv_le n (1 * 2 ^ k)
    rw [scaleDown_natCast, magnitude, zpow_natCast]
    generalize roundDiv n (1 * 2 ^ k) = m at hround
    have hhalf : 2 * ((m : ℚ) * 2 ^ k) ≤ 2 * n + 2 ^ k := by
      rw [Nat.one_mul] at hround
      exact_mod_cast hround
    have hlarge : (2 : ℚ) ^ 52 * 2 ^ k ≤ n := by
      rw [Nat.one_mul] at hfits
      exact_mod_cast hfits
    linarith
  · -- nothing is rounded
    have hexact : roundDiv (scaleDown n 1 q).1 (scaleDown n 1 q).2 = n * 2 ^ (-q).toNat := by
      have hzero : q.toNat = 0 := Int.toNat_of_nonpos (by omega)
      simp [scaleDown, roundDiv, hzero, Nat.mod_one]
    have hpow : (2 : ℚ) ^ (-q).toNat * 2 ^ q = 1 := by
      rw [← zpow_natCast, ← zpow_add₀ two_ne_zero, Int.toNat_of_nonneg (by omega), neg_add_cancel,
        zpow_zero]
    have hn : (0 : ℚ) ≤ n := Nat.cast_nonneg n
    rw [hexact, magnitude, Nat.cast_mul, Nat.cast_pow, Nat.cast_ofNat, mul_assoc, hpow, mul_one]
    linarith

/-- A product is finite where it is less than `infinity`. -/
theorem isInfinite_mul {s t : Bool} {m n : Nat} {q r : Int}
    (h : magnitude m q * magnitude n r < infinity) :
    ((finite s m q).mul (finite t n r)).isInfinite = false := by
  rw [← Bool.not_eq_true]
  intro hinf
  have hle := infinity_le (Nat.pow_pos (by decide)) hinf
  have hpow : (2 : ℚ) ^ (q + r) * 2 ^ (-(q + r)).toNat = 2 ^ (q + r).toNat := by
    rw [← zpow_natCast, ← zpow_natCast, ← zpow_add₀ two_ne_zero]
    congr 1
    omega
  have hcast : (infinity : ℚ) * 2 ^ (-(q + r)).toNat ≤ m * n * 2 ^ (q + r).toNat := by
    exact_mod_cast hle
  have hproduct : magnitude m q * magnitude n r = m * n * 2 ^ (q + r) := by
    rw [magnitude, magnitude, zpow_add₀ two_ne_zero]
    ring
  rw [← hpow, ← mul_assoc, ← hproduct] at hcast
  exact absurd (le_of_mul_le_mul_right hcast (by positivity)) (not_le.mpr h)

end Binary64

namespace Json

/-! ## Digits -/

/-- What digits denote that come behind a number. -/
def goOn (n : Nat) (ds : List Nat) : Nat := ds.foldl (fun n d => n * 10 + d) n

theorem le_goOn (n : Nat) (ds : List Nat) : n * 10 ^ ds.length ≤ goOn n ds := by
  induction ds generalizing n with
  | nil => simp [goOn]
  | cons d ds ih =>
    have := ih (n * 10 + d)
    have hmono : n * 10 * 10 ^ ds.length ≤ (n * 10 + d) * 10 ^ ds.length :=
      Nat.mul_le_mul_right _ (Nat.le_add_right _ _)
    rw [List.length_cons, Nat.pow_succ, Nat.mul_comm _ 10, ← Nat.mul_assoc]
    exact hmono.trans this

/-- The magnitude of a significand with its power of ten. -/
def Scaled.magnitude (s : Scaled) : ℚ := s.significand * 10 ^ s.exponent

/-- Digits before the point are taken as they are, or there are more of them than fit. -/
theorem scaleWhole_le (ds : List Nat) (n : Nat) :
    scaleWhole ds n = ⟨goOn n ds, 0⟩ ∨
      (scaleWhole ds n).magnitude ≤ goOn n ds ∧
        (maxWord : ℚ) * 10 ^ ((scaleWhole ds n).exponent - 1) ≤ goOn n ds := by
  induction ds generalizing n with
  | nil => exact .inl rfl
  | cons d ds ih =>
    rw [scaleWhole]
    split
    · exact ih (n * 10 + d)
    · rename_i hlarge
      have hdigit := le_goOn (n * 10 + d) ds
      refine .inr ⟨?_, ?_⟩
      · have hall := le_goOn n (d :: ds)
        rw [Scaled.magnitude, zpow_natCast]
        exact_mod_cast hall
      · have hword : maxWord * 10 ^ ds.length ≤ (n * 10 + d) * 10 ^ ds.length :=
          Nat.mul_le_mul_right _ (by omega)
        have hexp : ((ds.length + 1 : Nat) : Int) - 1 = ds.length := by omega
        rw [hexp, zpow_natCast]
        exact_mod_cast hword.trans hdigit

/-- Digits after the point never make more of a number than they denote. -/
theorem scaleFraction_le (ds : List Nat) (s : Scaled) :
    (scaleFraction ds s).magnitude ≤ goOn s.significand ds * 10 ^ (s.exponent - ds.length) := by
  induction ds generalizing s with
  | nil => simp [scaleFraction, Scaled.magnitude, goOn]
  | cons d ds ih =>
    have hexp : s.exponent - (d :: ds).length = s.exponent - 1 - ds.length := by
      rw [List.length_cons]
      omega
    rw [scaleFraction]
    split
    · rw [hexp]
      exact ih ⟨s.significand * 10 + d, s.exponent - 1⟩
    · have hall : (s.significand : ℚ) * 10 ^ (d :: ds).length ≤ goOn s.significand (d :: ds) := by
        exact_mod_cast le_goOn s.significand (d :: ds)
      have hpow : (10 : ℚ) ^ s.exponent =
          10 ^ (d :: ds).length * 10 ^ (s.exponent - (d :: ds).length) := by
        rw [← zpow_natCast, ← zpow_add₀ (by norm_num), add_sub_cancel]
      rw [Scaled.magnitude, hpow, ← mul_assoc]
      gcongr

/-- Nor do they where a digit before the point was left out. -/
theorem scaleFraction_le_of_large (ds : List Nat) {s : Scaled} {x : ℚ} (hs : s.magnitude ≤ x)
    (hlarge : (maxWord : ℚ) * 10 ^ (s.exponent - 1) ≤ x) :
    (scaleFraction ds s).magnitude ≤ x := by
  induction ds generalizing s with
  | nil => exact hs
  | cons d ds ih =>
    rw [scaleFraction]
    split
    · rename_i hfits
      have hword : ((s.significand * 10 + d : Nat) : ℚ) ≤ maxWord := by exact_mod_cast hfits
      refine ih ?_ ?_
      · refine le_trans ?_ hlarge
        rw [Scaled.magnitude]
        gcongr
      · refine le_trans ?_ hlarge
        gcongr
        · norm_num
        · exact sub_le_self _ zero_le_one
    · exact hs

/-! ## Numerals -/

/-- The power of ten that the exponent of a numeral stands for. -/
def Numeral.shift (n : Numeral) : Int :=
  match n.exponent with
  | none => 0
  | some (minus, ds) => if minus then -(ofDigits ds : Int) else ofDigits ds

/-- The magnitude of a numeral. -/
def Numeral.magnitude (n : Numeral) : ℚ :=
  ofDigits (n.whole ++ n.fraction) * 10 ^ (n.shift - n.fraction.length)

/-- What is taken for a numeral without its exponent is no more than its digits denote. -/
theorem Numeral.scaled_le (n : Numeral) :
    (scaleFraction n.fraction (scaleWhole n.whole 0)).magnitude ≤
      ofDigits (n.whole ++ n.fraction) * 10 ^ (-(n.fraction.length : Int)) := by
  have hdigits : ofDigits (n.whole ++ n.fraction) = goOn (goOn 0 n.whole) n.fraction := by
    rw [ofDigits, List.foldl_append]
    rfl
  rw [hdigits]
  rcases scaleWhole_le n.whole 0 with hwhole | ⟨hle, hlarge⟩
  · rw [hwhole]
    have := scaleFraction_le n.fraction ⟨goOn 0 n.whole, 0⟩
    rwa [zero_sub] at this
  · refine le_trans (scaleFraction_le_of_large n.fraction hle hlarge) ?_
    have hall : (goOn 0 n.whole : ℚ) * 10 ^ n.fraction.length ≤
        goOn (goOn 0 n.whole) n.fraction := by exact_mod_cast le_goOn _ _
    rw [zpow_neg, zpow_natCast, ← div_eq_mul_inv, le_div_iff₀ (by positivity)]
    exact hall

/-! ## Powers of ten -/

/-- The third largest number. -/
def thirdLargest : Nat := (2 ^ 53 - 3) * 2 ^ 971

theorem scaleBy_of_neg (x : Binary64) (fuel : Nat) {e : Int} (he : e < 0) :
    ∃ y, scaleBy x fuel e = .ok y := by
  induction fuel generalizing x e with
  | zero => exact ⟨x, rfl⟩
  | succ fuel ih =>
    rw [scaleBy]
    split
    · dsimp only
      rw [if_neg (by omega)]
      exact ⟨_, rfl⟩
    · rename_i hpower
      split
      · exact ⟨x, rfl⟩
      · rw [if_neg (by omega)]
        exact ih _ (by unfold maxPower at hpower ⊢; omega)

theorem ofDecimal_one {k : Nat} (hk : k ≤ maxPower) :
    Binary64.ofDecimal false 1 k = Binary64.ofNat (10 ^ k) := by
  have hlength : (Nat.toDigits 10 1).length = 1 := by decide
  unfold maxPower at hk
  unfold Binary64.ofDecimal Binary64.ofNat
  dsimp only
  rw [hlength, if_neg (by simp; omega), if_neg (by omega)]
  simp

/-- Rounding twice does not lead from the third largest number to infinity. -/
theorem thirdLargest_lt : (thirdLargest : ℚ) * (1 + 1 / 2 ^ 53) ^ 2 < Binary64.infinity := by
  have hthird : thirdLargest = (2 ^ 54 - 6) * 2 ^ 970 := by decide +kernel
  have hpos : (0 : ℚ) < 2 ^ 970 := by positivity
  have hsmall : ((2 ^ 54 - 6 : ℕ) : ℚ) * (1 + 1 / 2 ^ 53) ^ 2 < (2 ^ 54 - 1 : ℕ) := by norm_num
  rw [hthird, Binary64.infinity, Nat.cast_mul, Nat.cast_mul, Nat.cast_pow, Nat.cast_ofNat]
  calc ((2 ^ 54 - 6 : ℕ) : ℚ) * 2 ^ 970 * (1 + 1 / 2 ^ 53) ^ 2
      = ((2 ^ 54 - 6 : ℕ) : ℚ) * (1 + 1 / 2 ^ 53) ^ 2 * 2 ^ 970 := mul_right_comm _ _ _
    _ < (2 ^ 54 - 1 : ℕ) * 2 ^ 970 := mul_lt_mul_of_pos_right hsmall hpos

theorem thirdLargest_lt_infinity : thirdLargest < Binary64.infinity := by decide +kernel

/-- Up to the third largest number no product is infinite. -/
theorem scaleBy_ofNat {n : Nat} {e : Int} (h : (n : ℚ) * 10 ^ e ≤ thirdLargest) (fuel : Nat) :
    ∃ y, scaleBy (Binary64.ofNat n) fuel e = .ok y := by
  by_cases hneg : e < 0
  · exact scaleBy_of_neg _ fuel hneg
  obtain ⟨k, rfl⟩ : ∃ k : Nat, e = k := ⟨e.toNat, by omega⟩
  have hnat : n * 10 ^ k ≤ thirdLargest := by
    rw [zpow_natCast] at h
    exact_mod_cast h
  cases fuel with
  | zero => exact ⟨_, rfl⟩
  | succ fuel =>
    rw [scaleBy, Int.natAbs_natCast]
    split
    · rename_i hpower
      have hn : n < Binary64.infinity := by
        have := Nat.le_mul_of_pos_right n (Nat.pow_pos (n := k) (by decide : 0 < 10))
        have := thirdLargest_lt_infinity
        omega
      have hten : 10 ^ k < Binary64.infinity := by
        have hmono : 10 ^ k ≤ 10 ^ maxPower := Nat.pow_le_pow_right (by decide) hpower
        have : 10 ^ maxPower < Binary64.infinity := by decide +kernel
        omega
      obtain ⟨m, q, hofNat, hm⟩ := Binary64.ofNat_eq hn
      obtain ⟨m', q', hpow, hm'⟩ := Binary64.ofNat_eq hten
      have hproduct : Binary64.magnitude m q * Binary64.magnitude m' q' < Binary64.infinity := by
        refine lt_of_le_of_lt ?_ thirdLargest_lt
        calc Binary64.magnitude m q * Binary64.magnitude m' q'
            ≤ (n * (1 + 1 / 2 ^ 53)) * ((10 ^ k : ℕ) * (1 + 1 / 2 ^ 53)) :=
              mul_le_mul hm hm' (Binary64.magnitude_nonneg m' q')
                (mul_nonneg (Nat.cast_nonneg n) (by norm_num))
          _ = (n * 10 ^ k : ℕ) * (1 + 1 / 2 ^ 53) ^ 2 := by
              push_cast
              ring
          _ ≤ thirdLargest * (1 + 1 / 2 ^ 53) ^ 2 :=
              mul_le_mul_of_nonneg_right (by exact_mod_cast hnat) (sq_nonneg _)
      dsimp only
      rw [if_pos (Int.natCast_nonneg k), ofDecimal_one hpower, hofNat, hpow,
        Binary64.isInfinite_mul hproduct]
      exact ⟨_, rfl⟩
    · rename_i hpower
      -- a power this large leaves only zero
      have hzero : n = 0 := by
        by_contra hn
        have hmono : 10 ^ (maxPower + 1) ≤ 10 ^ k := Nat.pow_le_pow_right (by decide) (by omega)
        have hn : 1 * 10 ^ k ≤ n * 10 ^ k := Nat.mul_le_mul_right _ (by omega)
        have hsmall : thirdLargest < 10 ^ (maxPower + 1) := by decide +kernel
        omega
      have hisZero : (Binary64.ofNat 0).isZero = true := rfl
      rw [hzero, if_pos hisZero]
      exact ⟨_, rfl⟩

/-- **Numbers in range.**  A numeral up to the third largest number has a value. -/
theorem Numeral.exists_value {n : Numeral}
    (hexponent : ∀ e ∈ n.exponent, ofDigits e.2 ≤ maxExponent) (h : n.magnitude ≤ thirdLargest) :
    ∃ x, n.value = .ok x := by
  have hvalue : ∃ y, Scaled.value n.negative
      ⟨(scaleFraction n.fraction (scaleWhole n.whole 0)).significand,
        (scaleFraction n.fraction (scaleWhole n.whole 0)).exponent + n.shift⟩ = .ok y := by
    have hscaled := n.scaled_le
    generalize scaleFraction n.fraction (scaleWhole n.whole 0) = s at hscaled ⊢
    have hle : (s.significand : ℚ) * 10 ^ (s.exponent + n.shift) ≤ thirdLargest := by
      refine le_trans ?_ h
      rw [Scaled.magnitude] at hscaled
      rw [magnitude, zpow_add₀ (by norm_num), sub_eq_add_neg, zpow_add₀ (by norm_num), ← mul_assoc,
        mul_comm ((10 : ℚ) ^ n.shift), ← mul_assoc]
      gcongr
    obtain ⟨y, hy⟩ := scaleBy_ofNat hle 8
    exact ⟨y.withSign n.negative, by rw [Scaled.value, hy]; rfl⟩
  obtain ⟨y, hy⟩ := hvalue
  unfold value
  dsimp only
  split
  · split
    · exact ⟨_, rfl⟩
    split
    · exact ⟨_, rfl⟩
    · exact ⟨_, rfl⟩
  · unfold shift at hy
    cases hexp : n.exponent with
    | none =>
      rw [hexp] at hy
      dsimp only at hy ⊢
      rw [add_zero] at hy
      exact ⟨.float y, by rw [hy]; rfl⟩
    | some e =>
      obtain ⟨minus, ds⟩ := e
      have hsmall := hexponent (minus, ds) hexp
      rw [hexp] at hy
      dsimp only at hy ⊢
      rw [if_neg (Nat.not_lt.mpr hsmall), hy]
      exact ⟨.float y, rfl⟩

end Json

end Shorthand
