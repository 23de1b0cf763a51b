import Mathlib.Data.List.Forall2
import Shorthand.Json.Number
import Shorthand.Proofs.JsonBrackets

/-!
# Numbers of JSON

A numeral is a sign, digits of which a zero comes first only where it stands alone, a fraction and
an exponent (`NumeralText`).  It is read to its end, since nothing that may follow a value can go on
with it:

    numeral (t ++ rest) = (n, rest)        where t writes n and a value may end before rest
                                                                               (readsValue_numeral)
-/

namespace Shorthand.Json

open Text.Utf8 (encode encode_append encode_cons encodeChar_ascii)

/-! ## Grammar -/

/-- The decimal digit of a number below ten. -/
def Digit (n : Nat) (c : Char) : Prop := "0123456789".toList[n]? = some c

/-- Decimal digits. -/
def Digits (ds : List Nat) (t : List Char) : Prop := List.Forall₂ Digit ds t

instance (n : Nat) (c : Char) : Decidable (Digit n c) :=
  inferInstanceAs (Decidable ("0123456789".toList[n]? = some c))

instance (ds : List Nat) (t : List Char) : Decidable (Digits ds t) :=
  inferInstanceAs (Decidable (List.Forall₂ Digit ds t))

/-- Digits before the point. -/
inductive WholeText : List Nat → List Char → Prop
  | zero : WholeText [0] ['0']
  | digits {d : Nat} {ds : List Nat} {t : List Char} (first : d ≠ 0) (h : Digits (d :: ds) t) :
      WholeText (d :: ds) t

/-- A point and the digits after it, or nothing. -/
inductive FractionText : List Nat → List Char → Prop
  | absent : FractionText [] []
  | present {ds : List Nat} {t : List Char} (filled : ds ≠ []) (h : Digits ds t) :
      FractionText ds ('.' :: t)

/-- The sign of an exponent; true for minus. -/
inductive SignText : Bool → List Char → Prop
  | absent : SignText false []
  | plus : SignText false ['+']
  | minus : SignText true ['-']

/-- An exponent with its mark, or nothing. -/
inductive ExponentText : Option (Bool × List Nat) → List Char → Prop
  | absent : ExponentText none []
  | present {mark : Char} {minus : Bool} {ds : List Nat} {sign t : List Char}
      (mark_mem : mark = 'e' ∨ mark = 'E') (hsign : SignText minus sign) (filled : ds ≠ [])
      (h : Digits ds t) : ExponentText (some (minus, ds)) (mark :: (sign ++ t))

/-- The text of a numeral. -/
inductive NumeralText : Numeral → List Char → Prop
  | parts {negative : Bool} {whole fraction : List Nat} {exponent : Option (Bool × List Nat)}
      {w f e : List Char} (hw : WholeText whole w) (hf : FractionText fraction f)
      (he : ExponentText exponent e) :
      NumeralText ⟨negative, whole, fraction, exponent⟩
        ((if negative then ['-'] else []) ++ (w ++ (f ++ e)))

/-! ## Digits -/

theorem digit?_of_digit {n : Nat} {c : Char} (h : Digit n c) :
    isMark c = true ∧ digit? c.toNat.toUInt8 = some n ∧ c.isDigit = true := by
  have hall : ∀ n < 10, ("0123456789".toList[n]?.all fun c =>
      isMark c && digit? c.toNat.toUInt8 == some n && c.isDigit) = true := by decide
  have hn : n < 10 := (List.getElem?_eq_some_iff.mp h).1
  have hc := hall n hn
  rw [h] at hc
  simpa [and_assoc] using hc

/-- The octets do not start with a character of the class. -/
def Stops (p : Char → Bool) (bs : List UInt8) : Prop := ∀ b ∈ bs.head?, p (charOf b) = false

theorem stops_cons {p : Char → Bool} {c : Char} (hc : isMark c = true) (hp : p c = false)
    (t : List Char) (rest : List UInt8) : Stops p (encode (c :: t) ++ rest) := by
  intro b hb
  rw [encode_mark hc] at hb
  cases hb
  rwa [charOf_toUInt8 (isMark_iff.mp hc).1]

theorem forall_octet {P : UInt8 → Prop} (h : ∀ n < 256, P n.toUInt8) (b : UInt8) : P b := by
  have hb : b.toNat.toUInt8 = b := by simp
  rw [← hb]
  exact h b.toNat b.toNat_lt

theorem isSome_digit? (b : UInt8) : (digit? b).isSome = (charOf b).isDigit :=
  forall_octet (P := fun b => (digit? b).isSome = (charOf b).isDigit) (by decide +kernel) b

/-- True of the characters that a number can go on with. -/
def goesOn (c : Char) : Bool := c.isDigit || c == '.' || c == 'e' || c == 'E'

/-- What may follow a value does not go on with a number. -/
theorem Ends.stops {rest : List UInt8} (h : Ends rest) : Stops goesOn rest := by
  have hall : ∀ b : UInt8, isSpace b = true ∨ charOf b ∈ closers → goesOn (charOf b) = false :=
    forall_octet (by decide +kernel)
  exact fun b hb => hall b (h b hb)

theorem Stops.mono {p q : Char → Bool} {bs : List UInt8} (h : Stops p bs)
    (hpq : ∀ c, p c = false → q c = false) : Stops q bs := fun b hb => hpq _ (h b hb)

/-- Digits are read as far as they go. -/
theorem digits_text {ds : List Nat} {t : List Char} (h : Digits ds t) {rest : List UInt8}
    (hrest : Stops Char.isDigit rest) : digits (encode t ++ rest) = .ok (ds, rest) := by
  have htake : (encode t ++ rest).takeWhile (fun b => (digit? b).isSome) = encode t ∧
      (encode t).filterMap digit? = ds := by
    induction h with
    | nil =>
      refine ⟨?_, rfl⟩
      cases rest with
      | nil => rfl
      | cons b bs =>
        have hb : (digit? b).isSome = false := by
          rw [isSome_digit?]
          exact hrest b rfl
        show (b :: bs).takeWhile _ = []
        rw [List.takeWhile_cons, hb]
        rfl
    | @cons n c ds t hd _ ih =>
      obtain ⟨hmark, hdigit, -⟩ := digit?_of_digit hd
      have hone : encode (c :: t) = c.toNat.toUInt8 :: encode t := by
        have := encode_mark hmark t []
        rwa [List.append_nil, List.append_nil] at this
      rw [hone, List.cons_append, List.takeWhile_cons, List.filterMap_cons, hdigit]
      simp [ih.1, ih.2]
  unfold digits
  simp only [htake.1, htake.2, List.drop_left]

/-- A reader of digits reads them, of which there is one at least. -/
theorem someDigits_text (atEnd : Fault) {ds : List Nat} (hds : ds ≠ []) {t : List Char}
    (h : Digits ds t) {rest : List UInt8} (hrest : Stops Char.isDigit rest) :
    someDigits atEnd (encode t ++ rest) = .ok (ds, rest) := by
  unfold someDigits
  rw [bind_ok (digits_text h hrest), if_neg (by simpa using hds)]
  rfl

/-! ## Parts of a numeral -/

theorem peek_cons {c : Char} (hc : isMark c = true) (t : List Char) (rest : List UInt8) :
    peek (encode (c :: t) ++ rest) = .ok (some c, encode (c :: t) ++ rest) := by
  rw [encode_mark hc]
  show Except.ok (some (charOf c.toNat.toUInt8), _) = _
  rw [charOf_toUInt8 (isMark_iff.mp hc).1]

theorem wholeDigits_text (atEnd : Fault) {ds : List Nat} {t : List Char} (h : WholeText ds t)
    {rest : List UInt8} (hrest : Stops Char.isDigit rest) :
    wholeDigits atEnd (encode t ++ rest) = .ok (ds, rest) := by
  unfold wholeDigits
  cases h with
  | zero =>
    rw [bind_ok (peek_cons (by decide) [] rest)]
    show (advance >>= fun _ => digits >>= fun more => _) _ = _
    rw [bind_ok (advance_mark (by decide) [] rest), bind_ok (digits_text .nil hrest)]
    rfl
  | @digits d ds _ hfirst h =>
    cases h with
    | @cons _ c _ t hd htail =>
      obtain ⟨hmark, hdigit, -⟩ := digit?_of_digit hd
      have hc : c ≠ '0' := by
        rintro rfl
        exact hfirst (Option.some.inj (hdigit.symm.trans (by decide)))
      rw [bind_ok (peek_cons hmark t rest)]
      generalize hnext : some c = next
      split
      · exact absurd (Option.some.inj hnext) hc
      · exact someDigits_text atEnd (List.cons_ne_nil d ds) (.cons hd htail) hrest

/-- Octets that do not start with a mark. -/
theorem peek_of_stops {p : Char → Bool} {rest : List UInt8} (h : Stops p rest) :
    ∃ c?, peek rest = .ok (c?, rest) ∧ ∀ c ∈ c?, p c = false := by
  refine ⟨rest.head?.map charOf, rfl, fun c hc => ?_⟩
  obtain ⟨b, hb, rfl⟩ := Option.map_eq_some_iff.mp hc
  exact h b hb

theorem fractionDigits_text (atEnd : Fault) {ds : List Nat} {t : List Char}
    (h : FractionText ds t) {rest : List UInt8}
    (hrest : Stops (fun c => c.isDigit || c == '.') rest) :
    fractionDigits atEnd (encode t ++ rest) = .ok (ds, rest) := by
  unfold fractionDigits
  cases h with
  | absent =>
    obtain ⟨c?, hpeek, hc⟩ := peek_of_stops hrest
    show (peek >>= _) rest = _
    rw [bind_ok hpeek]
    split
    · exact absurd (hc '.' rfl) (by decide)
    · rfl
  | @present _ t hds h =>
    rw [bind_ok (peek_cons (by decide) t rest)]
    show (advance >>= fun _ => someDigits atEnd) _ = _
    rw [bind_ok (advance_mark (by decide) t rest)]
    exact someDigits_text atEnd hds h (hrest.mono fun c hc => by
      rw [Bool.or_eq_false_iff] at hc
      exact hc.1)

/-- The first digit of a number is no sign and no point. -/
theorem Digit.ne {n : Nat} {c d : Char} (h : Digit n c) (hd : d.isDigit = false) : c ≠ d := by
  rintro rfl
  rw [(digit?_of_digit h).2.2] at hd
  cases hd

theorem exponentDigits_text (atEnd : Fault) {e : Option (Bool × List Nat)} {t : List Char}
    (h : ExponentText e t) {rest : List UInt8} (hrest : Stops goesOn rest) :
    exponentDigits atEnd (encode t ++ rest) = .ok (e, rest) := by
  unfold exponentDigits
  cases h with
  | absent =>
    obtain ⟨c?, hpeek, hc⟩ := peek_of_stops hrest
    show (peek >>= _) rest = _
    rw [bind_ok hpeek]
    have hmark : ¬ (c? = some 'e' || c? = some 'E') = true := by
      rw [Bool.or_eq_true, decide_eq_true_eq, decide_eq_true_eq]
      rintro (rfl | rfl)
      · exact absurd (hc 'e' rfl) (by decide)
      · exact absurd (hc 'E' rfl) (by decide)
    rw [if_neg hmark]
    rfl
  | @present mark minus ds sign t hmark hsign hds h =>
    have hdigits := someDigits_text atEnd hds h (hrest.mono fun c hc => by
      simp only [goesOn, Bool.or_eq_false_iff] at hc
      exact hc.1.1.1)
    have hm : isMark mark = true := by rcases hmark with rfl | rfl <;> decide
    rw [bind_ok (peek_cons hm _ rest), if_pos (by rcases hmark with rfl | rfl <;> decide),
      bind_ok (advance_mark hm _ rest)]
    cases hsign with
    | absent =>
      cases h with
      | nil => exact absurd rfl hds
      | @cons n c ns cs hd _ =>
        have hplus := hd.ne (d := '+') (by decide)
        have hminus := hd.ne (d := '-') (by decide)
        rw [List.nil_append, bind_ok (peek_cons (digit?_of_digit hd).1 cs rest)]
        dsimp only
        rw [if_neg (by simp [hplus, hminus]), bind_ok hdigits]
        simp [hminus]
        rfl
    | plus =>
      rw [List.singleton_append, bind_ok (peek_cons (by decide) t rest)]
      dsimp only
      rw [if_pos (by decide), bind_ok (advance_mark (by decide) t rest), bind_ok hdigits]
      rfl
    | minus =>
      rw [List.singleton_append, bind_ok (peek_cons (by decide) t rest)]
      dsimp only
      rw [if_pos (by decide), bind_ok (advance_mark (by decide) t rest), bind_ok hdigits]
      rfl

/-! ## Numerals -/

section
variable {p : Char → Bool} {rest : List UInt8} (hrest : Stops p rest)
include hrest

theorem FractionText.stops {ds : List Nat} {t : List Char} (h : FractionText ds t)
    (hpoint : p '.' = false) : Stops p (encode t ++ rest) := by
  cases h with
  | absent => exact hrest
  | present => exact stops_cons (by decide) hpoint _ rest

theorem ExponentText.stops {e : Option (Bool × List Nat)} {t : List Char} (h : ExponentText e t)
    (hsmall : p 'e' = false) (hlarge : p 'E' = false) : Stops p (encode t ++ rest) := by
  cases h with
  | absent => exact hrest
  | present hmark =>
    rcases hmark with rfl | rfl
    · exact stops_cons (by decide) hsmall _ rest
    · exact stops_cons (by decide) hlarge _ rest

end

/-- Digits before the point start with a digit. -/
theorem WholeText.head {ds : List Nat} {t : List Char} (h : WholeText ds t) :
    ∃ n c u, t = c :: u ∧ Digit n c := by
  cases h with
  | zero => exact ⟨0, '0', [], rfl, rfl⟩
  | digits _ h =>
    cases h with
    | cons hd _ => exact ⟨_, _, _, rfl, hd⟩

/-- A numeral is read to its end. -/
theorem readsValue_numeral (atEnd : Fault) {n : Numeral} {t : List Char} (h : NumeralText n t) :
    ReadsValue (numeral atEnd) t n := by
  intro rest hrest
  have hstops := hrest.stops
  obtain @⟨negative, whole, fraction, exponent, w, f, e, hw, hf, he⟩ := h
  have hnarrow : ∀ c, goesOn c = false → (c.isDigit || c == '.') = false := by
    intro c hc
    simp only [goesOn, Bool.or_eq_false_iff] at hc ⊢
    exact hc.1.1
  have hdigit : ∀ c : Char, (c.isDigit || c == '.') = false → c.isDigit = false := by
    intro c hc
    rw [Bool.or_eq_false_iff] at hc
    exact hc.1
  -- each part ends where the next begins
  have hafter := he.stops (hstops.mono hnarrow) (by decide) (by decide)
  have hexponent := exponentDigits_text atEnd he hstops
  have hfraction := fractionDigits_text atEnd hf hafter
  have hwhole := wholeDigits_text atEnd hw (hf.stops (hafter.mono hdigit) (by decide))
  obtain ⟨d, c, u, hcu, hd⟩ := hw.head
  have hbody : encode (w ++ (f ++ e)) ++ rest = encode w ++ (encode f ++ (encode e ++ rest)) := by
    simp
  unfold numeral
  cases negative with
  | false =>
    have hpeek : peek (encode (w ++ (f ++ e)) ++ rest) =
        .ok (some c, encode (w ++ (f ++ e)) ++ rest) := by
      rw [hcu]
      exact peek_cons (digit?_of_digit hd).1 _ rest
    have hminus : some c ≠ some '-' := fun he => hd.ne (by decide) (Option.some.inj he)
    rw [if_neg Bool.false_ne_true, List.nil_append, bind_ok hpeek]
    dsimp only
    rw [if_neg hminus, hbody, bind_ok hwhole, bind_ok hfraction, bind_ok hexponent]
    simp [hminus]
    rfl
  | true =>
    rw [if_pos rfl, List.singleton_append, bind_ok (peek_cons (by decide) _ rest)]
    dsimp only
    rw [if_pos rfl, bind_ok (advance_mark (by decide) _ rest), hbody, bind_ok hwhole,
      bind_ok hfraction, bind_ok hexponent]
    rfl

/-- A numeral that denotes a number is read as that number. -/
theorem readsValue_number {n : Numeral} {x : Number} {t : List Char} (h : NumeralText n t)
    (hx : n.value = .ok x) : ReadsValue number t x := by
  intro rest hrest
  unfold number
  rw [bind_ok (readsValue_numeral _ h rest hrest), hx]
  rfl

/-- A numeral starts with a mark that starts nothing else. -/
theorem NumeralText.head {n : Numeral} {t : List Char} (h : NumeralText n t) :
    ∃ c u, t = c :: u ∧ isMark c = true ∧ (c = '-' || c.isDigit) = true := by
  obtain @⟨negative, whole, fraction, exponent, w, f, e, hw, hf, he⟩ := h
  cases negative with
  | false =>
    obtain ⟨d, c, u, rfl, hd⟩ := hw.head
    obtain ⟨hmark, -, hdigit⟩ := digit?_of_digit hd
    exact ⟨c, _, rfl, hmark, by rw [hdigit, Bool.or_true]⟩
  | true => exact ⟨'-', _, rfl, by decide, by decide⟩

end Shorthand.Json
