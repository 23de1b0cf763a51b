import Shorthand.Json.Printer
import Shorthand.Proofs.Octets
import Shorthand.Proofs.Spelling

/-!
# Strings of JSON

A character can be written in a string in several ways: as itself, as a short escape, as a number of
sixteen bits, or as a pair of such numbers (`Spelled`).  The reader takes all of them:

    string (u ++ ['"'] ++ rest) = (s, rest)        where u spells s                (reads_string)

A reader is said to read a text (`Reads`) when it takes that text off the front of whatever follows.
-/

namespace Shorthand.Json

open Text (HexDigit)
open Text.Utf8 (encode encodeChar encode_append encode_cons encodeChar_ascii)

/-! ## Grammar -/

/-- Blanks between the marks of a text. -/
def Blanks (ws : List Char) : Prop := ∀ c ∈ ws, c = ' ' ∨ c = '\n' ∨ c = '\t' ∨ c = '\r'

theorem blanks_nil : Blanks [] := fun _ h => (List.not_mem_nil h).elim

/-- The letters of short escapes, each with the character that it stands for. -/
def shortEscapes : List (Char × Char) :=
  [ ('"', '"'), ('\\', '\\'), ('/', '/'), ('b', '\x08'), ('f', '\x0C'), ('n', '\n'), ('r', '\r'),
    ('t', '\t') ]

/-- The escape of a number of sixteen bits. -/
inductive UnitEscape : Nat → List Char → Prop
  | digits {a b c d : Char} {i j k l : Nat} (ha : HexDigit i a) (hb : HexDigit j b)
      (hc : HexDigit k c) (hd : HexDigit l d) :
      UnitEscape (((i * 16 + j) * 16 + k) * 16 + l) ['\\', 'u', a, b, c, d]

/-- The ways to write a character in a string. -/
inductive Spelled : Char → List Char → Prop
  | plain {c : Char} (quote : c ≠ '"') (backslash : c ≠ '\\') (control : 0x20 ≤ c.toNat) :
      Spelled c [c]
  | short {letter c : Char} (h : (letter, c) ∈ shortEscapes) : Spelled c ['\\', letter]
  | unit {c : Char} {t : List Char} (h : UnitEscape c.toNat t) : Spelled c t
  | pair {c : Char} {n m : Nat} {t u : List Char} (leading : UnitEscape n t)
      (trailing : UnitEscape m u) (hn : 0xD800 ≤ n ∧ n ≤ 0xDBFF) (hm : 0xDC00 ≤ m ∧ m ≤ 0xDFFF)
      (h : c.toNat = (n - 0xD800) * 0x400 + (m - 0xDC00) + 0x10000) : Spelled c (t ++ u)

/-- The ways to write the characters of a string. -/
abbrev SpelledAll : List Char → List Char → Prop := Text.SpelledAll Spelled

/-- A string with its quotes. -/
abbrev StringText : String → List Char → Prop := Text.StringText Spelled

/-! ## Steps of a reader -/

/-- The reader takes the text off the front of whatever follows it, and gives `x`. -/
def Reads {α : Type} (r : Reader α) (text : List Char) (x : α) : Prop :=
  ∀ rest, r (encode text ++ rest) = .ok (x, rest)

section
variable {α β : Type}

theorem bind_ok {r : Reader α} {f : α → Reader β} {bs rest : List UInt8} {x : α}
    (h : r bs = .ok (x, rest)) : (r >>= f) bs = f x rest := by
  show (r bs).bind (fun p => f p.1 p.2) = _
  rw [h]
  rfl

/-- A reader that goes on with another one succeeds where both do. -/
theorem bind_eq_ok_iff {r : Reader α} {f : α → Reader β} {bs rest : List UInt8} {y : β} :
    (r >>= f) bs = .ok (y, rest) ↔ ∃ x mid, r bs = .ok (x, mid) ∧ f x mid = .ok (y, rest) := by
  constructor
  · intro h
    cases hr : r bs with
    | ok p => exact ⟨p.1, p.2, rfl, by rwa [bind_ok hr] at h⟩
    | error e =>
      have hstop : (r >>= f) bs = .error e := by
        show (r bs).bind (fun p => f p.1 p.2) = _
        rw [hr]
        rfl
      rw [hstop] at h
      cases h
  · rintro ⟨x, mid, hr, hf⟩
    rw [bind_ok hr]
    exact hf

/-- A reader that takes a text goes on behind it. -/
theorem Reads.bind_append {r : Reader α} {t : List Char} {x : α} (hr : Reads r t x)
    (f : α → Reader β) (u : List Char) (rest : List UInt8) :
    (r >>= f) (encode (t ++ u) ++ rest) = f x (encode u ++ rest) := by
  rw [encode_append, List.append_assoc]
  exact bind_ok (hr _)

theorem Reads.map {r : Reader α} {t : List Char} {x : α} (hr : Reads r t x) (f : α → β) :
    Reads (f <$> r) t (f x) := by
  intro rest
  show (r _).bind (fun p => .ok (f p.1, p.2)) = _
  rw [hr]
  rfl

end

/-- A character of ASCII that is no blank. -/
def isMark (c : Char) : Bool :=
  decide (c.toNat < 0x80) && !(c == ' ' || c == '\n' || c == '\t' || c == '\r')

theorem encode_mark {c : Char} (hc : isMark c = true) (t : List Char) (rest : List UInt8) :
    encode (c :: t) ++ rest = c.toNat.toUInt8 :: (encode t ++ rest) := by
  have hlt : c.toNat < 0x80 := by
    unfold isMark at hc
    simp at hc
    exact hc.1
  rw [encode_cons, encodeChar_ascii hlt]
  rfl

theorem charOf_toUInt8 {c : Char} (hc : c.toNat < 0x80) : charOf c.toNat.toUInt8 = c := by
  rw [charOf, Text.Utf8.toNat_toUInt8 (by omega), Char.ofNat_toNat]

theorem toNat_charOf (b : UInt8) : (charOf b).toNat = b.toNat := by
  have hb := b.toNat_lt
  rw [charOf, Char.ofNat, dif_pos (Or.inl (by omega))]
  rfl

theorem isSpace_toUInt8 {c : Char} (hc : c.toNat < 0x80) :
    isSpace c.toNat.toUInt8 = (c == ' ' || c == '\n' || c == '\t' || c == '\r') := by
  have h : ∀ k : UInt8, (c.toNat.toUInt8 == k) = (c.toNat == k.toNat) := by
    intro k
    rw [Bool.eq_iff_iff, beq_iff_eq, beq_iff_eq, Text.Utf8.toUInt8_eq (by omega)]
  have h' : ∀ d : Char, (c == d) = (c.toNat == d.toNat) := by
    intro d
    rw [Bool.eq_iff_iff, beq_iff_eq, beq_iff_eq, Char.toNat_inj]
  unfold isSpace
  rw [h, h, h, h, h', h', h', h']
  rfl


theorem isMark_iff {c : Char} :
    isMark c = true ↔ c.toNat < 0x80 ∧ isSpace c.toNat.toUInt8 = false := by
  by_cases hc : c.toNat < 0x80
  · rw [isSpace_toUInt8 hc]
    simp [isMark, hc]
  · simp [isMark, hc]

theorem dropWhile_blanks {ws : List Char} (hw : Blanks ws) (bs : List UInt8) :
    (encode ws ++ bs).dropWhile isSpace = bs.dropWhile isSpace := by
  induction ws with
  | nil => rfl
  | cons c ws ih =>
    have hc := hw c List.mem_cons_self
    have hlt : c.toNat < 0x80 := by rcases hc with rfl | rfl | rfl | rfl <;> decide
    have hs : isSpace c.toNat.toUInt8 = true := by
      rw [isSpace_toUInt8 hlt]
      simpa [or_assoc] using hc
    rw [encode_cons, encodeChar_ascii hlt]
    show (c.toNat.toUInt8 :: (encode ws ++ bs)).dropWhile isSpace = _
    rw [List.dropWhile_cons_of_pos hs]
    exact ih fun d hd => hw d (List.mem_cons_of_mem c hd)

/-- Behind blanks a reader sees the next mark. -/
theorem look_mark {ws : List Char} (hw : Blanks ws) {c : Char} (hc : isMark c = true)
    (t : List Char) (rest : List UInt8) :
    look (encode (ws ++ c :: t) ++ rest) = .ok (some c, encode (c :: t) ++ rest) := by
  obtain ⟨hlt, hs⟩ := isMark_iff.mp hc
  have hdrop : (encode (ws ++ c :: t) ++ rest).dropWhile isSpace = encode (c :: t) ++ rest := by
    rw [encode_append, List.append_assoc, dropWhile_blanks hw, encode_mark hc,
      List.dropWhile_cons_of_neg (by simp [hs])]
  have hskip : (modify fun bs => bs.dropWhile isSpace : Reader PUnit)
      (encode (ws ++ c :: t) ++ rest) = .ok (⟨⟩, encode (c :: t) ++ rest) :=
    congrArg (fun bs => Except.ok (PUnit.unit, bs)) hdrop
  unfold look
  rw [bind_ok hskip, encode_mark hc]
  show Except.ok (some (charOf c.toNat.toUInt8), _) = _
  rw [charOf_toUInt8 hlt]

theorem advance_mark {c : Char} (hc : isMark c = true) (t : List Char) (rest : List UInt8) :
    advance (encode (c :: t) ++ rest) = .ok ((), encode t ++ rest) := by
  rw [encode_mark hc]
  rfl

/-! ## Strings -/

theorem stringFrom_succ {fuel : Nat} {bs : List UInt8} {r : List UInt8 × List UInt8}
    (h : stringFrom fuel bs = .ok r) : stringFrom (fuel + 1) bs = .ok r := by
  induction fuel generalizing bs r with
  | zero => cases bs <;> cases h
  | succ fuel ih =>
    cases bs with
    | nil => cases h
    | cons b bs =>
      rw [stringFrom] at h ⊢
      split at h
      · next hq => rw [if_pos hq, h]
      · next hq =>
        rw [if_neg hq]
        split at h
        · next hb =>
          rw [if_pos hb]
          cases he : escape bs with
          | error e =>
            rw [he] at h
            cases h
          | ok p =>
            obtain ⟨c, rest⟩ := p
            rw [he] at h
            dsimp only [bind, Except.bind] at h ⊢
            cases hs : stringFrom fuel rest with
            | error e =>
              rw [hs] at h
              cases h
            | ok q =>
              rw [hs] at h
              rw [ih hs]
              exact h
        · next hb =>
          rw [if_neg hb]
          split at h
          · cases h
          · next hc =>
            rw [if_neg hc]
            cases hs : stringFrom fuel bs with
            | error e =>
              rw [hs] at h
              cases h
            | ok q =>
              rw [hs] at h
              rw [ih hs]
              exact h

theorem stringFrom_mono {fuel fuel' : Nat} (hle : fuel ≤ fuel') {bs : List UInt8}
    {r : List UInt8 × List UInt8} (h : stringFrom fuel bs = .ok r) :
    stringFrom fuel' bs = .ok r := by
  induction hle with
  | refl => exact h
  | step _ ih => exact stringFrom_succ ih

theorem hexDigit?_of_hexDigit {n : Nat} {d : Char} (h : HexDigit n d) :
    isMark d = true ∧ hexDigit? d.toNat.toUInt8 = some n := by
  have hd := h.of_all (p := fun n d => isMark d && hexDigit? d.toNat.toUInt8 == some n) (by decide)
  rw [Bool.and_eq_true, beq_iff_eq] at hd
  exact hd

theorem hexQuad_of_unitEscape {n : Nat} {t : List Char} (h : UnitEscape n t) :
    ∃ q, t = '\\' :: 'u' :: q ∧ ∀ rest, hexQuad (encode q ++ rest) = .ok (n, rest) := by
  obtain @⟨a, b, c, d, i, j, k, l, ha, hb, hc, hd⟩ := h
  refine ⟨[a, b, c, d], rfl, fun rest => ?_⟩
  obtain ⟨ma, ha⟩ := hexDigit?_of_hexDigit ha
  obtain ⟨mb, hb⟩ := hexDigit?_of_hexDigit hb
  obtain ⟨mc, hc⟩ := hexDigit?_of_hexDigit hc
  obtain ⟨md, hd⟩ := hexDigit?_of_hexDigit hd
  rw [encode_mark ma, encode_mark mb, encode_mark mc, encode_mark md, hexQuad, ha, hb, hc, hd]
  rfl

/-- What follows the backslash of an escape gives the character of that escape. -/
def Escapes (t : List Char) (c : Char) : Prop := ∀ rest, escape (encode t ++ rest) = .ok (c, rest)

theorem escapes_unit {c : Char} {q : List Char}
    (hq : ∀ rest, hexQuad (encode q ++ rest) = .ok (c.toNat, rest)) : Escapes ('u' :: q) c := by
  intro rest
  have hc := Text.Utf8.toNat_bounds c
  have ht : isTrailing c.toNat = false := by
    simp [isTrailing]
    omega
  have hl : isLeading c.toNat = false := by
    simp [isLeading]
    omega
  rw [encode_mark (by decide), escape, if_pos (by decide), unicodeEscape, hq]
  simp [bind, Except.bind, ht, hl]

theorem escapes_pair {c : Char} {n m : Nat} {q v : List Char}
    (hq : ∀ rest, hexQuad (encode q ++ rest) = .ok (n, rest))
    (hv : ∀ rest, hexQuad (encode v ++ rest) = .ok (m, rest))
    (hn : 0xD800 ≤ n ∧ n ≤ 0xDBFF) (hm : 0xDC00 ≤ m ∧ m ≤ 0xDFFF)
    (hc : c.toNat = (n - 0xD800) * 0x400 + (m - 0xDC00) + 0x10000) :
    Escapes ('u' :: q ++ '\\' :: 'u' :: v) c := by
  intro rest
  have ht : isTrailing n = false := by
    simp [isTrailing]
    omega
  have hl : isLeading n = true := by
    simp [isLeading]
    omega
  have htm : isTrailing m = true := by
    simp [isTrailing]
    omega
  rw [List.cons_append, encode_mark (by decide), escape, if_pos (by decide), unicodeEscape,
    encode_append, List.append_assoc, hq]
  simp only [bind, Except.bind, ht, hl, Bool.false_eq_true, ↓reduceIte]
  rw [encode_mark (by decide), encode_mark (by decide), closePair, if_neg (by decide)]
  dsimp only
  rw [if_neg (by decide), hv]
  simp [bind, Except.bind, htm, pairChar, ← hc]

theorem escapes_short {letter c : Char} (h : (letter, c) ∈ shortEscapes) : Escapes [letter] c := by
  intro rest
  have hall : ∀ p ∈ shortEscapes, isMark p.1 = true ∧ charOf p.1.toNat.toUInt8 ≠ 'u' ∧
      shortEscape? (charOf p.1.toNat.toUInt8) = some p.2 := by decide
  obtain ⟨hmark, hu, hs⟩ := hall _ h
  rw [encode_mark hmark, escape, if_neg hu, hs]
  rfl

/-- A character is written as itself or as an escape. -/
theorem Spelled.cases {c : Char} {t : List Char} (h : Spelled c t) :
    (t = [c] ∧ c ≠ '"' ∧ c ≠ '\\' ∧ 0x20 ≤ c.toNat) ∨ ∃ q, t = '\\' :: q ∧ Escapes q c := by
  cases h with
  | plain hq hb hc => exact .inl ⟨rfl, hq, hb, hc⟩
  | short h => exact .inr ⟨_, rfl, escapes_short h⟩
  | unit h =>
    obtain ⟨q, rfl, hq⟩ := hexQuad_of_unitEscape h
    exact .inr ⟨_, rfl, escapes_unit hq⟩
  | pair hl ht hn hm h =>
    obtain ⟨q, rfl, hq⟩ := hexQuad_of_unitEscape hl
    obtain ⟨v, rfl, hv⟩ := hexQuad_of_unitEscape ht
    exact .inr ⟨_, rfl, escapes_pair hq hv hn hm h⟩

theorem plain_of_le {b : UInt8} (h : 0x80 ≤ b.toNat) :
    charOf b ≠ '"' ∧ charOf b ≠ '\\' ∧ ¬ b < 0x20 := by
  have hne : ∀ c : Char, c.toNat < 0x80 → charOf b ≠ c := by
    intro c hc he
    rw [← he, toNat_charOf] at hc
    omega
  refine ⟨hne _ (by decide), hne _ (by decide), fun hlt => ?_⟩
  have : b.toNat < 0x20 := UInt8.lt_iff_toNat_lt.mp hlt
  omega

/-- Octets that stand for themselves in a string. -/
theorem stringFrom_octets {fuel : Nat} {os bs rest : List UInt8} {octets : List UInt8}
    (hos : ∀ b ∈ os, charOf b ≠ '"' ∧ charOf b ≠ '\\' ∧ ¬ b < 0x20)
    (h : stringFrom fuel bs = .ok (octets, rest)) :
    stringFrom (fuel + os.length) (os ++ bs) = .ok (os ++ octets, rest) := by
  induction os with
  | nil => exact h
  | cons b os ih =>
    obtain ⟨hq, hb, hc⟩ := hos b List.mem_cons_self
    have ih := ih fun x hx => hos x (List.mem_cons_of_mem b hx)
    show stringFrom (fuel + os.length + 1) (b :: (os ++ bs)) = _
    rw [stringFrom, if_neg hq, if_neg hb, if_neg hc, ih]
    rfl

theorem stringFrom_spelled {c : Char} {t : List Char} (ht : Spelled c t) {fuel : Nat}
    {bs rest octets : List UInt8} (h : stringFrom fuel bs = .ok (octets, rest)) :
    stringFrom (fuel + (encode t).length) (encode t ++ bs) =
      .ok (encodeChar c ++ octets, rest) := by
  rcases ht.cases with ⟨rfl, hq, hb, hc⟩ | ⟨q, rfl, hq⟩
  · rw [show encode [c] = encodeChar c from by simp [encode]]
    refine stringFrom_octets (fun b hb' => ?_) h
    by_cases hlt : c.toNat < 0x80
    · rw [encodeChar_ascii hlt, List.mem_singleton] at hb'
      subst hb'
      rw [charOf_toUInt8 hlt, Text.Utf8.toUInt8_lt (by omega)]
      exact ⟨hq, hb, Nat.not_lt.mpr hc⟩
    · exact plain_of_le (Text.Utf8.le_of_mem_encodeChar (Nat.not_lt.mp hlt) hb')
  · have hone : stringFrom (fuel + 1) (encode ('\\' :: q) ++ bs) =
        .ok (encodeChar c ++ octets, rest) := by
      rw [encode_mark (by decide), stringFrom, if_neg (by decide), if_pos (by decide), hq bs]
      dsimp only [bind, Except.bind]
      rw [h]
    refine stringFrom_mono ?_ hone
    have := Text.Utf8.length_le_length_encode ('\\' :: q)
    rw [List.length_cons] at this
    omega

/-- Characters written in any way are read as their octets. -/
theorem stringFrom_spelledAll {cs u : List Char} (h : SpelledAll cs u) (rest : List UInt8) :
    stringFrom ((encode u).length + 1) (encode (u ++ ['"']) ++ rest) = .ok (encode cs, rest) := by
  induction h with
  | nil =>
    rw [List.nil_append, encode_mark (by decide), stringFrom, if_pos (by decide)]
    rfl
  | cons head tail ih =>
    have := stringFrom_spelled head ih
    rw [List.append_assoc, encode_append, encode_append, encode_cons, List.append_assoc,
      List.length_append]
    rwa [show ∀ a b : Nat, a + b + 1 = b + 1 + a from fun a b => by omega]

/-- A string in any spelling is read as the string. -/
theorem reads_string {s : String} {u : List Char} (h : SpelledAll s.toList u) :
    Reads string (u ++ ['"']) s := by
  intro rest
  have hs : stringFrom ((encode (u ++ ['"']) ++ rest).length + 1) (encode (u ++ ['"']) ++ rest) =
      .ok (encode s.toList, rest) := by
    refine stringFrom_mono ?_ (stringFrom_spelledAll h rest)
    rw [encode_append, List.append_assoc, List.length_append]
    omega
  unfold string
  rw [hs]
  dsimp only [bind, Except.bind]
  rw [Text.Utf8.toString?, Text.Utf8.decode_encode]
  dsimp only [Except.map]
  rw [String.ofList_toList]

/-! ## Printed strings -/

/-- A printed character is one of its spellings. -/
theorem spelled_escapeChar (c : Char) : Spelled c (escapeChar c) := by
  have hshort : ∀ p ∈ shortEscapes, Spelled p.2 ['\\', p.1] := fun p hp => .short hp
  unfold escapeChar
  split
  · next h => exact h ▸ hshort ('"', '"') (by decide)
  split
  · next h => exact h ▸ hshort ('\\', '\\') (by decide)
  split
  · next h => exact h ▸ hshort ('b', '\x08') (by decide)
  split
  · next h => exact h ▸ hshort ('f', '\x0C') (by decide)
  split
  · next h => exact h ▸ hshort ('n', '\n') (by decide)
  split
  · next h => exact h ▸ hshort ('r', '\r') (by decide)
  split
  · next h => exact h ▸ hshort ('t', '\t') (by decide)
  split
  · next h =>
    have hzero : HexDigit 0 '0' := .inl rfl
    have := UnitEscape.digits hzero hzero (Text.hexDigit_digitChar (n := c.toNat / 16) (by omega))
      (Text.hexDigit_digitChar (n := c.toNat % 16) (by omega))
    rw [show ((0 * 16 + 0) * 16 + c.toNat / 16) * 16 + c.toNat % 16 = c.toNat by omega] at this
    exact .unit this
  · next hq hb _ _ _ _ _ hc => exact .plain hq hb (Nat.not_lt.mp hc)

/-- A printed string is a text of that string. -/
theorem stringText_quote (s : String) : StringText s (quote s) :=
  Text.stringText_quotedBy spelled_escapeChar s

end Shorthand.Json
