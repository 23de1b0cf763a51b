import Shorthand.Text.Quoted

/-!
# Spelling strings

Formats differ in how a single character may be written in a string.  Given those ways as a relation
`Spelled`, a string is written character by character between quotes (`StringText`), and a printer
that escapes every character in one of its ways prints such a text:

    (∀ c, Spelled c (escape c)) → StringText Spelled s (quotedBy escape s)   (stringText_quotedBy)
-/

namespace Shorthand.Text

/-! ## Digits -/

/-- The digit of a number below sixteen, in either case. -/
def HexDigit (n : Nat) (d : Char) : Prop :=
  "0123456789abcdef".toList[n]? = some d ∨ "0123456789ABCDEF".toList[n]? = some d

theorem hexDigit_digitChar {n : Nat} (hn : n < 16) : HexDigit n (Nat.digitChar n) := by
  have hall : ∀ n < 16, "0123456789abcdef".toList[n]? = some (Nat.digitChar n) := by decide
  exact .inl (hall n hn)

theorem HexDigit.lt {n : Nat} {d : Char} (h : HexDigit n d) : n < 16 := by
  rcases h with h | h
  · exact (List.getElem?_eq_some_iff.mp h).1
  · exact (List.getElem?_eq_some_iff.mp h).1

/-- What holds of the digits, in both cases, holds of every digit. -/
theorem HexDigit.of_all {p : Nat → Char → Bool}
    (hall : ∀ n < 16, ("0123456789abcdef".toList[n]?.all (p n) &&
      "0123456789ABCDEF".toList[n]?.all (p n)) = true)
    {n : Nat} {d : Char} (h : HexDigit n d) : p n d = true := by
  obtain ⟨hlower, hupper⟩ := Bool.and_eq_true_iff.mp (hall n h.lt)
  rcases h with h | h
  · rw [h] at hlower
    exact hlower
  · rw [h] at hupper
    exact hupper

/-! ## Strings -/

section
variable (Spelled : Char → List Char → Prop)

/-- The ways to write characters, one after the other. -/
inductive SpelledAll : List Char → List Char → Prop
  | nil : SpelledAll [] []
  | cons {c : Char} {cs t u : List Char} (head : Spelled c t) (tail : SpelledAll cs u) :
      SpelledAll (c :: cs) (t ++ u)

/-- The ways to write a string, with its quotes. -/
inductive StringText (s : String) : List Char → Prop
  | quoted {u : List Char} (h : SpelledAll Spelled s.toList u) : StringText s ('"' :: u ++ ['"'])

end

section
variable {Spelled : Char → List Char → Prop} {escape : Char → List Char}
  (hescape : ∀ c, Spelled c (escape c))
include hescape

theorem spelledAll_flatMap (cs : List Char) : SpelledAll Spelled cs (cs.flatMap escape) := by
  induction cs with
  | nil => exact .nil
  | cons c cs ih => exact .cons (hescape c) ih

/-- A printed string is a text of that string. -/
theorem stringText_quotedBy (s : String) : StringText Spelled s (quotedBy escape s) :=
  .quoted (spelledAll_flatMap hescape s.toList)

end

end Shorthand.Text
