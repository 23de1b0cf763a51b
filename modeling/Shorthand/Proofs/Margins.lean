import Mathlib.Data.List.DropRight
import Shorthand.Proofs.Runs

/-!
# Margins

Trimming takes off characters of a class at both ends and nothing else (`trimBy_split`), and a
trimmed text has none of them at its ends (`trimBy_trimBy`).  The margins of a query are no part of
a token, so the same tokens stand in a query and in the trimmed query (`occurs_trimQuery`).
-/

namespace Shorthand

/-! ## Trimming -/

namespace Text

/-- What trimming takes off are characters of the class. -/
theorem trimBy_split (p : Char → Bool) (cs : List Char) :
    ∃ pre post, cs = pre ++ trimBy p cs ++ post ∧ (∀ c ∈ pre, p c = true) ∧
      ∀ c ∈ post, p c = true := by
  refine ⟨cs.takeWhile p, (cs.dropWhile p).rtakeWhile p, ?_, fun c => List.mem_takeWhile_imp,
    fun c => List.mem_rtakeWhile_imp⟩
  show cs = cs.takeWhile p ++ (cs.dropWhile p).rdropWhile p ++ (cs.dropWhile p).rtakeWhile p
  rw [List.append_assoc, List.rdropWhile_append_rtakeWhile, List.takeWhile_append_dropWhile]

/-- A text without characters of the class at its ends is not trimmed. -/
theorem trimBy_eq_self {p : Char → Bool} {cs : List Char} (hhead : ∀ c ∈ cs.head?, p c = false)
    (hlast : ∀ c ∈ cs.getLast?, p c = false) : trimBy p cs = cs := by
  have hdrop : ∀ ds : List Char, (∀ c ∈ ds.head?, p c = false) → ds.dropWhile p = ds := by
    intro ds hd
    cases ds with
    | nil => rfl
    | cons c ds => exact List.dropWhile_cons_of_neg (by simp [hd c rfl])
  rw [trimBy, hdrop cs hhead, hdrop cs.reverse (by rwa [List.head?_reverse]), List.reverse_reverse]

theorem head?_trimBy {p : Char → Bool} {cs : List Char} :
    ∀ c ∈ (trimBy p cs).head?, p c = false := by
  intro c hc
  obtain ⟨t, ht⟩ : trimBy p cs <+: cs.dropWhile p := List.rdropWhile_prefix p _
  have := List.head?_dropWhile_not p cs
  rw [← ht, List.head?_append, Option.mem_def.mp hc] at this
  exact this

theorem getLast?_trimBy {p : Char → Bool} {cs : List Char} :
    ∀ c ∈ (trimBy p cs).getLast?, p c = false := by
  intro c hc
  have := List.head?_dropWhile_not p (cs.dropWhile p).reverse
  rw [trimBy, List.getLast?_reverse] at hc
  rw [hc] at this
  exact this

/-- Trimming once is enough. -/
theorem trimBy_trimBy (p : Char → Bool) (cs : List Char) : trimBy p (trimBy p cs) = trimBy p cs :=
  trimBy_eq_self head?_trimBy getLast?_trimBy

end Text

/-! ## Margins of queries -/

/-- Neither word characters nor colons are taken off a query. -/
theorem isMargin_eq_false {c : Char} (h : c = ':' ∨ Text.isWord c = true) : isMargin c = false := by
  rcases h with rfl | h
  · decide
  · have hclass : (decide ('A'.val ≤ c.val ∧ c.val ≤ 'Z'.val) ||
        (decide ('a'.val ≤ c.val) && decide (c.val ≤ 'z'.val)) ||
        (decide ('0'.val ≤ c.val) && decide (c.val ≤ '9'.val)) || c == '_') = true := h
    have hn : ((65 ≤ c.toNat ∧ c.toNat ≤ 90 ∨ 97 ≤ c.toNat ∧ c.toNat ≤ 122) ∨
        48 ≤ c.toNat ∧ c.toNat ≤ 57) ∨ c.toNat = 95 := by
      simpa [UInt32.le_iff_toNat_le, ← Char.toNat_inj] using hclass
    simp [isMargin, Text.isBlank, Text.byteOrderMark, ← Char.toNat_inj]
    omega

theorem isBreak_of_isMargin {c : Char} (h : isMargin c = true) : isBreak (some c) = true := by
  cases hw : Text.isWord c with
  | false => exact isBreak_of_not_isWord hw
  | true =>
    rw [isMargin_eq_false (Or.inr hw)] at h
    cases h

/-- Behind a margin a text reads as from its start. -/
theorem lastOr_margin {pre : List Char} (h : ∀ c ∈ pre, isMargin c = true) :
    isBreak (lastOr none pre) = true ∧ lastOr none pre ≠ some ':' := by
  by_cases hne : pre = []
  · subst hne
    exact ⟨rfl, by decide⟩
  · obtain ⟨c, hc, hl⟩ := lastOr_mem none pre hne
    rw [hl]
    refine ⟨isBreak_of_isMargin (h c hc), ?_⟩
    intro he
    cases he
    exact absurd (h ':' hc) (by decide)

/-- No token stands in a margin. -/
theorem not_occurs_margin {r : Rule} (hr : r.Lexical) (b : Option Char) {cs : List Char}
    (h : ∀ c ∈ cs, isMargin c = true) : ¬ r.Occurs b cs := by
  rintro ⟨pre, post, rfl, -⟩
  cases ht : r.token with
  | nil => exact hr.token_ne_nil ht
  | cons c t =>
    have hc : isMargin c = true := h c (by simp [ht])
    rw [isMargin_eq_false (hr.mem_token (by simp [ht]))] at hc
    cases hc

/-- In a query and in the trimmed query stand the same tokens. -/
theorem occurs_trimQuery {r : Rule} (hr : r.Lexical) (cs : List Char) :
    r.Occurs none (trimQuery cs) ↔ r.Occurs none cs := by
  obtain ⟨pre, post, he, hpre, hpost⟩ := Text.trimBy_split isMargin cs
  have hmargin := lastOr_margin hpre
  have hs : Seam (lastOr none (pre ++ trimQuery cs)) post := by
    left
    cases post with
    | nil => rfl
    | cons c post => exact isBreak_of_isMargin (hpost c List.mem_cons_self)
  conv => rhs; rw [he]
  show _ ↔ r.Occurs none (pre ++ trimQuery cs ++ post)
  rw [occurs_append hr none _ post hs, occurs_append hr none pre _ (Or.inr hmargin),
    hr.occurs_congr _ (show isBreak (lastOr none pre) = isBreak none from hmargin.1),
    or_iff_right (not_occurs_margin hr none hpre), or_iff_left (not_occurs_margin hr _ hpost)]

end Shorthand
