import Shorthand.Proofs.Residue

/-!
# Separators

A character separates two trimmed queries if neither a token nor the look of a rule at a neighbour
reaches over it.  The queries are then expanded each on its own:

    expandText (a ++ c ++ b) = expandText a ++ c ++ expandText b

This holds for all trimmed queries if and only if `c` is no word character, no colon and none of the
accessors `(`, `[` and `.` (`IsSeparator`, `expandText_separated_iff`).
-/

namespace Shorthand

/-! ## Trimmed queries -/

/-- A query that is not empty and has no margins. -/
structure IsTrimmed (s : String) : Prop where
  ne_empty : s ≠ ""
  trimmed : trimText s = s

namespace IsTrimmed

variable {a b : String}

theorem trimQuery_eq (h : IsTrimmed a) : trimQuery a.toList = a.toList := by
  rw [← toList_trimText, h.trimmed]

theorem toList_ne_nil (h : IsTrimmed a) : a.toList ≠ [] :=
  fun hnil => h.ne_empty (String.toList_eq_nil_iff.mp hnil)

/-- Whatever stands between two trimmed queries, there is nothing to trim. -/
theorem trimQuery_append (ha : IsTrimmed a) (hb : IsTrimmed b) (c : Char) :
    trimQuery (a.toList ++ c :: b.toList) = a.toList ++ c :: b.toList := by
  apply Text.trimBy_eq_self
  · rw [List.head?_append_of_ne_nil _ ha.toList_ne_nil, ← ha.trimQuery_eq]
    exact Text.head?_trimBy
  · rw [List.append_cons, List.getLast?_append_of_ne_nil _ hb.toList_ne_nil, ← hb.trimQuery_eq]
    exact Text.getLast?_trimBy

end IsTrimmed

/-! ## Characters that separate -/

/-- A character that neither belongs to a token nor attaches a selector. -/
def IsSeparator (c : Char) : Prop := Text.isWord c = false ∧ c ∉ [':', '(', '[', '.']

instance (c : Char) : Decidable (IsSeparator c) := inferInstanceAs (Decidable (_ ∧ _))

theorem IsSeparator.ne_colon {c : Char} (hc : IsSeparator c) : c ≠ ':' :=
  fun h => hc.2 (h ▸ List.mem_cons_self)

theorem IsSeparator.isAccessor_eq {c : Char} (hc : IsSeparator c) :
    isAccessor (some c) = false := by
  have hmem := hc.2
  simp only [List.mem_cons, List.not_mem_nil, or_false, not_or] at hmem
  simp [isAccessor, hmem.2]

/-- Text on both sides of a separator is rewritten as if it stood alone. -/
theorem replaceTokens_separated {c : Char} (hc : IsSeparator c) (u v : List Char) :
    replaceTokens passes.flatten (u ++ c :: v) =
      replaceTokens passes.flatten u ++ c :: replaceTokens passes.flatten v := by
  have hl : ∀ r ∈ passes.flatten, r.Lexical := fun _ => lexical_of_mem
  have hseam : Seam (lastOr none u) (c :: v) := Or.inl (isBreak_of_not_isWord hc.1)
  unfold replaceTokens
  rw [replaceTokensFrom_append hl hseam,
    replaceTokensFrom_behind hl _ hc.1 hc.ne_colon hc.isAccessor_eq]

theorem expandText_append_iff (a b : String) (c : Char) :
    expandText (a ++ String.singleton c ++ b) =
        expandText a ++ String.singleton c ++ expandText b ↔
      expandChars (a.toList ++ c :: b.toList) =
        expandChars a.toList ++ c :: expandChars b.toList := by
  rw [← String.toList_inj]
  simp only [toList_expandText, String.toList_append, String.toList_singleton, List.append_assoc,
    List.singleton_append]

/-- Trimmed queries with a separator between them are expanded each on its own. -/
theorem expandChars_separated {a b : String} (ha : IsTrimmed a) (hb : IsTrimmed b) {c : Char}
    (hc : IsSeparator c) :
    expandChars (a.toList ++ c :: b.toList) =
      expandChars a.toList ++ c :: expandChars b.toList := by
  rw [expandChars_eq, expandChars_eq, expandChars_eq, ha.trimQuery_append hb, ha.trimQuery_eq,
    hb.trimQuery_eq, replaceTokens_separated hc]

/-! ## Characters that do not -/

/-- A single word is left as it is unless it stands for the context. -/
theorem expandChars_word {w : List Char} (hw : AllWord w)
    (hcontext : ∀ x ∈ ["this", "self"], w ≠ x.toList) : expandChars w = w := by
  have hmargin : trimQuery w = w := by
    apply Text.trimBy_eq_self
    · exact fun c hc => isMargin_eq_false (Or.inr (hw c (List.mem_of_mem_head? hc)))
    · exact fun c hc => isMargin_eq_false (Or.inr (hw c (List.mem_of_getLast? hc)))
  rw [expandChars_eq, hmargin]
  apply replaceTokensFrom_eq_self
  intro r hr ho
  have htoken : r.token = w :=
    (lexical_of_mem hr).token_eq_of_applies hw ((lexical_of_mem hr).applies_of_occurs hw ho)
  obtain ⟨x, hx, rfl⟩ := eq_context_of_allWord hr (htoken.symm ▸ hw)
  exact hcontext x hx htoken.symm

/-- Two context words with a word character between them are one word, and are left as they are. -/
theorem expandChars_joined {c : Char} (hc : Text.isWord c = true) :
    expandChars ("this".toList ++ c :: "self".toList) = "this".toList ++ c :: "self".toList := by
  have hword : AllWord ("this".toList ++ c :: "self".toList) := by
    intro d hd
    rcases List.mem_append.mp hd with hd | hd
    · exact (word_of_mem (w := "this") (by decide)).2 d hd
    · rcases List.mem_cons.mp hd with rfl | hd
      · exact hc
      · exact (word_of_mem (w := "self") (by decide)).2 d hd
  have hlength : ∀ x ∈ ["this", "self"], x.toList.length = 4 := by decide
  refine expandChars_word hword fun x hx h => ?_
  have := hlength x hx
  rw [← h] at this
  simp at this

/-- A colon makes a symbol of a word behind it, and an accessor attaches a selector. -/
theorem expandChars_attached {c : Char} (hc : c ∈ [':', '(', '[', '.']) :
    ∃ b, IsTrimmed b ∧ expandChars ("x".toList ++ c :: b.toList) ≠
      expandChars "x".toList ++ c :: expandChars b.toList := by
  simp only [List.mem_cons, List.not_mem_nil, or_false] at hc
  rcases hc with rfl | rfl | rfl | rfl
  · exact ⟨"name", ⟨by decide, by decide⟩, by decide⟩
  · exact ⟨":match", ⟨by decide, by decide⟩, by decide⟩
  · exact ⟨":match", ⟨by decide, by decide⟩, by decide⟩
  · exact ⟨":match", ⟨by decide, by decide⟩, by decide⟩

/-! ## Top theorem -/

/-- Trimmed queries are expanded each on its own, whatever they are, if and only if the character
between them is a separator. -/
theorem expandText_separated_iff (c : Char) :
    (∀ a b : String, IsTrimmed a → IsTrimmed b →
      expandText (a ++ String.singleton c ++ b) =
        expandText a ++ String.singleton c ++ expandText b) ↔ IsSeparator c := by
  constructor
  · intro h
    refine ⟨Bool.eq_false_iff.mpr fun hword => ?_, fun hc => ?_⟩
    · have hjoined := (expandText_append_iff "this" "self" c).mp
        (h "this" "self" ⟨by decide, by decide⟩ ⟨by decide, by decide⟩)
      rw [expandChars_joined hword, show expandChars "this".toList = " $ ".toList by decide]
        at hjoined
      -- the one starts with a letter, the other with a blank
      exact absurd (congrArg List.head? hjoined) (by simp)
    · obtain ⟨b, hb, hne⟩ := expandChars_attached hc
      exact hne ((expandText_append_iff "x" b c).mp (h "x" b ⟨by decide, by decide⟩ hb))
  · intro hc a b ha hb
    exact (expandText_append_iff a b c).mpr (expandChars_separated ha hb hc)

/-- A line feed separates a context word from a selector. -/
theorem expandText_separated_feed :
    expandText ("f(this" ++ String.singleton '\n' ++ ":match)") =
      expandText "f(this" ++ String.singleton '\n' ++ expandText ":match)" :=
  (expandText_separated_iff '\n').mpr (by decide) "f(this" ":match)" ⟨by decide, by decide⟩
    ⟨by decide, by decide⟩

end Shorthand
