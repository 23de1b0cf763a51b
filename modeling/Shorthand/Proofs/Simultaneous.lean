import Shorthand.Proofs.Fusion

/-!
# Expansion as one rewriting

`Rewritten before cs out` says, without passes, what a text becomes: it is read once from left to
right, each symbol that stands in it is rewritten (`Expands`), every other character is copied, and
all neighbours are those of the text itself.

    Rewritten none (trimText query).toList out ↔ out = (expandText query).toList
                                                                (rewritten_iff_eq_expandText)

At each place at most one rule applies (`first?_of_applies`), so the order of the rules does not
matter.
-/

namespace Shorthand

/-! ## Specification -/

/-- `token`, with `before` right before it and `rest` behind it, is a symbol and becomes `out`. -/
inductive Expands (before : Option Char) : (token rest out : List Char) → Prop
  | context {w : String} {rest : List Char} : w ∈ ["this", "self"] →
      isBreak before = true → isBreak rest.head? = true →
      Expands before w.toList rest " $ ".toList
  | property {w : String} {rest : List Char} : w ∈ ["name", "key", "value"] →
      Expands before (':' :: w.toList) rest ('.' :: w.toList)
  | root {rest : List Char} : Expands before ":root".toList rest "$".toList
  | attached {w : String} {rest : List Char} : w ∈ ["match", "text"] →
      isAccessor before = true → Expands before (':' :: w.toList) rest w.toList
  | detached {w : String} {rest : List Char} : w ∈ ["match", "text"] →
      isAccessor before = false → Expands before (':' :: w.toList) rest ('.' :: w.toList)

/-- `cs`, with `before` right before it, is rewritten to `out`. -/
inductive Rewritten : (before : Option Char) → (cs out : List Char) → Prop
  | done {before : Option Char} : Rewritten before [] []
  | symbol {before : Option Char} {token rest out more : List Char} :
      Expands before token rest out → Rewritten (lastOr before token) rest more →
      Rewritten before (token ++ rest) (out ++ more)
  | copy {before : Option Char} {c : Char} {cs more : List Char} :
      (∀ token rest out, c :: cs = token ++ rest → ¬ Expands before token rest out) →
      Rewritten (some c) cs more → Rewritten before (c :: cs) (c :: more)

/-! ## Lemmas -/

/-- The symbols are those of the rules. -/
theorem expands_iff {before : Option Char} {token rest out : List Char} :
    Expands before token rest out ↔
      ∃ r ∈ passes.flatten, r.token = token ∧ r.fits before rest.head? = true ∧
        out = r.output before := by
  constructor
  · intro h
    cases h with
    | context hw hb ha =>
      exact ⟨_, mem_passes.mpr (.inl ⟨_, hw, rfl⟩), rfl, by simp [Rule.context, hb, ha], rfl⟩
    | property hw =>
      exact ⟨_, mem_passes.mpr (.inr (.inl ⟨_, hw, rfl⟩)), toList_colon _, rfl, (toList_dot _).symm⟩
    | root => exact ⟨_, mem_passes.mpr (.inr (.inr (.inl rfl))), rfl, rfl, rfl⟩
    | attached hw ha =>
      exact ⟨_, mem_passes.mpr (.inr (.inr (.inr ⟨_, hw, rfl⟩))), rfl, rfl, (if_pos ha).symm⟩
    | detached hw ha =>
      refine ⟨_, mem_passes.mpr (.inr (.inr (.inr ⟨_, hw, rfl⟩))), rfl, rfl, ?_⟩
      exact (if_neg (by rw [ha]; decide)).symm
  · rintro ⟨r, hr, rfl, hf, rfl⟩
    rcases mem_passes.mp hr with ⟨w, hw, rfl⟩ | ⟨w, hw, rfl⟩ | rfl | ⟨w, hw, rfl⟩
    · simp only [Rule.context, Bool.and_eq_true] at hf
      exact .context hw hf.1 hf.2
    · show Expands before (":" ++ w).toList rest ("." ++ w).toList
      rw [toList_colon, toList_dot]
      exact .property hw
    · exact .root
    · show Expands before (':' :: w.toList) rest
        (if isAccessor before then w.toList else '.' :: w.toList)
      split
      · next ha => exact .attached hw ha
      · next ha => exact .detached hw (Bool.eq_false_iff.mpr ha)

/-- At most one rule applies at a place. -/
theorem first?_of_applies {r : Rule} (hr : r ∈ passes.flatten) {b : Option Char} {cs : List Char}
    (ha : r.Applies b cs) :
    Rule.first? passes.flatten b cs = some (r.output b, r.token.length) := by
  -- no token starts with another one
  have hall : ∀ r ∈ passes.flatten, ∀ s ∈ passes.flatten, ∀ a ∈ [none, some '.'],
      r.token.isPrefixOf s.token = true →
        r.output a = s.output a ∧ r.token.length = s.token.length := by
    decide
  have heq : ∀ r ∈ passes.flatten, ∀ s ∈ passes.flatten, r.token <+: s.token →
      r.output b = s.output b ∧ r.token.length = s.token.length := by
    intro r hr s hs hp
    obtain ⟨a, ha, hb⟩ := exists_neighbour b
    rw [(lexical_of_mem hr).output_congr hb, (lexical_of_mem hs).output_congr hb]
    exact hall r hr s hs a ha (List.isPrefixOf_iff_prefix.mpr hp)
  cases hf : Rule.first? passes.flatten b cs with
  | none => exact absurd ha ((Rule.first?_eq_none_iff _ b cs).mp hf r hr)
  | some p =>
    obtain ⟨out, n⟩ := p
    obtain ⟨s, hs, ⟨rest', hrest', -⟩, rfl, rfl⟩ := Rule.first?_eq_some hf
    obtain ⟨rest, hrest, -⟩ := ha
    have hpr : r.token <+: cs := ⟨rest, hrest.symm⟩
    have hps : s.token <+: cs := ⟨rest', hrest'.symm⟩
    rcases List.prefix_or_prefix_of_prefix hpr hps with h | h
    · obtain ⟨h1, h2⟩ := heq r hr s hs h
      rw [h1, h2]
    · obtain ⟨h1, h2⟩ := heq s hs r hr h
      rw [h1, h2]

theorem rewritten_iff_eq_replaceTokensFrom (before : Option Char) (cs out : List Char) :
    Rewritten before cs out ↔ out = replaceTokensFrom passes.flatten 0 before cs := by
  constructor
  · intro h
    induction h with
    | done => rfl
    | symbol hx _ ih =>
      obtain ⟨r, hr, rfl, hf, rfl⟩ := expands_iff.mp hx
      rw [replaceTokensFrom_token (lexical_of_mem hr).token_ne_nil
        (first?_of_applies hr ⟨_, rfl, hf⟩), ih]
    | copy hx _ ih =>
      rw [replaceTokensFrom_copy, ih]
      rintro r hr ⟨rest, he, hf⟩
      exact hx r.token rest _ he (expands_iff.mpr ⟨r, hr, rfl, hf, rfl⟩)
  · rintro rfl
    -- each step of the rewriting takes something off the text
    suffices hall : ∀ n, ∀ (before : Option Char) (cs : List Char), cs.length ≤ n →
        Rewritten before cs (replaceTokensFrom passes.flatten 0 before cs) from
      hall cs.length before cs (Nat.le_refl _)
    intro n
    induction n with
    | zero =>
      intro before cs hlen
      obtain rfl := List.length_eq_zero_iff.mp (Nat.le_zero.mp hlen)
      exact .done
    | succ n ih =>
      intro before cs hlen
      cases cs with
      | nil => exact .done
      | cons c cs =>
        by_cases ha : ∃ r ∈ passes.flatten, r.Applies before (c :: cs)
        · obtain ⟨r, hr, rest, he, hf⟩ := ha
          have hne := (lexical_of_mem hr).token_ne_nil
          have hrest : rest.length ≤ n := by
            have := congrArg List.length he
            have := List.length_pos_iff.mpr hne
            simp only [List.length_append, List.length_cons] at *
            omega
          rw [he, replaceTokensFrom_token hne (first?_of_applies hr ⟨rest, rfl, hf⟩)]
          exact .symbol (expands_iff.mpr ⟨r, hr, rfl, hf, rfl⟩) (ih _ rest hrest)
        · have hnone : ∀ r ∈ passes.flatten, ¬ r.Applies before (c :: cs) :=
            fun r hr h => ha ⟨r, hr, h⟩
          rw [replaceTokensFrom_copy hnone]
          refine .copy ?_ (ih (some c) cs (Nat.le_of_succ_le_succ hlen))
          intro token rest out he hx
          obtain ⟨r, hr, rfl, hf, -⟩ := expands_iff.mp hx
          exact hnone r hr ⟨rest, he, hf⟩

/-! ## Top theorem -/

/-- The seven passes write exactly what one rewriting of the trimmed query writes. -/
theorem rewritten_iff_eq_expandText (query : String) (out : List Char) :
    Rewritten none (trimText query).toList out ↔ out = (expandText query).toList := by
  rw [rewritten_iff_eq_replaceTokensFrom, toList_trimText, toList_expandText, expandChars_eq]
  exact Iff.rfl

-- The selector behind `:root` is attached to nothing, and `this` right behind it is part of a word.
example : expandText "f(:match) :root:text :rootthis" = "f(match) $.text $this" := by decide

end Shorthand
