import Shorthand.Proofs.Fusion
import Shorthand.Proofs.Margins

/-!
# What is left after expansion

No symbol with a colon is left in an expanded query.  A word that stands for the context is left
where it was written right behind `:root`, and nowhere else: the word did not stand alone before
`:root` became `$`.

    ¬ HasColonSymbol (expandText s).toList
    HasContextWord (expandText s).toList ↔ HasRootedWord s.toList

Expansion only trims a query if and only if no symbol stands in it
(`expandChars_eq_trimQuery_iff`).  So a second expansion only trims, unless there is such a word
(`expandText_twice_iff`); a third one finds nothing to expand.
-/

namespace Shorthand

/-! ## Specification -/

/-- A symbol with a colon stands in the text. -/
def HasColonSymbol (cs : List Char) : Prop :=
  ∃ w ∈ ["name", "key", "value", "root", "match", "text"], ':' :: w.toList <:+: cs

/-- A word that stands for the context node stands alone in the text. -/
def HasContextWord (cs : List Char) : Prop :=
  ∃ w ∈ ["this", "self"], ∃ pre post, cs = pre ++ w.toList ++ post ∧
    isBreak pre.getLast? = true ∧ isBreak post.head? = true

/-- A symbol stands in the text. -/
def HasSymbol (cs : List Char) : Prop := HasContextWord cs ∨ HasColonSymbol cs

/-- A word that stands for the context node follows `:root` and ends there. -/
def HasRootedWord (cs : List Char) : Prop :=
  ∃ w ∈ ["this", "self"], ∃ pre post, cs = pre ++ ":root".toList ++ w.toList ++ post ∧
    isBreak post.head? = true

/-! ## Symbols as rules -/

/-- A word behind `:root`, as a rule; only where it applies matters. -/
def Rule.rooted (word : String) : Rule where
  token := ":root".toList ++ word.toList
  fits _ after := isBreak after
  output _ := []

theorem lexical_rooted {w : String} (hw : w ∈ ["this", "self"]) : (Rule.rooted w).Lexical := by
  have hall : ∀ w ∈ ["this", "self"], AllWord ("root".toList ++ w.toList) := by decide
  exact .colon (fun ends => ends) (fun _ => []) (w := "root".toList ++ w.toList) (by simp)
    (hall w hw)

/-- Symbols with a colon may have any neighbours. -/
theorem fits_of_colon {s : Rule} (hs : s ∈ passes.flatten) (hc : s.token.head? = some ':')
    (b a : Option Char) : s.fits b a = true := by
  rcases mem_passes.mp hs with ⟨w, hw, rfl⟩ | ⟨w, -, rfl⟩ | rfl | ⟨w, -, rfl⟩
  · have hall : ∀ w ∈ ["this", "self"], (Rule.context w).token.head? ≠ some ':' := by decide
    exact absurd hc (hall w hw)
  · rfl
  · rfl
  · rfl

theorem hasColonSymbol_iff (cs : List Char) :
    HasColonSymbol cs ↔
      ∃ s ∈ passes.flatten, s.token.head? = some ':' ∧ s.Occurs none cs := by
  constructor
  · rintro ⟨w, hw, pre, post, rfl⟩
    have hall : ∀ w ∈ ["name", "key", "value", "root", "match", "text"],
        ∃ s ∈ passes.flatten, s.token = ':' :: w.toList := by
      decide
    obtain ⟨s, hs, ht⟩ := hall w hw
    have hc : s.token.head? = some ':' := by rw [ht]; rfl
    exact ⟨s, hs, hc, pre, post, by rw [ht], fits_of_colon hs hc _ _⟩
  · rintro ⟨s, hs, hc, pre, post, rfl, -⟩
    have hall : ∀ s ∈ passes.flatten, s.token.head? = some ':' →
        ∃ w ∈ ["name", "key", "value", "root", "match", "text"], s.token = ':' :: w.toList := by
      decide
    obtain ⟨w, hw, ht⟩ := hall s hs hc
    exact ⟨w, hw, pre, post, by rw [ht]⟩

theorem hasContextWord_iff (cs : List Char) :
    HasContextWord cs ↔ ∃ w ∈ ["this", "self"], (Rule.context w).Occurs none cs := by
  refine exists_congr fun w => and_congr_right fun _ => exists_congr fun pre =>
    exists_congr fun post => and_congr_right fun _ => ?_
  rw [lastOr_none]
  exact (Bool.and_eq_true _ _).symm.to_iff

theorem hasRootedWord_iff (cs : List Char) :
    HasRootedWord cs ↔ ∃ w ∈ ["this", "self"], (Rule.rooted w).Occurs none cs := by
  refine exists_congr fun w => and_congr_right fun _ => exists_congr fun pre =>
    exists_congr fun post => and_congr_left fun _ => ?_
  rw [List.append_assoc pre]
  exact Iff.rfl

/-! ## Symbols with a colon -/

/-- Rules that are there already add nothing. -/
theorem replaceTokens_append_of_mem {rules more : List Rule} (h : ∀ s ∈ more, s ∈ rules)
    (cs : List Char) : replaceTokens (rules ++ more) cs = replaceTokens rules cs := by
  apply replaceTokensFrom_congr_rules
  intro b cs
  rw [Rule.first?_append]
  cases hf : Rule.first? rules b cs with
  | some p => rfl
  | none =>
    rw [Option.none_or, Rule.first?_eq_none_iff]
    exact fun s hs => (Rule.first?_eq_none_iff rules b cs).mp hf s (h s hs)

/-- No symbol with a colon is left: a pass that looks for it once more finds nothing. -/
theorem not_hasColonSymbol_replaceTokens (cs : List Char) :
    ¬ HasColonSymbol (replaceTokens passes.flatten cs) := by
  rw [hasColonSymbol_iff]
  rintro ⟨s, hs, hc, ho⟩
  have hmem : ∀ r ∈ [s], r ∈ passes.flatten := by
    intro r hr
    rwa [List.mem_singleton.mp hr]
  have hfuse : replaceTokens [s] (replaceTokens passes.flatten cs) =
      replaceTokens passes.flatten cs := by
    rw [replaceTokens_fuse (fun _ => lexical_of_mem) (fun r hr => lexical_of_mem (hmem r hr))
      (fun _ => neat_of_mem) ?_ cs, replaceTokens_append_of_mem hmem]
    intro r hr t ht
    rw [List.mem_singleton.mp ht]
    exact leavesAlone_of_colon hs hr hc
  exact (replaceTokensFrom_eq_self_iff (fun r hr => shrinks_of_mem (hmem r hr)) none _).mp hfuse s
    List.mem_cons_self ho

/-! ## Words that stand for the context -/

section
variable {x : String} (hx : x ∈ ["this", "self"]) {m : Char} {w : List Char}
  (hm : Text.isWord m = false) (hw : AllWord w)

include hx

theorem lexical_context : (Rule.context x).Lexical :=
  lexical_of_mem (mem_passes.mpr (Or.inl ⟨x, hx, rfl⟩))

include hw

/-- In a run such a word stands alone if it is the run's word. -/
theorem occurs_context_run (hm : Text.isWord m = false) (b : Option Char) :
    (Rule.context x).Occurs b (m :: w) ↔ w = x.toList := by
  rw [(lexical_context hx).occurs_run_iff b m hw]
  constructor
  · rintro (h | h)
    · -- a word cannot start with the first character of a run
      exfalso
      obtain ⟨rest, -, hf⟩ := ((lexical_context hx).applies_mark hm h).2 (some 'a')
      simp [Rule.context, show isBreak (some 'a') = false from by decide] at hf
    · exact ((lexical_context hx).token_eq_of_applies hw h).symm
  · rintro rfl
    refine Or.inr ⟨[], (List.append_nil _).symm, ?_⟩
    simp [Rule.context, isBreak, hm]

theorem occurs_rooted_run (b : Option Char) :
    (Rule.rooted x).Occurs b (m :: w) ↔ m :: w = ":root".toList ++ x.toList := by
  rw [(lexical_rooted hx).occurs_run_iff b m hw]
  constructor
  · rintro (⟨rest, h, hf⟩ | h)
    · have hrest : AllWord rest := by
        have : w = ("root".toList ++ x.toList) ++ rest := (List.cons.inj h).2
        rw [this] at hw
        exact hw.of_append_right
      rw [h, hrest.eq_nil_of_isBreak hf, List.append_nil]
      rfl
    · exfalso
      have ht := (lexical_rooted hx).token_eq_of_applies hw h
      exact hw.colon_not_mem (ht ▸ List.mem_cons_self)
  · intro h
    exact Or.inl ⟨[], by rw [h, List.append_nil]; rfl, rfl⟩

omit hx hw in
/-- The tokens without a colon are those of the words that stand for the context. -/
theorem eq_context_of_allWord {r : Rule} (hr : r ∈ passes.flatten) (h : AllWord r.token) :
    ∃ v ∈ ["this", "self"], r = .context v := by
  rcases mem_passes.mp hr with h' | ⟨v, -, rfl⟩ | rfl | ⟨v, -, rfl⟩
  · exact h'
  · exact absurd (show ':' ∈ (":" ++ v).toList by simp) h.colon_not_mem
  · exact absurd (show ':' ∈ ":root".toList by decide) h.colon_not_mem
  · exact absurd (show ':' ∈ ':' :: v.toList by simp) h.colon_not_mem

omit hw in
/-- The words behind the other symbols are no context words, nor are they `root`. -/
theorem append_ne_of_mem {v : String} (hv : v ∈ ["name", "key", "value"] ++ ["match", "text"])
    (y : List Char) :
    v.toList ++ y ≠ x.toList ∧ ':' :: (v.toList ++ y) ≠ ":root".toList ++ x.toList := by
  have hall : ∀ v ∈ ["name", "key", "value"] ++ ["match", "text"], ∀ x ∈ ["this", "self"],
      ¬ v.toList.isPrefixOf x.toList = true ∧
        ¬ (':' :: v.toList).isPrefixOf (":root".toList ++ x.toList) = true := by
    decide
  constructor
  · intro h
    apply (hall v hv x hx).1
    rw [List.isPrefixOf_iff_prefix, ← h]
    exact List.prefix_append _ _
  · intro h
    apply (hall v hv x hx).2
    rw [List.isPrefixOf_iff_prefix, ← h]
    exact List.prefix_append _ _

include hm

/-- What is written for a token at the start of a run ends with a context word that stands alone
if the token is `:root` and the word follows it. -/
theorem occurs_written_token {r : Rule} (hr : r ∈ passes.flatten) {y : List Char}
    (hy : m :: w = r.token ++ y) (hyw : AllWord y) (b b' : Option Char) :
    (Rule.context x).Occurs b' (r.output b ++ y) ↔ m :: w = ":root".toList ++ x.toList := by
  -- behind a dot or in its place, the word is none that stands for the context
  have hother : ∀ v ∈ ["name", "key", "value"] ++ ["match", "text"], m = ':' → w = v.toList ++ y →
      (¬ (Rule.context x).Occurs b' ('.' :: w) ∧ ¬ (Rule.context x).Occurs b' w) ∧
        m :: w ≠ ":root".toList ++ x.toList := by
    rintro v hv rfl hwv
    obtain ⟨h1, h2⟩ := append_ne_of_mem hx hv y
    rw [← hwv] at h1 h2
    refine ⟨⟨fun h => h1 ?_, fun h => h1 ?_⟩, h2⟩
    · exact (occurs_context_run hx hw (by decide) b').mp h
    · exact ((lexical_context hx).token_eq_of_applies hw
        ((lexical_context hx).applies_of_occurs hw h)).symm
  rcases mem_passes.mp hr with ⟨v, hv, rfl⟩ | ⟨v, hv, rfl⟩ | rfl | ⟨v, hv, rfl⟩
  · exfalso
    have hmem : m ∈ v.toList := by
      cases ht : v.toList with
      | nil => exact absurd ht (lexical_context hv).token_ne_nil
      | cons c t =>
        rw [show (Rule.context v).token = c :: t from ht, List.cons_append, List.cons.injEq] at hy
        rw [hy.1]
        exact List.mem_cons_self
    rw [(word_of_mem (Or.inl hv)).2 m hmem] at hm
    cases hm
  · rw [show (Rule.literal (":" ++ v) ("." ++ v)).token = _ from toList_colon v, List.cons_append,
      List.cons.injEq] at hy
    obtain ⟨h1, h2⟩ := hother v (List.mem_append_left _ hv) hy.1 hy.2
    rw [show (Rule.literal (":" ++ v) ("." ++ v)).output b = _ from toList_dot v, List.cons_append,
      ← hy.2]
    exact iff_of_false h1.1 h2
  · show (Rule.context x).Occurs b' ('$' :: y) ↔ _
    rw [occurs_context_run hx hyw (by decide) b', hy]
    exact (List.append_cancel_left_eq _ _ _).symm.to_iff
  · rw [show (Rule.selector v).token = ':' :: v.toList from rfl, List.cons_append,
      List.cons.injEq] at hy
    obtain ⟨h1, h2⟩ := hother v (List.mem_append_right _ hv) hy.1 hy.2
    refine iff_of_false ?_ h2
    show ¬ (Rule.context x).Occurs b' ((if isAccessor b then v.toList else '.' :: v.toList) ++ y)
    split
    · rw [← hy.2]
      exact h1.2
    · rw [List.cons_append, ← hy.2]
      exact h1.1

/-- In what is written for a run, a context word stands alone if it stood behind `:root`. -/
theorem occurs_written_run (b b' : Option Char) :
    (Rule.context x).Occurs b' (replaceTokensFrom passes.flatten 0 b (m :: w)) ↔
      (Rule.rooted x).Occurs b (m :: w) := by
  rw [occurs_rooted_run hx hw b]
  rcases run_cases (fun _ => lexical_of_mem) b m hw with
    ⟨r, hr, y, hy, hyw, -, he⟩ | ⟨r, hr, hwr, -, -, he⟩ | ⟨ho, he⟩
  · rw [he]
    exact occurs_written_token hx hm hw hr hy hyw b b'
  · obtain ⟨v, hv, rfl⟩ := eq_context_of_allWord hr (hwr ▸ hw)
    rw [he]
    refine iff_of_false ?_ ?_
    · -- no word is left in its place
      rintro ⟨pre, post, h, -⟩
      have hall : (" $ ".toList.all fun c => !Text.isWord c) = true := by decide
      obtain ⟨c, t, ht⟩ : ∃ c t, x.toList = c :: t :=
        List.exists_cons_of_ne_nil (lexical_context hx).token_ne_nil
      have hcw : Text.isWord c = true := (word_of_mem (Or.inl hx)).2 c (ht ▸ List.mem_cons_self)
      have hmem : c ∈ m :: " $ ".toList := by
        rw [show m :: " $ ".toList = pre ++ x.toList ++ post from h, ht]
        simp
      rcases List.mem_cons.mp hmem with rfl | hmem
      · rw [hm] at hcw
        cases hcw
      · have hc := List.all_eq_true.mp hall c hmem
        rw [hcw] at hc
        cases hc
    · have hall : ∀ v ∈ ["this", "self"], ∀ x ∈ ["this", "self"],
          v.toList ≠ "root".toList ++ x.toList := by
        decide
      intro h
      exact hall v hv x hx (hwr.symm.trans (List.cons.inj h).2)
  · rw [he, occurs_context_run hx hw hm b']
    constructor
    · intro h
      refine absurd ?_ (ho (.context x) (mem_passes.mpr (Or.inl ⟨x, hx, rfl⟩)))
      exact (occurs_context_run hx hw hm b).mpr h
    · intro h
      refine absurd ?_ (ho (.literal ":root" "$") (mem_passes.mpr (Or.inr (Or.inr (Or.inl rfl)))))
      exact ⟨[], x.toList, h, rfl⟩

omit hm hw

/-- From a place where no word goes on, the context words left are those behind `:root`. -/
theorem occurs_written {cs : List Char} (h : isBreak cs.head? = true) :
    ∀ b b', (Rule.context x).Occurs b' (replaceTokensFrom passes.flatten 0 b cs) ↔
      (Rule.rooted x).Occurs b cs := by
  have hl : ∀ r ∈ passes.flatten, r.Lexical := fun _ => lexical_of_mem
  induction cs, h using runs_induction with
  | nil =>
    intro b b'
    exact iff_of_false (Rule.not_occurs_nil (lexical_context hx).token_ne_nil b')
      (Rule.not_occurs_nil (lexical_rooted hx).token_ne_nil b)
  | run m w rest hm hw hrest ih =>
    intro b b'
    have hs := seam_written hl (fun _ => neat_of_mem) b b' m hw hrest
    rw [replaceTokensFrom_append hl (Or.inl hrest), occurs_append (lexical_context hx) b' _ _ hs,
      occurs_append (lexical_rooted hx) b _ _ (Or.inl hrest), occurs_written_run hx hm hw, ih]

end

/-- A context word is left if and only if one stood behind `:root`. -/
theorem hasContextWord_replaceTokens (cs : List Char) :
    HasContextWord (replaceTokens passes.flatten cs) ↔ HasRootedWord cs := by
  rw [hasContextWord_iff, hasRootedWord_iff]
  refine exists_congr fun x => and_congr_right fun hx => ?_
  rw [← occurs_blank (lexical_context hx), ← occurs_blank (lexical_rooted hx)]
  show (Rule.context x).Occurs none (' ' :: replaceTokensFrom passes.flatten 0 none cs) ↔ _
  rw [← replaceTokensFrom_blank fun _ => lexical_of_mem]
  exact occurs_written hx rfl none none

/-! ## Expanding again -/

theorem hasContextWord_trimQuery (cs : List Char) :
    HasContextWord (trimQuery cs) ↔ HasContextWord cs := by
  rw [hasContextWord_iff, hasContextWord_iff]
  exact exists_congr fun x => and_congr_right fun hx => occurs_trimQuery (lexical_context hx) cs

theorem hasRootedWord_trimQuery (cs : List Char) :
    HasRootedWord (trimQuery cs) ↔ HasRootedWord cs := by
  rw [hasRootedWord_iff, hasRootedWord_iff]
  exact exists_congr fun x => and_congr_right fun hx => occurs_trimQuery (lexical_rooted hx) cs

theorem not_hasColonSymbol_expandChars (cs : List Char) : ¬ HasColonSymbol (expandChars cs) := by
  rw [expandChars_eq]
  exact not_hasColonSymbol_replaceTokens _

theorem hasContextWord_expandChars (cs : List Char) :
    HasContextWord (expandChars cs) ↔ HasRootedWord cs := by
  rw [expandChars_eq, hasContextWord_replaceTokens, hasRootedWord_trimQuery]

theorem hasColonSymbol_of_hasRootedWord {cs : List Char} (h : HasRootedWord cs) :
    HasColonSymbol cs := by
  obtain ⟨w, -, pre, post, rfl, -⟩ := h
  exact ⟨"root", by decide, pre, w.toList ++ post, by simp⟩

/-- A symbol stands in a text where a rule finds its token. -/
theorem hasSymbol_iff (cs : List Char) :
    HasSymbol cs ↔ ∃ r ∈ passes.flatten, r.Occurs none cs := by
  unfold HasSymbol
  rw [hasContextWord_iff, hasColonSymbol_iff]
  constructor
  · rintro (⟨w, hw, ho⟩ | ⟨r, hr, -, ho⟩)
    · exact ⟨.context w, mem_passes.mpr (Or.inl ⟨w, hw, rfl⟩), ho⟩
    · exact ⟨r, hr, ho⟩
  · rintro ⟨r, hr, ho⟩
    by_cases hc : r.token.head? = some ':'
    · exact Or.inr ⟨r, hr, hc, ho⟩
    · have hall : ∀ r ∈ passes.flatten, r.token.head? ≠ some ':' → AllWord r.token := by decide
      obtain ⟨w, hw, rfl⟩ := eq_context_of_allWord hr (hall r hr hc)
      exact Or.inl ⟨w, hw, ho⟩

/-- Expansion only trims a query if and only if no symbol stands in it. -/
theorem expandChars_eq_trimQuery_iff (cs : List Char) :
    expandChars cs = trimQuery cs ↔ ¬ HasSymbol cs := by
  rw [expandChars_eq, hasSymbol_iff]
  show replaceTokensFrom passes.flatten 0 none (trimQuery cs) = trimQuery cs ↔ _
  rw [replaceTokensFrom_eq_self_iff fun _ => shrinks_of_mem]
  constructor
  · rintro h ⟨r, hr, ho⟩
    exact h r hr ((occurs_trimQuery (lexical_of_mem hr) cs).mpr ho)
  · intro h r hr ho
    exact h ⟨r, hr, (occurs_trimQuery (lexical_of_mem hr) cs).mp ho⟩

theorem expandChars_eq_trimQuery {cs : List Char} (hcolon : ¬ HasColonSymbol cs)
    (hcontext : ¬ HasContextWord cs) : expandChars cs = trimQuery cs :=
  (expandChars_eq_trimQuery_iff cs).mpr (not_or.mpr ⟨hcontext, hcolon⟩)

/-- A second expansion leaves no context word. -/
theorem not_hasContextWord_twice (cs : List Char) :
    ¬ HasContextWord (expandChars (expandChars cs)) := by
  rw [hasContextWord_expandChars]
  exact fun h => not_hasColonSymbol_expandChars cs (hasColonSymbol_of_hasRootedWord h)

/-- From the third expansion on there is nothing but margins to take off. -/
theorem expandChars_thrice (cs : List Char) :
    expandChars (expandChars (expandChars cs)) = trimQuery (expandChars (expandChars cs)) :=
  expandChars_eq_trimQuery (not_hasColonSymbol_expandChars _) (not_hasContextWord_twice cs)

theorem expandChars_settles (cs : List Char) :
    expandChars (expandChars (expandChars (expandChars cs))) =
      expandChars (expandChars (expandChars cs)) := by
  rw [expandChars_thrice (expandChars cs), expandChars_thrice cs]
  exact Text.trimBy_trimBy isMargin _

/-! ## Top theorems -/

/-- What is left after expansion, and after how many steps nothing changes any more. -/
theorem expandText_residue (s : String) :
    ¬ HasColonSymbol (expandText s).toList ∧
      (HasContextWord (expandText s).toList ↔ HasRootedWord s.toList) ∧
      expandText (expandText (expandText (expandText s))) =
        expandText (expandText (expandText s)) := by
  rw [toList_expandText]
  refine ⟨not_hasColonSymbol_expandChars _, hasContextWord_expandChars _, ?_⟩
  rw [← String.toList_inj]
  simp only [toList_expandText]
  exact expandChars_settles s.toList

/-- Expanding again only trims, if and only if no context word stood behind `:root`. -/
theorem expandText_twice_iff (s : String) :
    expandText (expandText s) = trimText (expandText s) ↔ ¬ HasRootedWord s.toList := by
  rw [← String.toList_inj, ← hasContextWord_expandChars]
  simp only [toList_expandText, toList_trimText]
  constructor
  · intro h hc
    apply not_hasContextWord_twice s.toList
    rw [h]
    exact (hasContextWord_trimQuery _).mpr hc
  · exact expandChars_eq_trimQuery (not_hasColonSymbol_expandChars _)

/-- A context word behind `:root` is expanded the second time. -/
theorem expandText_twice_rootthis :
    expandText (expandText ":rootthis") ≠ trimText (expandText ":rootthis") := by
  decide

end Shorthand
