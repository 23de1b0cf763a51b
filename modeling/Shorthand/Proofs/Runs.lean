import Shorthand.Proofs.Seams

/-!
# Runs of a text

A run is a character that is no word character, with the word that follows it.  From a place
where a word cannot go on, a text is a sequence of runs (`runs_induction`), and between two runs
there is a seam.  Inside a run a rule of the shorthand applies at the start or at the word
(`occurs_run_iff`), and a rewriting does one of three things to it (`run_cases`):

    a rule takes the first character and part of the word, and the rest of the word is copied
    a rule takes the word, and the first character is copied
    all is copied

What is written for a run still ends at a seam as long as the rules write neatly (`Rule.Neat`,
`seam_written`).
-/

namespace Shorthand

/-! ## Words -/

theorem isBreak_lastOr_of_allWord {w : List Char} (hw : AllWord w) {b : Option Char}
    (hb : isBreak b = false) : isBreak (lastOr b w) = false := by
  by_cases hne : w = []
  · subst hne
    exact hb
  · obtain ⟨c, hc, he⟩ := lastOr_mem b w hne
    rw [he]
    simp [isBreak, hw c hc]

theorem isAccessor_lastOr_of_allWord {w : List Char} (hw : AllWord w) {b : Option Char}
    (hb : isAccessor b = false) : isAccessor (lastOr b w) = false := by
  by_cases hne : w = []
  · subst hne
    exact hb
  · obtain ⟨c, hc, he⟩ := lastOr_mem b w hne
    rw [he]
    exact isAccessor_eq_false (by simp [isBreak, hw c hc])

theorem AllWord.of_append_right {w x : List Char} (h : AllWord (w ++ x)) : AllWord x :=
  fun c hc => h c (List.mem_append_right w hc)

theorem AllWord.colon_not_mem {w : List Char} (hw : AllWord w) : ':' ∉ w := by
  intro h
  have := hw ':' h
  revert this
  decide

/-- A word that is followed by no word character is over. -/
theorem AllWord.eq_nil_of_isBreak {w : List Char} (hw : AllWord w) (h : isBreak w.head? = true) :
    w = [] := by
  cases w with
  | nil => rfl
  | cons c w => simp [isBreak, hw c List.mem_cons_self] at h

namespace Rule

/-- No token starts inside a word. -/
theorem Lexical.not_applies_inside {r : Rule} (hr : r.Lexical) {b : Option Char} {c : Char}
    {cs : List Char} (hb : isBreak b = false) (hc : Text.isWord c = true) :
    ¬ r.Applies b (c :: cs) := by
  rintro ⟨rest, h, hf⟩
  cases hr with
  | colon ends out hne hw =>
    simp only [List.cons_append, List.cons.injEq] at h
    rw [h.1] at hc
    revert hc
    decide
  | word out hne hw => simp [hb] at hf

/-- At a word only a rule for that word applies. -/
theorem Lexical.token_eq_of_applies {r : Rule} (hr : r.Lexical) {b : Option Char} {w : List Char}
    (hw : AllWord w) (h : r.Applies b w) : r.token = w := by
  obtain ⟨rest, rfl, hf⟩ := h
  cases hr with
  | colon ends out hne hv =>
    exact absurd (List.mem_append_left rest List.mem_cons_self) hw.colon_not_mem
  | word out hne hv =>
    simp only [Bool.and_eq_true] at hf
    rw [hw.of_append_right.eq_nil_of_isBreak hf.2, List.append_nil]

/-- At a character that is no word character only rules for a colon apply, whatever stands
before it. -/
theorem Lexical.applies_mark {r : Rule} (hr : r.Lexical) {b : Option Char} {m : Char}
    {cs : List Char} (hm : Text.isWord m = false) (h : r.Applies b (m :: cs)) :
    m = ':' ∧ ∀ b', r.Applies b' (m :: cs) := by
  obtain ⟨rest, h, hf⟩ := h
  cases hr with
  | colon ends out hne hw =>
    simp only [List.cons_append, List.cons.injEq] at h
    obtain ⟨rfl, rfl⟩ := h
    exact ⟨rfl, fun _ => ⟨rest, rfl, hf⟩⟩
  | @word w out hne hw =>
    exfalso
    cases w with
    | nil => exact hne rfl
    | cons c t =>
      simp only [List.cons_append, List.cons.injEq] at h
      have := hw c List.mem_cons_self
      rw [← h.1, hm] at this
      cases this

/-- A rule for words applies inside a word only if it applies to the word. -/
theorem Lexical.applies_of_occurs {r : Rule} (hr : r.Lexical) {b : Option Char} {w : List Char}
    (hw : AllWord w) (h : r.Occurs b w) : r.Applies b w := by
  cases w with
  | nil => exact absurd h (not_occurs_nil hr.token_ne_nil b)
  | cons c w =>
    rcases (r.occurs_cons_iff b c w).mp h with h | h
    · exact h
    · exfalso
      obtain ⟨pre, post, rfl, hf⟩ := h
      -- the token would start right after a word character
      have hc : isBreak (some c) = false := by simp [isBreak, hw c List.mem_cons_self]
      have hpre : isBreak (lastOr (some c) pre) = false :=
        isBreak_lastOr_of_allWord (fun d hd => hw d (by simp [hd])) hc
      cases hr with
      | colon ends out hne hv => exact hw.colon_not_mem (by simp)
      | word out hne hv => simp [hpre] at hf

/-- A token in a run stands at its start, or it is the run's word. -/
theorem Lexical.occurs_run_iff {r : Rule} (hr : r.Lexical) (b : Option Char) (m : Char)
    {w : List Char} (hw : AllWord w) :
    r.Occurs b (m :: w) ↔ r.Applies b (m :: w) ∨ r.Applies (some m) w := by
  rw [r.occurs_cons_iff]
  refine or_congr Iff.rfl ⟨hr.applies_of_occurs hw, ?_⟩
  rintro ⟨rest, h, hf⟩
  exact ⟨[], rest, h, hf⟩

end Rule

/-- Behind a blank stand the tokens that stand from the start of a text. -/
theorem occurs_blank {r : Rule} (hr : r.Lexical) (cs : List Char) :
    r.Occurs none (' ' :: cs) ↔ r.Occurs none cs := by
  rw [r.occurs_cons_iff, hr.occurs_congr cs (show isBreak (some ' ') = isBreak none by decide)]
  refine or_iff_right fun h => ?_
  exact absurd (hr.applies_mark (by decide) h).1 (by decide)

/-! ## Runs -/

/-- A text from a place where no word goes on is a sequence of runs. -/
theorem runs_induction {motive : (cs : List Char) → isBreak cs.head? = true → Prop}
    (nil : motive [] rfl)
    (run : ∀ (m : Char) (w rest : List Char) (hm : Text.isWord m = false) (_ : AllWord w)
      (hrest : isBreak rest.head? = true), motive rest hrest →
      motive (m :: w ++ rest) (isBreak_of_not_isWord hm))
    (cs : List Char) (h : isBreak cs.head? = true) : motive cs h := by
  suffices hall : ∀ n, ∀ cs : List Char, cs.length ≤ n → ∀ h, motive cs h from
    hall cs.length cs (Nat.le_refl _) h
  intro n
  induction n with
  | zero =>
    intro cs hlen _
    obtain rfl := List.length_eq_zero_iff.mp (Nat.le_zero.mp hlen)
    exact nil
  | succ n ih =>
    intro cs hlen hb
    cases cs with
    | nil => exact nil
    | cons m cs =>
      have hm : Text.isWord m = false := by simpa [isBreak] using hb
      have hrest : isBreak (cs.dropWhile Text.isWord).head? = true := by
        cases hd : (cs.dropWhile Text.isWord).head? with
        | none => rfl
        | some c =>
          have := List.head?_dropWhile_not Text.isWord cs
          rw [hd] at this
          simpa [isBreak] using this
      have hle : (cs.dropWhile Text.isWord).length ≤ n := by
        have := (List.dropWhile_suffix Text.isWord (l := cs)).length_le
        simp only [List.length_cons] at hlen
        omega
      have := run m (cs.takeWhile Text.isWord) (cs.dropWhile Text.isWord) hm
        (List.all_eq_true.mp List.all_takeWhile) hrest (ih _ hle hrest)
      simpa only [List.cons_append, List.takeWhile_append_dropWhile] using this

section
variable {rules : List Rule} (hl : ∀ r ∈ rules, r.Lexical)

include hl

/-- What follows a word character in a word is copied. -/
theorem replaceTokensFrom_inside {b : Option Char} {w : List Char} (hw : AllWord w)
    (hb : isBreak b = false) : replaceTokensFrom rules 0 b w = w := by
  apply replaceTokensFrom_eq_self
  intro r hr ho
  cases w with
  | nil => exact Rule.not_occurs_nil (hl r hr).token_ne_nil b ho
  | cons c w =>
    exact (hl r hr).not_applies_inside hb (hw c List.mem_cons_self)
      ((hl r hr).applies_of_occurs hw ho)

/-- A character that is no word character, and no word after it, is copied. -/
theorem replaceTokensFrom_mark (b : Option Char) {m : Char} (hm : Text.isWord m = false) :
    replaceTokensFrom rules 0 b [m] = [m] := by
  rw [replaceTokensFrom_copy]
  · rfl
  · rintro r hr ⟨rest, h, -⟩
    rcases List.append_eq_singleton_iff.mp h.symm with ⟨ht, -⟩ | ⟨ht, -⟩
    · exact (hl r hr).token_ne_nil ht
    · have := (hl r hr).isBreak_lastOr b
      rw [ht, show lastOr b [m] = some m from rfl, isBreak_of_not_isWord hm] at this
      cases this

/-- Of what stands before a text it matters only whether a word ends there and whether a selector
attaches to it. -/
theorem replaceTokensFrom_neighbour {b b' : Option Char} (hbreak : isBreak b = isBreak b')
    (haccessor : isAccessor b = isAccessor b') (cs : List Char) :
    replaceTokensFrom rules 0 b cs = replaceTokensFrom rules 0 b' cs := by
  refine replaceTokensFrom_congr (Rule.first?_congr (fun r hr => ?_) fun r hr _ => ?_)
  · refine exists_congr fun rest => and_congr_right fun _ => ?_
    rw [(hl r hr).fits_before rest.head? hbreak]
  · exact (hl r hr).output_congr haccessor

/-- A text can be read behind a character that no token reaches over, and to which no selector
attaches, as from its start. -/
theorem replaceTokensFrom_behind (b : Option Char) {c : Char} (hc : Text.isWord c = false)
    (hcolon : c ≠ ':') (haccessor : isAccessor (some c) = false) (cs : List Char) :
    replaceTokensFrom rules 0 b (c :: cs) = c :: replaceTokensFrom rules 0 none cs := by
  have hbreak : isBreak (some c) = true := isBreak_of_not_isWord hc
  have hseam : Seam (lastOr b [c]) cs := Or.inr ⟨hbreak, fun h => hcolon (Option.some.inj h)⟩
  rw [← List.singleton_append, replaceTokensFrom_append hl hseam, replaceTokensFrom_mark hl b hc,
    List.singleton_append]
  exact congrArg (c :: ·) (replaceTokensFrom_neighbour hl hbreak haccessor cs)

/-- A text can be read behind a blank as from its start. -/
theorem replaceTokensFrom_blank (cs : List Char) :
    replaceTokensFrom rules 0 none (' ' :: cs) = ' ' :: replaceTokensFrom rules 0 none cs :=
  replaceTokensFrom_behind hl none (by decide) (by decide) (by decide) cs

/-- What a rewriting does to a run. -/
theorem run_cases (b : Option Char) (m : Char) {w : List Char} (hw : AllWord w) :
    (∃ r ∈ rules, ∃ x, m :: w = r.token ++ x ∧ AllWord x ∧
      Rule.first? rules b (m :: w) = some (r.output b, r.token.length) ∧
      replaceTokensFrom rules 0 b (m :: w) = r.output b ++ x) ∨
    (∃ r ∈ rules, w = r.token ∧ (∀ s ∈ rules, ¬ s.Applies b (m :: w)) ∧
      Rule.first? rules (some m) w = some (r.output (some m), w.length) ∧
      replaceTokensFrom rules 0 b (m :: w) = m :: r.output (some m)) ∨
    ((∀ r ∈ rules, ¬ r.Occurs b (m :: w)) ∧ replaceTokensFrom rules 0 b (m :: w) = m :: w) := by
  cases h : Rule.first? rules b (m :: w) with
  | some p =>
    left
    obtain ⟨out, n⟩ := p
    obtain ⟨r, hr, ⟨x, hx, -⟩, rfl, rfl⟩ := Rule.first?_eq_some h
    have hne := (hl r hr).token_ne_nil
    have hxw : AllWord x := by
      cases ht : r.token with
      | nil => exact absurd ht hne
      | cons c t =>
        rw [ht, List.cons_append, List.cons.injEq] at hx
        rw [hx.2] at hw
        exact hw.of_append_right
    refine ⟨r, hr, x, hx, hxw, rfl, ?_⟩
    rw [hx] at h ⊢
    rw [replaceTokensFrom_token hne h,
      replaceTokensFrom_inside hl hxw ((hl r hr).isBreak_lastOr b)]
  | none =>
    right
    have ha := (Rule.first?_eq_none_iff rules b (m :: w)).mp h
    cases h' : Rule.first? rules (some m) w with
    | some p =>
      left
      obtain ⟨out, n⟩ := p
      obtain ⟨r, hr, hap, rfl, rfl⟩ := Rule.first?_eq_some h'
      have ht := (hl r hr).token_eq_of_applies hw hap
      refine ⟨r, hr, ht.symm, ha, by rw [ht], ?_⟩
      rw [replaceTokensFrom_copy ha]
      have h2 : Rule.first? rules (some m) (r.token ++ []) =
          some (r.output (some m), r.token.length) := by
        rw [List.append_nil, ht, h', ht]
      rw [← ht, ← List.append_nil r.token, replaceTokensFrom_token (hl r hr).token_ne_nil h2,
        replaceTokensFrom, List.append_nil]
    | none =>
      right
      have ha' := (Rule.first?_eq_none_iff rules (some m) w).mp h'
      have ho : ∀ r ∈ rules, ¬ r.Occurs b (m :: w) := by
        intro r hr ho
        exact (((hl r hr).occurs_run_iff b m hw).mp ho).elim (ha r hr) (ha' r hr)
      exact ⟨ho, replaceTokensFrom_eq_self ho⟩

end

/-! ## What is written for runs -/

/-- A rule that writes something, which ends with no accessor, and which starts with a word
character only where the selector attaches to what stands before it. -/
structure Rule.Neat (r : Rule) : Prop where
  ne_nil : ∀ b, r.output b ≠ []
  opens : ∀ b, isAccessor b = false → isBreak (r.output b).head? = true
  ends : ∀ b b', isAccessor (lastOr b' (r.output b)) = false

section
variable {rules : List Rule} (hl : ∀ r ∈ rules, r.Lexical) (hn : ∀ r ∈ rules, r.Neat)

include hl hn

/-- A selector attaches to what is written for a run if and only if it attaches to the run. -/
theorem isAccessor_written (b b' : Option Char) (m : Char) {w : List Char} (hw : AllWord w) :
    isAccessor (lastOr b' (replaceTokensFrom rules 0 b (m :: w))) =
      isAccessor (lastOr b (m :: w)) := by
  rcases run_cases hl b m hw with ⟨r, hr, x, hx, hxw, -, he⟩ | ⟨r, hr, hwr, -, -, he⟩ | ⟨-, he⟩
  · rw [he, hx, lastOr_append, lastOr_append,
      isAccessor_lastOr_of_allWord hxw ((hn r hr).ends b b'),
      isAccessor_lastOr_of_allWord hxw (isAccessor_eq_false ((hl r hr).isBreak_lastOr b))]
  · rw [he, hwr]
    show isAccessor (lastOr (some m) (r.output (some m))) = isAccessor (lastOr (some m) r.token)
    rw [(hn r hr).ends, isAccessor_eq_false ((hl r hr).isBreak_lastOr (some m))]
  · rw [he]
    rfl

omit hl in
/-- Behind a character to which no selector attaches, no word is continued. -/
theorem isBreak_head_written {b : Option Char} {cs : List Char} (hb : isAccessor b = false)
    (h : isBreak cs.head? = true) : isBreak (replaceTokensFrom rules 0 b cs).head? = true := by
  cases cs with
  | nil => rfl
  | cons m cs =>
    rw [replaceTokensFrom]
    cases hf : Rule.first? rules b (m :: cs) with
    | none => exact h
    | some p =>
      obtain ⟨out, n⟩ := p
      obtain ⟨r, hr, -, rfl, rfl⟩ := Rule.first?_eq_some hf
      have ho := (hn r hr).opens b hb
      cases hout : r.output b with
      | nil => exact absurd hout ((hn r hr).ne_nil b)
      | cons d out => rw [hout] at ho; exact ho

/-- What is written for a run and what is written for the text behind it meet at a seam. -/
theorem seam_written (b b' : Option Char) (m : Char) {w rest : List Char} (hw : AllWord w)
    (hrest : isBreak rest.head? = true) :
    Seam (lastOr b' (replaceTokensFrom rules 0 b (m :: w)))
      (replaceTokensFrom rules 0 (lastOr b (m :: w)) rest) := by
  cases ha : isAccessor (lastOr b (m :: w)) with
  | true =>
    apply Seam.of_isAccessor
    rw [isAccessor_written hl hn b b' m hw, ha]
  | false => exact Or.inl (isBreak_head_written hn ha hrest)

end

end Shorthand
