import Shorthand.Expansion

/-!
# Seams of a text

The tokens of the shorthand are words, some with a colon in front (`Rule.Lexical`).  So no token
reaches over a place of a text that is followed by no word character, or that stands right after a
character which is neither a word character nor a colon: such a place is a seam (`Seam`).  What
is written for a text, and where tokens stand in it, can be worked out on either side of a seam:

    replaceTokensFrom rules 0 b (u ++ v)                          (replaceTokensFrom_append)
      = replaceTokensFrom rules 0 b u ++ replaceTokensFrom rules 0 (lastOr b u) v
    r.Occurs b (u ++ v) ↔ r.Occurs b u ∨ r.Occurs (lastOr b u) v               (occurs_append)

A text is copied if and only if no token stands in it (`replaceTokensFrom_eq_self_iff`).
-/

namespace Shorthand

/-! ## Neighbours -/

/-- The character right before what follows `cs`, where `before` stands right before `cs`. -/
def lastOr (before : Option Char) : List Char → Option Char
  | [] => before
  | c :: cs => lastOr (some c) cs

@[simp]
theorem lastOr_append (before : Option Char) (cs ds : List Char) :
    lastOr before (cs ++ ds) = lastOr (lastOr before cs) ds := by
  induction cs generalizing before with
  | nil => rfl
  | cons c cs ih => exact ih (some c)

theorem lastOr_mem (before : Option Char) (cs : List Char) (hne : cs ≠ []) :
    ∃ c ∈ cs, lastOr before cs = some c := by
  induction cs generalizing before with
  | nil => exact absurd rfl hne
  | cons c cs ih =>
    by_cases h : cs = []
    · subst h
      exact ⟨c, List.mem_cons_self, rfl⟩
    · obtain ⟨d, hd, he⟩ := ih (some c) h
      exact ⟨d, List.mem_cons_of_mem c hd, he⟩

theorem lastOr_congr (b b' : Option Char) {cs : List Char} (hne : cs ≠ []) :
    lastOr b cs = lastOr b' cs := by
  cases cs with
  | nil => exact absurd rfl hne
  | cons c cs => rfl

theorem lastOr_none (cs : List Char) : lastOr none cs = cs.getLast? := by
  suffices h : ∀ b, lastOr b cs = cs.getLast?.or b by
    rw [h none, Option.or_none]
  induction cs with
  | nil => intro b; rfl
  | cons c cs ih =>
    intro b
    show lastOr (some c) cs = _
    rw [ih (some c), List.getLast?_cons]
    cases cs.getLast? <;> rfl

theorem isBreak_of_not_isWord {c : Char} (h : Text.isWord c = false) : isBreak (some c) = true := by
  simp [isBreak, h]

/-- Accessors are no word characters. -/
theorem isBreak_of_isAccessor {b : Option Char} (h : isAccessor b = true) : isBreak b = true := by
  cases b with
  | none => rfl
  | some c =>
    simp only [isAccessor, Bool.or_eq_true, beq_iff_eq] at h
    rcases h with (rfl | rfl) | rfl <;> decide

theorem isAccessor_eq_false {b : Option Char} (h : isBreak b = false) : isAccessor b = false := by
  cases ha : isAccessor b with
  | false => rfl
  | true =>
    rw [isBreak_of_isAccessor ha] at h
    cases h

/-! ## Rules that look for words -/

/-- True of a text of word characters only. -/
def AllWord (cs : List Char) : Prop := ∀ c ∈ cs, Text.isWord c = true

instance (cs : List Char) : Decidable (AllWord cs) :=
  decidable_of_iff (cs.all Text.isWord = true) List.all_eq_true

/-- The rules of the shorthand: a word that stands alone, or a colon and a word, which may have to
end there.  What is written depends on the character before the token only as far as selectors
attach to it. -/
inductive Rule.Lexical : Rule → Prop
  | colon {w : List Char} (ends : Bool → Bool) (out : Bool → List Char) :
      w ≠ [] → AllWord w →
      Lexical ⟨':' :: w, fun _ after => ends (isBreak after), fun before => out (isAccessor before)⟩
  | word {w : List Char} (out : Bool → List Char) :
      w ≠ [] → AllWord w →
      Lexical ⟨w, fun before after => isBreak before && isBreak after,
        fun before => out (isAccessor before)⟩

/-- The rule's token stands at the start of `cs`, with neighbours that fit. -/
def Rule.Applies (r : Rule) (before : Option Char) (cs : List Char) : Prop :=
  ∃ rest, cs = r.token ++ rest ∧ r.fits before rest.head? = true

/-- The rule's token stands somewhere in `cs`, with neighbours that fit. -/
def Rule.Occurs (r : Rule) (before : Option Char) (cs : List Char) : Prop :=
  ∃ pre post, cs = pre ++ r.token ++ post ∧ r.fits (lastOr before pre) post.head? = true

namespace Rule

theorem Lexical.token_ne_nil {r : Rule} (hr : r.Lexical) : r.token ≠ [] := by
  cases hr with
  | colon ends out hne hw => exact List.cons_ne_nil _ _
  | word out hne hw => exact hne

/-- A token has colons and word characters only. -/
theorem Lexical.mem_token {r : Rule} (hr : r.Lexical) {c : Char} (hc : c ∈ r.token) :
    c = ':' ∨ Text.isWord c = true := by
  cases hr with
  | colon ends out hne hw =>
    rcases List.mem_cons.mp hc with h | h
    · exact Or.inl h
    · exact Or.inr (hw c h)
  | word out hne hw => exact Or.inr (hw c hc)

/-- A token ends with a word character. -/
theorem Lexical.isBreak_lastOr {r : Rule} (hr : r.Lexical) (b : Option Char) :
    isBreak (lastOr b r.token) = false := by
  cases hr with
  | colon ends out hne hw =>
    obtain ⟨c, hc, he⟩ := lastOr_mem (some ':') _ hne
    show isBreak (lastOr (some ':') _) = false
    rw [he]
    simp [isBreak, hw c hc]
  | word out hne hw =>
    obtain ⟨c, hc, he⟩ := lastOr_mem b _ hne
    show isBreak (lastOr b _) = false
    rw [he]
    simp [isBreak, hw c hc]

/-- Of what follows a token it matters only whether the word goes on. -/
theorem Lexical.fits_after {r : Rule} (hr : r.Lexical) (b : Option Char) {a a' : Option Char}
    (h : isBreak a = isBreak a') : r.fits b a = r.fits b a' := by
  cases hr with
  | colon ends out hne hw => simp only [h]
  | word out hne hw => simp only [h]

/-- Of what stands before a token it matters only whether a word ends there. -/
theorem Lexical.fits_before {r : Rule} (hr : r.Lexical) {b b' : Option Char} (a : Option Char)
    (h : isBreak b = isBreak b') : r.fits b a = r.fits b' a := by
  cases hr with
  | colon ends out hne hw => rfl
  | word out hne hw => simp only [h]

theorem Lexical.output_congr {r : Rule} (hr : r.Lexical) {b b' : Option Char}
    (h : isAccessor b = isAccessor b') : r.output b = r.output b' := by
  cases hr with
  | colon ends out hne hw => simp only [h]
  | word out hne hw => simp only [h]

/-! ## Where rules apply -/

theorem applies_iff_isPrefixOf (r : Rule) (b : Option Char) (cs : List Char) :
    r.Applies b cs ↔
      (r.token.isPrefixOf cs && r.fits b (cs.drop r.token.length).head?) = true := by
  rw [Bool.and_eq_true, List.isPrefixOf_iff_prefix]
  constructor
  · rintro ⟨rest, rfl, hf⟩
    exact ⟨List.prefix_append _ _, by rwa [List.drop_left]⟩
  · rintro ⟨⟨rest, rfl⟩, hf⟩
    rw [List.drop_left] at hf
    exact ⟨rest, rfl, hf⟩

instance (r : Rule) (b : Option Char) (cs : List Char) : Decidable (r.Applies b cs) :=
  decidable_of_iff _ (applies_iff_isPrefixOf r b cs).symm

theorem output?_eq (r : Rule) (b : Option Char) (cs : List Char) :
    r.output? b cs = if r.Applies b cs then some (r.output b) else none := by
  unfold output?
  by_cases h : r.Applies b cs
  · rw [if_pos h, if_pos ((applies_iff_isPrefixOf r b cs).mp h)]
  · rw [if_neg h, if_neg (fun h' => h ((applies_iff_isPrefixOf r b cs).mpr h'))]

theorem first?_eq_none_iff (rules : List Rule) (b : Option Char) (cs : List Char) :
    first? rules b cs = none ↔ ∀ r ∈ rules, ¬ r.Applies b cs := by
  unfold first?
  rw [List.findSome?_eq_none_iff]
  refine forall_congr' fun r => forall_congr' fun _ => ?_
  rw [output?_eq]
  by_cases h : r.Applies b cs <;> simp [h]

theorem first?_eq_some {rules : List Rule} {b : Option Char} {cs out : List Char} {n : Nat}
    (h : first? rules b cs = some (out, n)) :
    ∃ r ∈ rules, r.Applies b cs ∧ out = r.output b ∧ n = r.token.length := by
  obtain ⟨r, hr, h⟩ := List.exists_of_findSome?_eq_some h
  rw [output?_eq] at h
  by_cases ha : r.Applies b cs
  · rw [if_pos ha] at h
    simp only [Option.map_some, Option.some.injEq, Prod.mk.injEq] at h
    exact ⟨r, hr, ha, h.1.symm, h.2.symm⟩
  · rw [if_neg ha] at h
    cases h

@[simp]
theorem first?_append (rules more : List Rule) (b : Option Char) (cs : List Char) :
    first? (rules ++ more) b cs = (first? rules b cs).or (first? more b cs) :=
  List.findSome?_append

/-- Rules that apply alike and write alike are chosen alike. -/
theorem first?_congr {rules : List Rule} {b b' : Option Char} {cs cs' : List Char}
    (ha : ∀ r ∈ rules, (r.Applies b cs ↔ r.Applies b' cs'))
    (ho : ∀ r ∈ rules, r.Applies b cs → r.output b = r.output b') :
    first? rules b cs = first? rules b' cs' := by
  unfold first?
  induction rules with
  | nil => rfl
  | cons r rules ih =>
    have hr : r.output? b cs = r.output? b' cs' := by
      rw [output?_eq, output?_eq]
      by_cases h : r.Applies b cs
      · rw [if_pos h, if_pos ((ha r List.mem_cons_self).mp h), ho r List.mem_cons_self h]
      · rw [if_neg h, if_neg (fun h' => h ((ha r List.mem_cons_self).mpr h'))]
    have ht := ih (fun s hs => ha s (List.mem_cons_of_mem r hs))
      (fun s hs => ho s (List.mem_cons_of_mem r hs))
    simp only [List.findSome?_cons, hr, ht]

theorem not_occurs_nil {r : Rule} (hne : r.token ≠ []) (b : Option Char) : ¬ r.Occurs b [] := by
  rintro ⟨pre, post, h, -⟩
  simp at h
  exact hne h.2.1

/-- A token that stands in a text stands at its start or further on. -/
theorem occurs_cons_iff (r : Rule) (b : Option Char) (c : Char) (cs : List Char) :
    r.Occurs b (c :: cs) ↔ r.Applies b (c :: cs) ∨ r.Occurs (some c) cs := by
  constructor
  · rintro ⟨pre, post, h, hf⟩
    cases pre with
    | nil => exact Or.inl ⟨post, h, hf⟩
    | cons d pre =>
      simp only [List.cons_append, List.cons.injEq] at h
      obtain ⟨rfl, rfl⟩ := h
      exact Or.inr ⟨pre, post, rfl, hf⟩
  · rintro (⟨rest, h, hf⟩ | ⟨pre, post, rfl, hf⟩)
    · exact ⟨[], rest, h, hf⟩
    · exact ⟨c :: pre, post, rfl, hf⟩

/-- Of what stands before a text it matters only whether a word ends there. -/
theorem Lexical.occurs_congr {r : Rule} (hr : r.Lexical) {b b' : Option Char} (cs : List Char)
    (h : isBreak b = isBreak b') : r.Occurs b cs ↔ r.Occurs b' cs := by
  refine exists_congr fun pre => exists_congr fun post => and_congr_right fun _ => ?_
  cases pre with
  | nil => rw [show lastOr b [] = b from rfl, show lastOr b' [] = b' from rfl, hr.fits_before _ h]
  | cons c pre => exact Iff.rfl

end Rule

/-! ## Seams -/

/-- A place that no token reaches over: `before` stands right before it, `cs` follows. -/
def Seam (before : Option Char) (cs : List Char) : Prop :=
  isBreak cs.head? = true ∨ isBreak before = true ∧ before ≠ some ':'

theorem Seam.of_isAccessor {b : Option Char} (h : isAccessor b = true) (cs : List Char) :
    Seam b cs := by
  refine Or.inr ⟨isBreak_of_isAccessor h, ?_⟩
  rintro rfl
  revert h
  decide

/-- A part of a token that is followed by the rest of the token is no seam. -/
theorem not_seam_of_token {r : Rule} (hr : r.Lexical) {b : Option Char} {u v rest : List Char}
    (hu : u ≠ []) (hv : v ≠ []) (ht : r.token = u ++ v) : ¬ Seam (lastOr b u) (v ++ rest) := by
  -- all characters but the first are word characters
  have htail : ∀ c ∈ r.token.tail, Text.isWord c = true := by
    cases hr with
    | colon ends out hne hw => exact hw
    | word out hne hw => exact fun c hc => hw c (List.mem_of_mem_tail hc)
  rintro (h | ⟨h, hc⟩)
  · cases v with
    | nil => exact hv rfl
    | cons d v =>
      have hd : d ∈ r.token.tail := by
        rw [ht, List.tail_append_of_ne_nil hu]
        exact List.mem_append_right _ List.mem_cons_self
      simp [isBreak, htail d hd] at h
  · obtain ⟨d, hd, he⟩ := lastOr_mem b u hu
    rw [he] at h hc
    rcases hr.mem_token (ht ▸ List.mem_append_left v hd) with rfl | hw
    · exact hc rfl
    · simp [isBreak, hw] at h

namespace Rule

/-- Behind a token and before a seam, what follows the seam does not matter. -/
theorem Lexical.fits_append {r : Rule} (hr : r.Lexical) {b : Option Char} {t v : List Char}
    (hs : Seam (lastOr b (r.token ++ t)) v) : r.fits b (t ++ v).head? = r.fits b t.head? := by
  cases t with
  | cons c t => rfl
  | nil =>
    apply hr.fits_after
    rcases hs with hs | ⟨hs, -⟩
    · exact hs
    · rw [List.append_nil, hr.isBreak_lastOr] at hs
      cases hs

/-- Whether a rule applies before a seam does not depend on what follows the seam. -/
theorem Lexical.applies_append {r : Rule} (hr : r.Lexical) {b : Option Char} {u v : List Char}
    (hu : u ≠ []) (hs : Seam (lastOr b u) v) : r.Applies b (u ++ v) ↔ r.Applies b u := by
  constructor
  · rintro ⟨rest, h, hf⟩
    rcases List.append_eq_append_iff.mp h with ⟨t, ht, rfl⟩ | ⟨t, rfl, rfl⟩
    · by_cases hn : t = []
      · subst hn
        rw [List.append_nil] at ht
        subst ht
        refine ⟨[], (List.append_nil _).symm, ?_⟩
        rw [← hf, ← hr.fits_append (by rwa [List.append_nil])]
        rfl
      · exact absurd hs (not_seam_of_token hr hu hn ht)
    · exact ⟨t, rfl, by rw [← hf, hr.fits_append hs]⟩
  · rintro ⟨rest, rfl, hf⟩
    exact ⟨rest ++ v, List.append_assoc _ _ _, by rw [← hf, hr.fits_append hs]⟩

end Rule

/-- Tokens stand on one side of a seam or on the other. -/
theorem occurs_append {r : Rule} (hr : r.Lexical) (b : Option Char) (u v : List Char)
    (hs : Seam (lastOr b u) v) :
    r.Occurs b (u ++ v) ↔ r.Occurs b u ∨ r.Occurs (lastOr b u) v := by
  induction u generalizing b with
  | nil =>
    rw [List.nil_append, or_iff_right (Rule.not_occurs_nil hr.token_ne_nil b)]
    exact Iff.rfl
  | cons c u ih =>
    rw [List.cons_append, r.occurs_cons_iff, r.occurs_cons_iff, ih (some c) hs,
      ← List.cons_append, hr.applies_append (List.cons_ne_nil c u) hs, or_assoc]
    exact Iff.rfl

/-! ## Replacing tokens over seams -/

section
variable {rules : List Rule}

theorem replaceTokensFrom_copy {b : Option Char} {c : Char} {cs : List Char}
    (h : ∀ r ∈ rules, ¬ r.Applies b (c :: cs)) :
    replaceTokensFrom rules 0 b (c :: cs) = c :: replaceTokensFrom rules 0 (some c) cs := by
  rw [replaceTokensFrom, (Rule.first?_eq_none_iff rules b (c :: cs)).mpr h]

/-- Rules among which the same is chosen everywhere rewrite alike. -/
theorem replaceTokensFrom_congr_rules {more : List Rule}
    (h : ∀ b cs, Rule.first? rules b cs = Rule.first? more b cs) (skip : Nat) (b : Option Char)
    (cs : List Char) : replaceTokensFrom rules skip b cs = replaceTokensFrom more skip b cs := by
  induction cs generalizing skip b with
  | nil => cases skip <;> rfl
  | cons c cs ih =>
    cases skip with
    | succ k => exact ih k (some c)
    | zero =>
      rw [replaceTokensFrom, replaceTokensFrom, h]
      cases Rule.first? more b (c :: cs) with
      | none => exact congrArg (c :: ·) (ih 0 (some c))
      | some p => exact congrArg (p.1 ++ ·) (ih (p.2 - 1) (some c))

/-- Of what stands before a text only the choice of the first rule depends. -/
theorem replaceTokensFrom_congr {b b' : Option Char} {cs : List Char}
    (h : Rule.first? rules b cs = Rule.first? rules b' cs) :
    replaceTokensFrom rules 0 b cs = replaceTokensFrom rules 0 b' cs := by
  cases cs with
  | nil => rfl
  | cons c cs => rw [replaceTokensFrom, replaceTokensFrom, h]

/-- What belongs to a replaced token is passed over. -/
theorem replaceTokensFrom_skip (b : Option Char) (u v : List Char) :
    replaceTokensFrom rules u.length b (u ++ v) = replaceTokensFrom rules 0 (lastOr b u) v := by
  induction u generalizing b with
  | nil => rfl
  | cons c u ih => exact ih (some c)

theorem replaceTokensFrom_token {b : Option Char} {t rest out : List Char} (hne : t ≠ [])
    (h : Rule.first? rules b (t ++ rest) = some (out, t.length)) :
    replaceTokensFrom rules 0 b (t ++ rest) =
      out ++ replaceTokensFrom rules 0 (lastOr b t) rest := by
  cases t with
  | nil => exact absurd rfl hne
  | cons c t =>
    rw [List.cons_append] at h ⊢
    rw [replaceTokensFrom, h]
    show out ++ replaceTokensFrom rules t.length (some c) (t ++ rest) = _
    rw [replaceTokensFrom_skip]
    rfl

/-- Text on both sides of a seam is rewritten on its own. -/
theorem replaceTokensFrom_append_skip (hl : ∀ r ∈ rules, r.Lexical) (b : Option Char)
    (u v : List Char) (hs : Seam (lastOr b u) v) (skip : Nat) (hk : skip ≤ u.length) :
    replaceTokensFrom rules skip b (u ++ v) =
      replaceTokensFrom rules skip b u ++ replaceTokensFrom rules 0 (lastOr b u) v := by
  induction u generalizing b skip with
  | nil =>
    have : skip = 0 := Nat.le_zero.mp hk
    subst this
    rfl
  | cons c u ih =>
    cases skip with
    | succ k => exact ih (some c) hs k (Nat.le_of_succ_le_succ hk)
    | zero =>
      have hf : Rule.first? rules b (c :: u ++ v) = Rule.first? rules b (c :: u) :=
        Rule.first?_congr (fun r hr => (hl r hr).applies_append (List.cons_ne_nil c u) hs)
          (fun _ _ _ => rfl)
      rw [List.cons_append] at hf ⊢
      rw [replaceTokensFrom, replaceTokensFrom, hf]
      cases h : Rule.first? rules b (c :: u) with
      | none =>
        show c :: replaceTokensFrom rules 0 (some c) (u ++ v) = _
        rw [ih (some c) hs 0 (Nat.zero_le _)]
        rfl
      | some p =>
        obtain ⟨out, n⟩ := p
        obtain ⟨r, -, ⟨rest, hrest, -⟩, -, rfl⟩ := Rule.first?_eq_some h
        have hlen : r.token.length - 1 ≤ u.length := by
          have := congrArg List.length hrest
          simp only [List.length_cons, List.length_append] at this
          omega
        show out ++ replaceTokensFrom rules (r.token.length - 1) (some c) (u ++ v) = _
        rw [ih (some c) hs _ hlen, ← List.append_assoc]
        rfl

theorem replaceTokensFrom_append (hl : ∀ r ∈ rules, r.Lexical) {b : Option Char}
    {u v : List Char} (hs : Seam (lastOr b u) v) :
    replaceTokensFrom rules 0 b (u ++ v) =
      replaceTokensFrom rules 0 b u ++ replaceTokensFrom rules 0 (lastOr b u) v :=
  replaceTokensFrom_append_skip hl b u v hs 0 (Nat.zero_le _)

end

/-! ## Texts that are copied -/

/-- How many characters of a text could belong to tokens. -/
def weight (cs : List Char) : Nat := cs.countP fun c => c == ':' || Text.isWord c

/-- A rule that writes fewer such characters than its token has. -/
def Rule.Shrinks (r : Rule) : Prop := ∀ b, weight (r.output b) < weight r.token

@[simp]
theorem weight_append (cs ds : List Char) : weight (cs ++ ds) = weight cs + weight ds :=
  List.countP_append

theorem weight_cons (c : Char) (cs : List Char) : weight (c :: cs) = weight [c] + weight cs :=
  weight_append [c] cs

theorem replaceTokensFrom_eq_self {rules : List Rule} {b : Option Char} {cs : List Char}
    (h : ∀ r ∈ rules, ¬ r.Occurs b cs) : replaceTokensFrom rules 0 b cs = cs := by
  induction cs generalizing b with
  | nil => rfl
  | cons c cs ih =>
    rw [replaceTokensFrom_copy fun r hr ha => h r hr ((r.occurs_cons_iff b c cs).mpr (Or.inl ha)),
      ih fun r hr ho => h r hr ((r.occurs_cons_iff b c cs).mpr (Or.inr ho))]

theorem token_ne_nil_of_shrinks {r : Rule} (h : r.Shrinks) : r.token ≠ [] := by
  intro ht
  have := h none
  rw [ht] at this
  exact absurd this (Nat.not_lt_zero _)

section
variable {rules : List Rule} (hsh : ∀ r ∈ rules, r.Shrinks)

include hsh

theorem weight_replaceTokensFrom_le (skip : Nat) (b : Option Char) (cs : List Char) :
    weight (replaceTokensFrom rules skip b cs) ≤ weight (cs.drop skip) := by
  induction cs generalizing skip b with
  | nil => cases skip <;> exact Nat.le_refl _
  | cons c cs ih =>
    cases skip with
    | succ k => exact ih k (some c)
    | zero =>
      rw [replaceTokensFrom]
      cases h : Rule.first? rules b (c :: cs) with
      | none =>
        have := ih 0 (some c)
        show weight (c :: replaceTokensFrom rules 0 (some c) cs) ≤ weight (c :: cs)
        rw [weight_cons, weight_cons c cs]
        exact Nat.add_le_add_left this _
      | some p =>
        obtain ⟨out, n⟩ := p
        obtain ⟨r, hr, ⟨rest, hrest, -⟩, rfl, rfl⟩ := Rule.first?_eq_some h
        have hlt := hsh r hr b
        show weight (r.output b ++ replaceTokensFrom rules (r.token.length - 1) (some c) cs) ≤ _
        cases ht : r.token with
        | nil => rw [ht] at hlt; exact absurd hlt (Nat.not_lt_zero _)
        | cons d t =>
          rw [ht, List.cons_append, List.cons.injEq] at hrest
          obtain ⟨rfl, rfl⟩ := hrest
          have := ih t.length (some c)
          rw [List.drop_left] at this
          rw [ht] at hlt
          rw [weight_append, List.drop_zero, ← List.cons_append, weight_append,
            List.length_cons, Nat.add_sub_cancel]
          omega

/-- A text is copied if and only if no token stands in it. -/
theorem replaceTokensFrom_eq_self_iff (b : Option Char) (cs : List Char) :
    replaceTokensFrom rules 0 b cs = cs ↔ ∀ r ∈ rules, ¬ r.Occurs b cs := by
  refine ⟨fun h => ?_, replaceTokensFrom_eq_self⟩
  induction cs generalizing b with
  | nil => exact fun r hr => Rule.not_occurs_nil (token_ne_nil_of_shrinks (hsh r hr)) b
  | cons c cs ih =>
    cases hf : Rule.first? rules b (c :: cs) with
    | none =>
      have ha := (Rule.first?_eq_none_iff rules b (c :: cs)).mp hf
      rw [replaceTokensFrom_copy ha, List.cons.injEq] at h
      intro r hr ho
      exact ((r.occurs_cons_iff b c cs).mp ho).elim (ha r hr) (ih (some c) h.2 r hr)
    | some p =>
      -- the token would be replaced by something lighter
      exfalso
      obtain ⟨out, n⟩ := p
      obtain ⟨r, hr, ⟨rest, hrest, -⟩, rfl, rfl⟩ := Rule.first?_eq_some hf
      rw [hrest] at hf h
      rw [replaceTokensFrom_token (token_ne_nil_of_shrinks (hsh r hr)) hf] at h
      have h1 := congrArg weight h
      rw [weight_append, weight_append] at h1
      have h2 := weight_replaceTokensFrom_le hsh 0 (lastOr b r.token) rest
      have h3 := hsh r hr b
      rw [List.drop_zero] at h2
      omega

end

end Shorthand
