import Shorthand.Proofs.Runs

/-!
# Passes one after the other

A pass that finds nothing in what the passes before it wrote (`Rule.LeavesAlone`) can be made
together with them, in a single rewriting of the text that the first of them reads:

    replaceTokens new (replaceTokens old cs) = replaceTokens (old ++ new) cs   (replaceTokens_fuse)
    applyPasses ps cs = replaceTokens ps.flatten cs                        (applyPasses_eq_flatten)

In the order of `passes` each pass leaves alone what was written before it
(`passes_leaveAlone`), so that expansion is one rewriting with all rules (`expandChars_eq`).
-/

namespace Shorthand

/-! ## Two passes -/

/-- The rule finds nothing in what `r` writes, whatever word goes on behind it; nor does it take
a colon in front of the token of `r`. -/
structure Rule.LeavesAlone (s r : Rule) : Prop where
  written : ∀ b b' w, isAccessor b = isAccessor b' → AllWord w → ¬ s.Occurs b' (r.output b ++ w)
  token : ∀ b, ¬ s.Applies b (':' :: r.token)

section
variable {old new : List Rule}

/-- Rules that find nothing can be left out. -/
theorem replaceTokensFrom_leave_out (skip : Nat) (b : Option Char) (cs : List Char)
    (h : ∀ r ∈ old, ¬ r.Occurs b cs) :
    replaceTokensFrom (old ++ new) skip b cs = replaceTokensFrom new skip b cs := by
  induction cs generalizing skip b with
  | nil => cases skip <;> rfl
  | cons c cs ih =>
    have hs : ∀ r ∈ old, ¬ r.Occurs (some c) cs :=
      fun r hr ho => h r hr ((r.occurs_cons_iff b c cs).mpr (Or.inr ho))
    have hf : Rule.first? old b (c :: cs) = none :=
      (Rule.first?_eq_none_iff old b (c :: cs)).mpr
        fun r hr ha => h r hr ((r.occurs_cons_iff b c cs).mpr (Or.inl ha))
    cases skip with
    | succ k => exact ih k (some c) hs
    | zero =>
      rw [replaceTokensFrom, replaceTokensFrom, Rule.first?_append, hf, Option.none_or]
      cases Rule.first? new b (c :: cs) with
      | none => exact congrArg (c :: ·) (ih 0 (some c) hs)
      | some p => exact congrArg (p.1 ++ ·) (ih (p.2 - 1) (some c) hs)

theorem lexical_append (hlo : ∀ r ∈ old, r.Lexical) (hln : ∀ s ∈ new, s.Lexical) :
    ∀ r ∈ old ++ new, r.Lexical :=
  fun r hr => (List.mem_append.mp hr).elim (hlo r) (hln r)

variable (hlo : ∀ r ∈ old, r.Lexical) (hln : ∀ s ∈ new, s.Lexical) (hno : ∀ r ∈ old, r.Neat)
  (halone : ∀ r ∈ old, ∀ s ∈ new, s.LeavesAlone r)

include hlo hln hno halone

/-- On one run, two passes are one. -/
theorem replaceTokensFrom_fuse_run {b b' : Option Char} {m : Char} {w : List Char}
    (hm : Text.isWord m = false) (hw : AllWord w) (hb : isAccessor b = isAccessor b') :
    replaceTokensFrom new 0 b' (replaceTokensFrom old 0 b (m :: w)) =
      replaceTokensFrom (old ++ new) 0 b (m :: w) := by
  have hl := lexical_append hlo hln
  rcases run_cases hlo b m hw with ⟨r, hr, x, hx, hxw, hf, he⟩ | ⟨r, hr, hwr, ha, hf, he⟩ | ⟨ho, he⟩
  · -- a token of the old rules: what is written for it stays
    rw [he, replaceTokensFrom_eq_self fun s hs => (halone r hr s hs).written b b' x hb hxw]
    have hf' : Rule.first? (old ++ new) b (r.token ++ x) = some (r.output b, r.token.length) := by
      simp [← hx, hf]
    rw [hx, replaceTokensFrom_token (hlo r hr).token_ne_nil hf',
      replaceTokensFrom_inside hl hxw ((hlo r hr).isBreak_lastOr b)]
  · -- a word of the old rules: the character before it is copied by both
    have hseam : Seam (lastOr b' [m]) (r.output (some m)) := by
      cases hacc : isAccessor (some m) with
      | true => exact Seam.of_isAccessor hacc _
      | false => exact Or.inl ((hno r hr).opens (some m) hacc)
    have hkeep : replaceTokensFrom new 0 (some m) (r.output (some m)) = r.output (some m) := by
      apply replaceTokensFrom_eq_self
      intro s hs
      have := (halone r hr s hs).written (some m) (some m) [] rfl (fun c hc => by cases hc)
      rwa [List.append_nil] at this
    rw [he, ← List.singleton_append, replaceTokensFrom_append hln hseam,
      replaceTokensFrom_mark hln b' hm]
    show [m] ++ replaceTokensFrom new 0 (some m) (r.output (some m)) = _
    rw [hkeep, replaceTokensFrom_copy]
    · have hf' : Rule.first? (old ++ new) (some m) (r.token ++ []) =
          some (r.output (some m), r.token.length) := by
        simp [← hwr, hf]
      rw [hwr, ← List.append_nil r.token, replaceTokensFrom_token (hlo r hr).token_ne_nil hf',
        replaceTokensFrom, List.append_nil]
      rfl
    · intro s hs hap
      rcases List.mem_append.mp hs with hs | hs
      · exact ha s hs hap
      · obtain ⟨rfl, -⟩ := (hln s hs).applies_mark hm hap
        exact (halone r hr s hs).token b (hwr ▸ hap)
  · rw [he, replaceTokensFrom_leave_out 0 b (m :: w) ho]
    apply replaceTokensFrom_congr
    apply Rule.first?_congr
    · intro s hs
      exact ⟨fun h => ((hln s hs).applies_mark hm h).2 b,
        fun h => ((hln s hs).applies_mark hm h).2 b'⟩
    · intro s hs _
      exact (hln s hs).output_congr hb.symm

/-- From a place where no word goes on, two passes are one. -/
theorem replaceTokensFrom_fuse {cs : List Char} (h : isBreak cs.head? = true) :
    ∀ b b', isAccessor b = isAccessor b' →
      replaceTokensFrom new 0 b' (replaceTokensFrom old 0 b cs) =
        replaceTokensFrom (old ++ new) 0 b cs := by
  have hl := lexical_append hlo hln
  induction cs, h using runs_induction with
  | nil => intro b b' _; rfl
  | run m w rest hm hw hrest ih =>
    intro b b' hb
    have hacc := isAccessor_written hlo hno b b' m hw
    rw [replaceTokensFrom_append hlo (Or.inl hrest), replaceTokensFrom_append hl (Or.inl hrest),
      replaceTokensFrom_append hln (seam_written hlo hno b b' m hw hrest),
      replaceTokensFrom_fuse_run hlo hln hno halone hm hw hb, ih _ _ hacc.symm]

/-- Two passes are one. -/
theorem replaceTokens_fuse (cs : List Char) :
    replaceTokens new (replaceTokens old cs) = replaceTokens (old ++ new) cs := by
  have hl := lexical_append hlo hln
  -- behind a blank the text is a sequence of runs
  have hblank : isBreak (' ' :: cs).head? = true := rfl
  have h := replaceTokensFrom_fuse hlo hln hno halone hblank none none rfl
  rw [replaceTokensFrom_blank hlo, replaceTokensFrom_blank hln, replaceTokensFrom_blank hl] at h
  exact (List.cons.inj h).2

end

/-! ## Any number of passes -/

/-- The pass `new` can be made together with the pass `old` before it. -/
def LeaveAlone (old new : List Rule) : Prop := ∀ r ∈ old, ∀ s ∈ new, s.LeavesAlone r

theorem applyPasses_fuse (ps : List (List Rule)) (old : List Rule) (cs : List Char)
    (hl : ∀ r ∈ (old :: ps).flatten, r.Lexical) (hn : ∀ r ∈ (old :: ps).flatten, r.Neat)
    (h : (old :: ps).Pairwise LeaveAlone) :
    applyPasses ps (replaceTokens old cs) = replaceTokens (old :: ps).flatten cs := by
  induction ps generalizing old with
  | nil => simp
  | cons p ps ih =>
    rw [List.pairwise_cons, List.pairwise_cons] at h
    obtain ⟨hold, hp, hps⟩ := h
    have hmem : ∀ r, r ∈ ((old ++ p) :: ps).flatten ↔ r ∈ (old :: p :: ps).flatten := by
      intro r
      simp
    have hfuse := replaceTokens_fuse (fun r hr => hl r (by simp [hr]))
      (fun s hs => hl s (by simp [hs])) (fun r hr => hn r (by simp [hr]))
      (hold p List.mem_cons_self) cs
    rw [applyPasses_cons, hfuse, ih (old ++ p) (fun r hr => hl r ((hmem r).mp hr))
      (fun r hr => hn r ((hmem r).mp hr))]
    · simp only [List.flatten_cons, List.append_assoc]
    · refine List.pairwise_cons.mpr ⟨fun q hq r hr => ?_, hps⟩
      exact (List.mem_append.mp hr).elim (hold q (List.mem_cons_of_mem p hq) r) (hp q hq r)

/-- Passes that leave each other alone are one rewriting. -/
theorem applyPasses_eq_flatten (ps : List (List Rule)) (cs : List Char)
    (hl : ∀ r ∈ ps.flatten, r.Lexical) (hn : ∀ r ∈ ps.flatten, r.Neat)
    (h : ps.Pairwise LeaveAlone) : applyPasses ps cs = replaceTokens ps.flatten cs := by
  have := applyPasses_fuse ps [] cs hl hn
    (List.pairwise_cons.mpr ⟨fun _ _ r hr => (List.not_mem_nil hr).elim, h⟩)
  rwa [replaceTokens_nil] at this

/-! ## The passes of the shorthand -/

/-- The rules of all passes, by kind. -/
theorem mem_passes {r : Rule} :
    r ∈ passes.flatten ↔
      (∃ w ∈ ["this", "self"], r = .context w) ∨
      (∃ w ∈ ["name", "key", "value"], r = .literal (":" ++ w) ("." ++ w)) ∨
      r = .literal ":root" "$" ∨
      (∃ w ∈ ["match", "text"], r = .selector w) := by
  simp [passes, or_assoc]

theorem word_of_mem {w : String}
    (h : w ∈ ["this", "self"] ∨ w ∈ ["name", "key", "value"] ∨ w ∈ ["match", "text"]) :
    w.toList ≠ [] ∧ AllWord w.toList := by
  have hall : ∀ w ∈ ["this", "self"] ++ (["name", "key", "value"] ++ ["match", "text"]),
      w.toList ≠ [] ∧ AllWord w.toList := by
    decide
  exact hall w (by rwa [List.mem_append, List.mem_append])

theorem toList_colon (w : String) : (":" ++ w).toList = ':' :: w.toList := String.toList_append

theorem toList_dot (w : String) : ("." ++ w).toList = '.' :: w.toList := String.toList_append

theorem lexical_of_mem {r : Rule} (h : r ∈ passes.flatten) : r.Lexical := by
  rcases mem_passes.mp h with ⟨w, hw, rfl⟩ | ⟨w, hw, rfl⟩ | rfl | ⟨w, hw, rfl⟩
  · obtain ⟨hne, hall⟩ := word_of_mem (Or.inl hw)
    exact .word (fun _ => " $ ".toList) hne hall
  · obtain ⟨hne, hall⟩ := word_of_mem (Or.inr (Or.inl hw))
    unfold Rule.literal
    rw [toList_colon]
    exact .colon (fun _ => true) (fun _ => ("." ++ w).toList) hne hall
  · exact .colon (fun _ => true) (fun _ => "$".toList) (w := "root".toList) (by decide) (by decide)
  · obtain ⟨hne, hall⟩ := word_of_mem (Or.inr (Or.inr hw))
    exact .colon (fun _ => true) (fun a => if a then w.toList else '.' :: w.toList) hne hall

/-- Two neighbours show all that a rule can write. -/
theorem exists_neighbour (b : Option Char) :
    ∃ a ∈ [none, some '.'], isAccessor b = isAccessor a := by
  cases h : isAccessor b with
  | false => exact ⟨none, by decide, rfl⟩
  | true => exact ⟨some '.', by decide, rfl⟩

/-- What the rules write, as far as tokens are concerned. -/
theorem output_of_mem {r : Rule} (h : r ∈ passes.flatten) (b : Option Char) :
    r.output b ≠ [] ∧ (isAccessor b = false → isBreak (r.output b).head? = true) ∧
      isAccessor (lastOr none (r.output b)) = false ∧ ':' ∉ r.output b ∧
      weight (r.output b) < weight r.token := by
  have hall : ∀ r ∈ passes.flatten, ∀ a ∈ [none, some '.'],
      r.output a ≠ [] ∧ (isAccessor a = false → isBreak (r.output a).head? = true) ∧
        isAccessor (lastOr none (r.output a)) = false ∧ ':' ∉ r.output a ∧
        weight (r.output a) < weight r.token := by
    decide
  obtain ⟨a, ha, hb⟩ := exists_neighbour b
  rw [(lexical_of_mem h).output_congr hb, hb]
  exact hall r h a ha

theorem neat_of_mem {r : Rule} (h : r ∈ passes.flatten) : r.Neat where
  ne_nil b := (output_of_mem h b).1
  opens b := (output_of_mem h b).2.1
  ends b b' := by
    rw [lastOr_congr b' none (output_of_mem h b).1]
    exact (output_of_mem h b).2.2.1

theorem shrinks_of_mem {r : Rule} (h : r ∈ passes.flatten) : r.Shrinks :=
  fun b => (output_of_mem h b).2.2.2.2

/-- No token is a colon with part of another token behind it. -/
theorem not_applies_colon_token {s r : Rule} (hs : s ∈ passes.flatten) (hr : r ∈ passes.flatten)
    (b : Option Char) : ¬ s.Applies b (':' :: r.token) := by
  have hall : ∀ s ∈ passes.flatten, ∀ r ∈ passes.flatten,
      ¬ s.token.isPrefixOf (':' :: r.token) = true := by
    decide
  rintro ⟨rest, he, -⟩
  apply hall s hs r hr
  rw [List.isPrefixOf_iff_prefix, he]
  exact List.prefix_append _ _

/-- No rule writes colons, so a rule for a colon finds nothing in what is written. -/
theorem leavesAlone_of_colon {s r : Rule} (hs : s ∈ passes.flatten) (hr : r ∈ passes.flatten)
    (hc : s.token.head? = some ':') : s.LeavesAlone r := by
  refine ⟨fun b b' w _ hw ho => ?_, not_applies_colon_token hs hr⟩
  obtain ⟨pre, post, he, -⟩ := ho
  have hmem : ':' ∈ r.output b ++ w := by
    rw [he]
    have := List.mem_of_mem_head? hc
    simp [this]
  rcases List.mem_append.mp hmem with h | h
  · exact (output_of_mem hr b).2.2.2.1 h
  · exact hw.colon_not_mem h

/-- Each pass leaves alone what was written before it. -/
theorem passes_leaveAlone : passes.Pairwise LeaveAlone := by
  have hcolon : passes.Pairwise fun _ new => ∀ s ∈ new, s.token.head? = some ':' := by decide
  refine hcolon.imp_of_mem ?_
  intro old new hold hnew hc r hr s hs
  exact leavesAlone_of_colon (List.mem_flatten_of_mem hnew hs) (List.mem_flatten_of_mem hold hr)
    (hc s hs)

/-- Expansion is one rewriting of the trimmed query with all rules. -/
theorem expandChars_eq (cs : List Char) :
    expandChars cs = replaceTokens passes.flatten (trimQuery cs) :=
  applyPasses_eq_flatten passes (trimQuery cs) (fun _ => lexical_of_mem) (fun _ => neat_of_mem)
    passes_leaveAlone

end Shorthand
