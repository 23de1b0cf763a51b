import Mathlib.Data.List.Nodup
import Shorthand.Proofs.Residue
import Shorthand.Proofs.Simultaneous

/-!
# The order of the passes

Passes can change places as long as none of them finds anything in what another one wrote
(`LeaveAlone`).  Nothing that is written has a colon, so only context words are in question; and
only the pass for `:root` can leave one standing alone that was part of a longer word, as in
`:rootthis`.  So the passes expand every query in any order in which context words are replaced
before `:root`, and in no other:

    (∀ query, applyPasses ps (trimText query) = expandText query)
      ↔ [contextPass, rootPass].Sublist ps                     (applyPasses_eq_expandText_iff)

where `ps` are the passes in some order.
-/

namespace Shorthand

/-! ## Passes -/

/-- The pass that replaces the words that stand for the context node. -/
def contextPass : List Rule := [.context "this", .context "self"]

/-- The pass that replaces `:root`. -/
def rootPass : List Rule := [.literal ":root" "$"]

/-- All other passes look for symbols with a colon. -/
theorem pass_cases {p : List Rule} (hp : p ∈ passes) :
    p = contextPass ∨ p = rootPass ∨
      ∀ r ∈ p, r.token.head? = some ':' ∧ r.token ≠ ":root".toList := by
  simp only [passes, List.mem_cons, List.not_mem_nil, or_false] at hp
  rcases hp with rfl | rfl | rfl | rfl | rfl | rfl | rfl
  · exact .inl rfl
  · exact .inr (.inr (by decide))
  · exact .inr (.inr (by decide))
  · exact .inr (.inr (by decide))
  · exact .inr (.inl rfl)
  · exact .inr (.inr (by decide))
  · exact .inr (.inr (by decide))

/-- No pass is made twice. -/
theorem nodup_passes : passes.Nodup :=
  List.Nodup.of_map (fun p => p.map Rule.token) (by decide)

/-! ## Passes that leave each other alone -/

/-- Only behind `:root` can a context word stand that stood alone nowhere before. -/
theorem leavesAlone_of_context {x : String} (hx : x ∈ ["this", "self"]) {r : Rule}
    (hr : r ∈ passes.flatten) (hcolon : r.token.head? = some ':')
    (hroot : r.token ≠ ":root".toList) : (Rule.context x).LeavesAlone r := by
  have hall : ∀ r ∈ passes.flatten, r.token.head? = some ':' → r.token ≠ ":root".toList →
      AllWord r.token.tail ∧
        ∀ x ∈ ["this", "self"], ¬ r.token.isPrefixOf (":root".toList ++ x.toList) = true := by
    decide
  obtain ⟨hword, hprefix⟩ := hall r hr hcolon hroot
  refine ⟨fun b b' y _ hy ho => ?_,
    not_applies_colon_token (mem_passes.mpr (Or.inl ⟨x, hx, rfl⟩)) hr⟩
  have hrun : ':' :: (r.token.tail ++ y) = r.token ++ y := by
    rw [← List.cons_append, List.eq_cons_of_mem_head? hcolon]
    rfl
  have hw : AllWord (r.token.tail ++ y) :=
    fun c hc => (List.mem_append.mp hc).elim (hword c) (hy c)
  rw [occurs_written_token hx (by decide) hw hr hrun hy, hrun] at ho
  apply hprefix x hx
  rw [List.isPrefixOf_iff_prefix, ← ho]
  exact List.prefix_append _ _

/-- A pass leaves alone what another one wrote, unless it looks for context words and the other one
is that for `:root`. -/
theorem leaveAlone_of_mem {old new : List Rule} (hold : old ∈ passes) (hnew : new ∈ passes)
    (hne : old ≠ new) (horder : old = rootPass → new ≠ contextPass) : LeaveAlone old new := by
  intro r hr s hs
  have hr' := List.mem_flatten_of_mem hold hr
  have hs' := List.mem_flatten_of_mem hnew hs
  by_cases hcontext : new = contextPass
  · subst hcontext
    obtain ⟨x, hx, rfl⟩ : ∃ x ∈ ["this", "self"], s = .context x := by
      simpa [contextPass] using hs
    rcases pass_cases hold with h | h | h
    · exact absurd h hne
    · exact absurd rfl (horder h)
    · exact leavesAlone_of_context hx hr' (h r hr).1 (h r hr).2
  · refine leavesAlone_of_colon hs' hr' ?_
    rcases pass_cases hnew with h | h | h
    · exact absurd h hcontext
    · subst h
      exact (show ∀ s ∈ rootPass, s.token.head? = some ':' by decide) s hs
    · exact (h s hs).1

/-! ## Orders that expand -/

/-- Of two members of a list without repetitions, not each stands before the other. -/
theorem not_sublist_swap {α : Type} {x y : α} {l : List α} (hnodup : l.Nodup)
    (h : [x, y].Sublist l) : ¬ [y, x].Sublist l := by
  obtain ⟨u, v, rfl, hx, hy⟩ := List.cons_sublist_iff.mp h
  rw [List.singleton_sublist] at hy
  have hapart : ∀ z ∈ u, z ∉ v := List.disjoint_of_nodup_append hnodup
  intro hswap
  obtain ⟨u', v', huv, hy', hx'⟩ := List.cons_sublist_iff.mp hswap
  rw [List.singleton_sublist] at hx'
  rcases List.append_eq_append_iff.mp huv with ⟨t, rfl, rfl⟩ | ⟨t, rfl, rfl⟩
  · exact hapart x hx (List.mem_append_right t hx')
  · exact hapart y (List.mem_append_left t hy') hy

/-- Where context words are replaced before `:root`, all passes leave alone what was written
before them. -/
theorem pairwise_leaveAlone {ps : List (List Rule)} (hperm : ps.Perm passes)
    (h : [contextPass, rootPass].Sublist ps) : ps.Pairwise LeaveAlone := by
  have hnodup : ps.Nodup := hperm.nodup_iff.mpr nodup_passes
  rw [List.pairwise_iff_forall_sublist]
  intro old new hsub
  have hmem : ∀ p ∈ [old, new], p ∈ passes := fun p hp => hperm.subset (hsub.subset hp)
  refine leaveAlone_of_mem (hmem old (by simp)) (hmem new (by simp)) ?_ ?_
  · have := hnodup.sublist hsub
    simpa using this
  · rintro rfl rfl
    exact not_sublist_swap hnodup h hsub

/-- At most one rule applies at a place, so the order of the rules does not matter. -/
theorem replaceTokens_perm {rules : List Rule} (hperm : rules.Perm passes.flatten)
    (cs : List Char) : replaceTokens rules cs = replaceTokens passes.flatten cs := by
  apply replaceTokensFrom_congr_rules
  intro b cs
  cases hf : Rule.first? rules b cs with
  | none =>
    rw [eq_comm, Rule.first?_eq_none_iff]
    exact fun r hr => (Rule.first?_eq_none_iff rules b cs).mp hf r (hperm.mem_iff.mpr hr)
  | some p =>
    obtain ⟨out, n⟩ := p
    obtain ⟨r, hr, ha, rfl, rfl⟩ := Rule.first?_eq_some hf
    rw [first?_of_applies (hperm.mem_iff.mp hr) ha]

theorem applyPasses_eq_expandChars {ps : List (List Rule)} (hperm : ps.Perm passes)
    (h : [contextPass, rootPass].Sublist ps) (cs : List Char) :
    applyPasses ps (trimQuery cs) = expandChars cs := by
  have hrules : ps.flatten.Perm passes.flatten := hperm.flatten
  rw [applyPasses_eq_flatten ps _ (fun r hr => lexical_of_mem (hrules.subset hr))
    (fun r hr => neat_of_mem (hrules.subset hr)) (pairwise_leaveAlone hperm h),
    replaceTokens_perm hrules, expandChars_eq]

/-! ## Orders that do not -/

/-- Passes that keep within some texts do so one after the other. -/
theorem applyPasses_mem {ps : List (List Rule)} {texts : List (List Char)}
    (h : ∀ p ∈ ps, ∀ t ∈ texts, replaceTokens p t ∈ texts) {t : List Char} (ht : t ∈ texts) :
    applyPasses ps t ∈ texts := by
  induction ps generalizing t with
  | nil => exact ht
  | cons p ps ih =>
    exact ih (fun q hq => h q (List.mem_cons_of_mem p hq)) (h p List.mem_cons_self t ht)

/-- Where `:root` is replaced first, so is the context word that stood behind it. -/
theorem applyPasses_rootthis {u v w : List (List Rule)}
    (h : ∀ p ∈ u ++ rootPass :: v ++ contextPass :: w, p ∈ passes) :
    applyPasses (u ++ rootPass :: v ++ contextPass :: w) ":rootthis".toList = "$ $ ".toList := by
  -- any pass leaves the text as it is or takes it a step further
  have hstep : ∀ p ∈ passes, ∀ texts ∈ [":rootthis".toList, "$this".toList, "$ $ ".toList].tails,
      ∀ t ∈ texts, replaceTokens p t ∈ texts := by
    decide
  have hroot : ∀ t ∈ [":rootthis".toList, "$this".toList, "$ $ ".toList],
      replaceTokens rootPass t ∈ ["$this".toList, "$ $ ".toList] := by
    decide
  have hcontext : ∀ t ∈ ["$this".toList, "$ $ ".toList],
      replaceTokens contextPass t ∈ ["$ $ ".toList] := by
    decide
  have hu : applyPasses u ":rootthis".toList ∈
      [":rootthis".toList, "$this".toList, "$ $ ".toList] :=
    applyPasses_mem (fun p hp => hstep p (h p (by simp [hp])) _ (by simp)) (by simp)
  have hv : applyPasses v (replaceTokens rootPass (applyPasses u ":rootthis".toList)) ∈
      ["$this".toList, "$ $ ".toList] :=
    applyPasses_mem (fun p hp => hstep p (h p (by simp [hp])) _ (by simp)) (hroot _ hu)
  have hw : applyPasses w (replaceTokens contextPass
      (applyPasses v (replaceTokens rootPass (applyPasses u ":rootthis".toList)))) ∈
      ["$ $ ".toList] :=
    applyPasses_mem (fun p hp => hstep p (h p (by simp [hp])) _ (by simp)) (hcontext _ hv)
  simpa using hw

/-! ## Top theorem -/

/-- The passes, in whatever order, expand every query if and only if context words are replaced
before `:root` is. -/
theorem applyPasses_eq_expandText_iff {ps : List (List Rule)} (hperm : ps.Perm passes) :
    (∀ query : String, applyPasses ps (trimText query).toList = (expandText query).toList) ↔
      [contextPass, rootPass].Sublist ps := by
  constructor
  · intro hexpand
    have hcontext : contextPass ∈ ps := hperm.mem_iff.mpr (by simp [passes, contextPass])
    have hroot : rootPass ∈ ps := hperm.mem_iff.mpr (by simp [passes, rootPass])
    obtain ⟨u, w, rfl⟩ := List.append_of_mem hcontext
    rcases List.mem_append.mp hroot with hroot | hroot
    · exfalso
      obtain ⟨u, v, rfl⟩ := List.append_of_mem hroot
      have hwrong := hexpand ":rootthis"
      rw [show (trimText ":rootthis").toList = ":rootthis".toList by decide,
        applyPasses_rootthis fun p hp => hperm.subset hp] at hwrong
      exact absurd hwrong (by decide)
    · have hne : rootPass ≠ contextPass := fun h => absurd (congrArg List.length h) (by decide)
      have hw : rootPass ∈ w := (List.mem_cons.mp hroot).resolve_left hne
      exact ((List.singleton_sublist.mpr hw).cons_cons contextPass).trans
        (List.sublist_append_right u _)
  · intro h query
    simp [applyPasses_eq_expandChars hperm h]

/-- Selectors can be replaced first, although what stands before them is replaced later. -/
theorem applyPasses_eq_expandText_selectorsFirst :
    (passes.drop 5 ++ passes.take 5).Perm passes ∧
      applyPasses (passes.drop 5 ++ passes.take 5) (trimText " this:match :root:text").toList =
        (expandText " this:match :root:text").toList := by
  have hperm : (passes.drop 5 ++ passes.take 5).Perm passes := by
    refine List.perm_append_comm.trans ?_
    rw [List.take_append_drop]
  have hsub : [contextPass, rootPass].Sublist (passes.take 5) :=
    .cons_cons _ (.cons _ (.cons _ (.cons _ (.cons_cons _ .slnil))))
  exact ⟨hperm, (applyPasses_eq_expandText_iff hperm).mpr
    (hsub.trans (List.sublist_append_right _ _)) _⟩

end Shorthand
