import Shorthand.Proofs.Residue
import Shorthand.Proofs.RunEffect

/-!
# What expansion changes

What the rules write weighs less than the tokens that it stands for, so several rewritings never
give a text back.  The flag of an expanded query therefore says exactly whether a symbol stands in
the query, and a report counts the queries with symbols:

    q.expand.changed = true ↔ HasSymbol q.text.toList                          (changed_expand_iff)
    changedCount = number of queries with a symbol                             (changed_exact)
-/

namespace Shorthand

/-! ## Looking for symbols -/

namespace Rule

/-- A token is looked for at each place of a text. -/
def decideOccurs (r : Rule) : (b : Option Char) → (cs : List Char) → Decidable (r.Occurs b cs)
  | b, [] => decidable_of_iff (r.Applies b []) <| by
      constructor
      · rintro ⟨rest, h, hf⟩
        exact ⟨[], rest, h, hf⟩
      · rintro ⟨pre, post, h, hf⟩
        obtain ⟨rfl, -⟩ := List.append_eq_nil_iff.mp (List.append_eq_nil_iff.mp h.symm).1
        exact ⟨post, h, hf⟩
  | b, c :: cs =>
    haveI := decideOccurs r (some c) cs
    decidable_of_iff _ (r.occurs_cons_iff b c cs).symm

instance (r : Rule) (b : Option Char) (cs : List Char) : Decidable (r.Occurs b cs) :=
  decideOccurs r b cs

end Rule

instance (cs : List Char) : Decidable (HasSymbol cs) :=
  decidable_of_iff _ (hasSymbol_iff cs).symm

/-! ## The flag of a query -/

theorem expandText_eq_trimText_iff (s : String) :
    expandText s = trimText s ↔ ¬ HasSymbol s.toList := by
  simp [← String.toList_inj, expandChars_eq_trimQuery_iff]

theorem changed_expand_iff (q : Query) : q.expand.changed = true ↔ HasSymbol q.text.toList := by
  unfold Query.expand
  rw [bne_iff_ne, ne_eq, expandText_eq_trimText_iff, not_not]

theorem changedCount_expand (time : String) (qs : List Query) :
    (Report.mk time (qs.map Query.expand)).changedCount =
      qs.countP fun q => HasSymbol q.text.toList := by
  show (qs.map Query.expand).countP (·.changed) = _
  rw [List.countP_map]
  refine List.countP_congr fun q _ => ?_
  rw [Function.comp_apply, changed_expand_iff, decide_eq_true_iff]

/-! ## Top theorem -/

/-- A query is marked as changed if and only if a symbol stands in it, which are the queries that
expansion does not only trim; and the report of queries counts those with a symbol. -/
theorem changed_exact :
    (∀ q : Query, q.expand.changed = true ↔
      HasContextWord q.text.toList ∨ HasColonSymbol q.text.toList) ∧
    (∀ s : String, expandText s = trimText s ↔
      ¬ (HasContextWord s.toList ∨ HasColonSymbol s.toList)) ∧
    ∀ {σ : Type} (store : Store σ) (time : String) (qs : List Query) (s : σ),
      ((Plan.expand (.ofStore store time) qs).run s).1.changedCount =
        qs.countP fun q => HasSymbol q.text.toList := by
  refine ⟨changed_expand_iff, expandText_eq_trimText_iff, fun store time qs s => ?_⟩
  rw [Plan.run_expand]
  exact changedCount_expand time qs

-- Trimming and words that only contain a symbol are no changes; `é` ends a word.
example : (["\uFEFF thistle ", ":nam", "éthis", ":rootself"].map fun text =>
    (Query.unnamed text).expand.changed) = [false, false, true, true] := by decide

end Shorthand
