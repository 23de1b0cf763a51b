import Shorthand.Proofs.Arguments
import Shorthand.Proofs.CommandRuns
import Shorthand.Proofs.LineBreaks
import Shorthand.Proofs.Octets
import Shorthand.Store.Tree

/-!
# Lines that are printed and lines that are reported

Both the command that prints expansions and the text report write one text after the other, each
with a line feed.  A report escapes the line breaks inside a text and the command does not, so what
is printed is the text report just where no query has a line break inside its margins:

    printed qs = toText ⟨time, qs.map expand⟩ ↔ no line break in any trimText q
                                                                    (printed_eq_toText_iff)
-/

namespace Shorthand

namespace Text

/-- Escaped lines are longer by one character for each line break in a text. -/
theorem length_linesOf_escapeBreaks (texts : List (List Char)) :
    (linesOf (texts.map escapeBreaks)).length =
      (linesOf texts).length + texts.flatten.countP (IsLineBreak ·) := by
  induction texts with
  | nil => rfl
  | cons text texts ih =>
    show ((escapeBreaks text ++ ['\n']) ++ linesOf (texts.map escapeBreaks)).length =
      ((text ++ ['\n']) ++ linesOf texts).length + (text ++ texts.flatten).countP _
    simp only [List.length_append, List.countP_append, length_escapeBreaks, ih]
    omega

/-- Escaping changes lines unless their texts have no line breaks. -/
theorem linesOf_escapeBreaks_eq_iff {texts : List (List Char)} :
    linesOf (texts.map escapeBreaks) = linesOf texts ↔
      ∀ text ∈ texts, ∀ c ∈ text, ¬ IsLineBreak c := by
  constructor
  · intro h text htext c hc hbreak
    -- the same lines are as long, so nothing was escaped
    have hlength := length_linesOf_escapeBreaks texts
    rw [h] at hlength
    have hnone : texts.flatten.countP (IsLineBreak ·) = 0 := by omega
    have hc' := List.countP_eq_zero.mp hnone c (List.mem_flatten.mpr ⟨text, htext, hc⟩)
    exact hc' (decide_eq_true hbreak)
  · intro h
    have hmap : texts.map escapeBreaks = texts :=
      (List.map_congr_left fun text htext => escapeBreaks_eq_self_iff.mpr (h text htext)).trans
        (List.map_id' texts)
    rw [hmap]

end Text

open Text (IsLineBreak linesOf)

/-! ## Two ways of writing lines -/

theorem toText_eq_linesOf (time : String) (qs : List Query) :
    Report.toText ⟨time, qs.map Query.expand⟩ =
      linesOf ((qs.map fun q => (expandText q.text).toList).map Text.escapeBreaks) := by
  simp only [Report.toText, linesOf, List.flatMap_map, Query.expand, oneLine]

namespace ExpandQueries

theorem printed_eq_linesOf (qs : List Query) :
    printed qs = linesOf (qs.map fun q => (expandText q.text).toList) := by
  unfold printed linesOf
  rw [List.flatMap_map]

/-- What is printed is the text report of queries, unless one has a line break inside. -/
theorem printed_eq_toText_iff (time : String) (qs : List Query) :
    printed qs = Report.toText ⟨time, qs.map Query.expand⟩ ↔
      ∀ q ∈ qs, ∀ c ∈ (trimText q.text).toList, ¬ IsLineBreak c := by
  rw [printed_eq_linesOf, toText_eq_linesOf, eq_comm, Text.linesOf_escapeBreaks_eq_iff,
    List.forall_mem_map]
  refine forall₂_congr fun q _ => ?_
  constructor
  · exact fun h c hc hbreak => h c ((mem_expandText_iff q.text hbreak).mpr hc) hbreak
  · exact fun h c hc hbreak => h c ((mem_expandText_iff q.text hbreak).mp hc) hbreak

/-! ## Top theorem -/

/-- A command that names no file prints the expansions of its queries, each with a line feed.  That
is the text report of the queries if none of them has a line break inside, and only then. -/
theorem on_output_eq_render_iff {σ : Type} (store : Store σ) (env : Environment) (w : World σ)
    (time : String) {arguments : List String} {s : Settings}
    (hs : Settings.ofArguments arguments = .ok s) (hlist : s.listSymbols = false)
    (hcheck : s.check = .ok ()) (hin : s.input = none) {qs : List Query}
    (hqs : queriesFrom s w.input = .ok qs) :
    (on store env arguments w).1 =
        .success (linesOf (qs.map fun q => (expandText q.text).toList)) ∧
      (Text.Utf8.encode (on store env arguments w).1.output =
          Report.render ⟨time, qs.map Query.expand⟩ .txt ↔
        ∀ q ∈ qs, ∀ c ∈ (trimText q.text).toList, ¬ IsLineBreak c) := by
  have hon := on_print store env w hs hlist hcheck hin hqs
  refine ⟨by rw [hon, printed_eq_linesOf], ?_⟩
  rw [hon, ← printed_eq_toText_iff time]
  exact Text.Utf8.encode_inj

/-- A line feed at the end of a query is trimmed, and what is printed is the report. -/
theorem on_output_eq_render_ending :
    Text.Utf8.encode (on Tree.store .empty ["--", "this:name\n", "-i"]
        ⟨.startingAt "work", [], "", []⟩).1.output =
      Report.render ⟨"", ["this:name\n", "-i"].map fun q => (Query.unnamed q).expand⟩ .txt :=
  (on_output_eq_render_iff Tree.store .empty ⟨.startingAt "work", [], "", []⟩ ""
    (Settings.ofArguments_operands ["this:name\n", "-i"]) rfl (Settings.check_queries _) rfl
    rfl).2.mpr
    (List.forall_mem_cons.mpr ⟨Text.not_isLineBreak_of_all (by decide),
      List.forall_mem_singleton.mpr (Text.not_isLineBreak_of_all (by decide))⟩)

/-- A query with a line feed inside is printed on two lines, and reported on one. -/
theorem on_output_ne_render_break :
    (on Tree.store .empty ["--", "a\nb"] ⟨.startingAt "work", [], "", []⟩).1 =
        .success "a\nb\n".toList ∧
      Report.inFormat ⟨"", [(Query.unnamed "a\nb").expand]⟩ .txt = "a\\nb\n".toList := by
  have hprinted : printed [Query.unnamed "a\nb"] = "a\nb\n".toList := by decide
  constructor
  · rw [← hprinted]
    exact on_print Tree.store .empty _ (Settings.ofArguments_operands ["a\nb"]) rfl
      (Settings.check_queries _) rfl rfl
  · decide

end ExpandQueries

end Shorthand
