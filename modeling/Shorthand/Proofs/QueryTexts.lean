import Shorthand.Proofs.JsonValues
import Shorthand.Proofs.LineBreaks
import Shorthand.Proofs.Octets

/-!
# Texts of queries

A list of queries can be written as lines or as a JSON array of strings, and each is read as the
list that was written:

    ofText (linesOf qs) = qs                    for queries that are no blank lines (ofText_linesOf)
    ofJson t = qs                               for t an array of strings           (ofJson_array)
-/

namespace Shorthand

/-- A query that stands on a line of its own: it has no line break, and not only blanks. -/
structure IsQueryLine (q : String) : Prop where
  content : ∃ c ∈ q.toList, Text.isBlank c = false
  unbroken : ∀ c ∈ q.toList, ¬ Text.IsLineBreak c

theorem isQueryLine_of_all {q : String} (hblank : Text.allBlank q.toList = false)
    (hbreak : q.toList.all (fun c => !decide (Text.IsLineBreak c)) = true) : IsQueryLine q where
  content := by simpa [Text.allBlank] using hblank
  unbroken := Text.not_isLineBreak_of_all hbreak

theorem IsQueryLine.allBlank_eq_false {q : String} (h : IsQueryLine q) :
    Text.allBlank q.toList = false := by
  obtain ⟨c, hc, hblank⟩ := h.content
  rw [Text.allBlank, List.all_eq_false]
  exact ⟨c, hc, by rw [hblank]; exact Bool.false_ne_true⟩

/-! ## Arrays of strings -/

namespace QueryList

open Json (Blanks StringText ArrayText ReadsItem)
open Text (linesOf)
open Text.Utf8 (encode)

/-- A string is the entry of a query without a name. -/
theorem readsItem_entry (s : String) (t : List Char) (ht : StringText s t) :
    ReadsItem entry t (Query.unnamed s) := by
  have hvalue := Json.readsItem_value (.string ht) (Nat.zero_le (Json.maxDepth - 1))
  refine ⟨fun rest hrest => ?_, hvalue.2⟩
  unfold entry
  rw [Json.bind_ok (hvalue.1 rest hrest)]
  rfl

/-! ## Reading what was written -/

/-- Lines are read as the queries that they are. -/
theorem ofText_linesOf {qs : List String} (h : ∀ q ∈ qs, IsQueryLine q) :
    ofText (linesOf (qs.map String.toList)) = qs.map Query.unnamed := by
  have hlines : Text.lines (linesOf (qs.map String.toList)) = qs.map String.toList :=
    Text.lines_linesOf (List.forall_mem_map.mpr fun q hq => (h q hq).unbroken)
  have hfilter : (qs.map String.toList).filter (fun line => !Text.allBlank line) =
      qs.map String.toList := by
    refine List.filter_eq_self.mpr (List.forall_mem_map.mpr fun q hq => ?_)
    rw [(h q hq).allBlank_eq_false]
    rfl
  unfold ofText
  rw [hlines, hfilter, List.map_map]
  exact List.map_congr_left fun q _ => congrArg Query.unnamed String.ofList_toList

/-- A stream of text gives the queries of the text. -/
theorem ofStream_encode (cs : List Char) : ofStream (encode cs) = .ok (ofText cs) := by
  simp [ofStream]

/-- So does a file that is not read as JSON. -/
theorem ofFile_encode {path : String} (hpath : isJsonPath path = false) (cs : List Char) :
    ofFile path (encode cs) = .ok (ofText cs) := by
  simp [ofFile, hpath]

theorem ofStream_linesOf {qs : List String} (h : ∀ q ∈ qs, IsQueryLine q) :
    ofStream (encode (linesOf (qs.map String.toList))) = .ok (qs.map Query.unnamed) := by
  rw [ofStream_encode, ofText_linesOf h]

/-- A file of lines gives the queries on them. -/
theorem ofFile_linesOf {path : String} (hpath : isJsonPath path = false) {qs : List String}
    (h : ∀ q ∈ qs, IsQueryLine q) :
    ofFile path (encode (linesOf (qs.map String.toList))) = .ok (qs.map Query.unnamed) := by
  rw [ofFile_encode hpath, ofText_linesOf h]

/-- An array of strings is read as queries without names. -/
theorem ofJson_array {ws t vs : List Char} (hw : Blanks ws) {qs : List String}
    (ht : ArrayText StringText qs t) (hv : Blanks vs) :
    ofJson (encode (ws ++ t ++ vs)) = .ok (qs.map Query.unnamed) := by
  have hitems : ArrayText (fun q t => ReadsItem entry t q) (qs.map Query.unnamed) t :=
    ht.map fun s _ => readsItem_entry s
  exact Json.readAll_of_reads (Json.reads_listOf hw hitems) hv

/-- A JSON file with an array of strings gives them as queries. -/
theorem ofFile_array {path : String} (hpath : isJsonPath path = true) {ws t vs : List Char}
    (hw : Blanks ws) {qs : List String} (ht : ArrayText StringText qs t) (hv : Blanks vs) :
    ofFile path (encode (ws ++ t ++ vs)) = .ok (qs.map Query.unnamed) := by
  unfold ofFile
  rw [if_pos hpath, ofJson_array hw ht hv]
  rfl

end QueryList

end Shorthand
