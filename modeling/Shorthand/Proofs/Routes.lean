import Shorthand.Proofs.PrintedLines
import Shorthand.Proofs.QueryTexts
import Shorthand.Proofs.ReportDocument
import Shorthand.Proofs.TreeWrites

/-!
# Routes of queries

Queries reach the command as arguments, on the standard input, in a file of lines, or in a JSON
file.  The first two print expansions and the others write a report, and for queries that stand on
one line each all four come to the same octets (`routes_agree`).

A plan with a file and one output reads the file, expands what it says, and writes the output
(`Plan.on_run_file`).
-/

namespace Shorthand

open Text (linesOf)
open Text.Utf8 (encode)

/-! ## Plans with a file -/

namespace Plan

open Run (on)

variable {σ : Type} {store : Store σ} {time : String} {p : Plan} {path : String} {s : σ}
  {data : List UInt8} {qs : List Query}

theorem on_collect_file (hpath : p.inputPath = some path) (hgiven : p.queries = [])
    (hread : store.read s path = .ok data) (hqs : QueryList.ofFile path data = .ok qs)
    (hne : qs ≠ []) : on (p.collect (.ofStore store time)) s = (.ok qs, s) := by
  have hfile : on (p.fileQueries (.ofStore store time)) s = (.ok qs, s) := by
    simp [fileQueries, hpath, hread, hqs, Except.map]
  simp [collect, hfile, hgiven, hne]

theorem on_writeAll_one {o : Output} {s' : σ}
    (hwrite : store.write s o.path o.data = (.ok (), s')) :
    on (writeAll (.ofStore store time) [o]) s = (.ok [o.path], s') := by
  simp [writeAll, hwrite, Except.map]

/-- A plan with a file and one output writes the report of the file's queries. -/
theorem on_run_file (hpath : p.inputPath = some path) (hgiven : p.queries = [])
    (hread : store.read s path = .ok data) (hqs : QueryList.ofFile path data = .ok qs)
    (hne : qs ≠ []) {o : Output} (ho : p.outputs ⟨time, qs.map Query.expand⟩ = .ok [o]) {s' : σ}
    (hwrite : store.write s o.path o.data = (.ok (), s')) :
    on (p.run (.ofStore store time)) s = (.ok [o.path], s') := by
  rw [on_run, on_preview, on_collect_file hpath hgiven hread hqs hne]
  dsimp only [Except.map]
  rw [on_emit, ho]
  exact on_writeAll_one hwrite

end Plan

/-! ## Trees with a file of queries -/

theorem Path.mem_join (first : String) {second : String} {c : Char} (h : c ∈ second.toList) :
    c ∈ (join first second).toList := by
  unfold join
  split
  · exact h
  · split
    · exact h
    · rw [String.toList_append]
      exact List.mem_append_right _ h
    · rw [String.toList_append]
      exact List.mem_append_right _ h

/-- The folder of reports where no other is chosen. -/
def outputFolder : Name := "output".toList

/-- The file of the text report where no other is chosen. -/
def textReport : Name := "expanded.txt".toList

namespace Tree

theorem leadsTo_textReport : LeadsTo "././output/expanded.txt".toList outputFolder textReport where
  permitted := by decide
  relative := by decide
  namesFile := by decide
  steps := ⟨2, by decide⟩
  plainFolder := ⟨by decide, by decide, by decide⟩
  plainName := ⟨by decide, by decide, by decide⟩

theorem nul_not_mem_of_read {t : Tree} {path : String} {data : List UInt8}
    (h : t.read path = .ok data) : '\x00' ∉ path.toList := by
  intro hmem
  have hpermit : permit path.toList = .error .nulInPath := if_pos (List.contains_iff_mem.mpr hmem)
  unfold Tree.read at h
  rw [hpermit] at h
  cases h

/-- The starting folder is no file. -/
theorem read_here {t : Tree} (h : t.node? t.here = some .folder) :
    t.read "./" = .error (.os .isDirectory) := by
  have hlocate : t.locate "./".toList = .ok t.here := by
    show t.walk t.here (List.replicate 2 self ++ []) = _
    rw [walk_dots h]
    rfl
  have hfile : t.fileAt "./".toList = .error .isDirectory := by
    unfold fileAt
    rw [hlocate]
    dsimp only [bind, Except.bind]
    rw [h]
  unfold Tree.read
  rw [hfile]
  rfl

/-- The tree has a file with these octets at a path, and room for a text report. -/
structure Serves (t : Tree) (path : String) (data : List UInt8) : Prop where
  read : t.read (Path.join "." path) = .ok data
  here : t.node? t.here = some .folder
  folder : ∀ other, t.node? (t.here ++ [outputFolder]) ≠ some (.file other)
  file : t.node? (t.here ++ [outputFolder, textReport]) ≠ some .folder

/-- A path that is read is in order. -/
theorem Serves.check_path {t : Tree} {path : String} {data : List UInt8} (h : t.Serves path data)
    (field : String) : Check.path field path = .ok () := by
  have hempty : path ≠ "" := by
    rintro rfl
    have hread : t.read "./" = .ok data := h.read
    rw [read_here h.here] at hread
    cases hread
  have hnul : '\x00' ∉ path.toList := fun hmem =>
    nul_not_mem_of_read h.read (Path.mem_join "." hmem)
  unfold Check.path
  rw [if_neg (mt String.isEmpty_iff.mp hempty), if_neg (mt List.contains_iff_mem.mp hnul)]

end Tree

/-! ## The command over a tree -/

namespace ExpandQueries

/-- The expansions of queries, one after the other, each with a line feed. -/
def expansions (qs : List String) : List Char := linesOf (qs.map fun q => (expandText q).toList)

theorem printed_unnamed (qs : List String) : printed (qs.map Query.unnamed) = expansions qs := by
  rw [printed_eq_linesOf, List.map_map]
  rfl

/-- The text report of queries on one line each has their expansions as they are. -/
theorem render_unnamed (time : String) {qs : List String} (hqs : ∀ q ∈ qs, IsQueryLine q) :
    Report.render ⟨time, (qs.map Query.unnamed).map Query.expand⟩ .txt =
      encode (expansions qs) := by
  have hbreaks : ∀ q ∈ qs.map Query.unnamed, ∀ c ∈ (trimText q.text).toList,
      ¬ Text.IsLineBreak c := by
    refine List.forall_mem_map.mpr fun q hq c hc => ?_
    exact (hqs q hq).unbroken c (mem_of_mem_trimText hc)
  have htext := (printed_eq_toText_iff time _).mpr hbreaks
  rw [printed_unnamed] at htext
  exact congrArg encode htext.symm

/-- The command with a file ends well, and leaves these octets as its text report. -/
def LeavesReport (env : Environment) (w : World Tree) (path : String)
    (report : List UInt8) : Prop :=
  (on Tree.store env ["--input", path] w).1.exitCode = 0 ∧
    (on Tree.store env ["--input", path] w).2.files.node?
      (w.files.here ++ [outputFolder, textReport]) = some (.file report)

/-- Settings that choose nothing but a file ask for a text report. -/
theorem outputs_standard (path : String) (report : Report) :
    (Settings.plan { Settings.standard with input := some path }).outputs report =
      .ok [⟨"./output/expanded.txt", report.render .txt⟩] := by
  have htxt : ReportFormat.ofName? "txt" = some .txt := by decide
  have hformats : ["txt"].mapM Plan.formatOf = .ok [.txt] := by
    rw [List.mapM_cons, Plan.formatOf, htxt]
    rfl
  have hpath : Path.join "./output" ("expanded" ++ "." ++ "txt") = "./output/expanded.txt" := by
    decide
  rw [Plan.outputs_of_formats _ report hformats, ← hpath]
  rfl

/-- A file that gives queries leads to their text report. -/
theorem leavesReport_of_serves (env : Environment) {w : World Tree} {path : String}
    {data : List UInt8} (hdash : path.toList.head? ≠ some '-')
    (hserves : w.files.Serves path data) {qs : List Query}
    (hqs : QueryList.ofFile path data = .ok qs) (hne : qs ≠ []) :
    LeavesReport env w path (Report.render ⟨w.time, qs.map Query.expand⟩ .txt) := by
  have hjoin : Path.join "." "./output/expanded.txt" = "././output/expanded.txt" := by decide
  obtain ⟨t, hwrite, hnode⟩ := Tree.write_leadsTo Tree.leadsTo_textReport hserves.here
    hserves.folder hserves.file (Report.render ⟨w.time, qs.map Query.expand⟩ .txt)
  -- a run sees its paths from the working folder
  have hwithin : (Tree.store.within ".").write w.files "./output/expanded.txt"
      (Report.render ⟨w.time, qs.map Query.expand⟩ .txt) = (.ok (), t) := by
    show w.files.write (Path.join "." "./output/expanded.txt") _ = _
    rw [hjoin, hwrite]
  have hrun := Plan.on_run_file rfl rfl hserves.read hqs hne
    (outputs_standard path ⟨w.time, qs.map Query.expand⟩) hwithin
  obtain ⟨houtcome, hfiles⟩ := on_report Tree.store env w (Settings.ofArguments_input hdash) rfl
    (Settings.check_input (hserves.check_path "input")) rfl
  rw [hrun] at houtcome hfiles
  exact ⟨congrArg Outcome.exitCode houtcome, hfiles ▸ hnode⟩

/-! ## Top theorem -/

/-- Queries on one line each are expanded alike on all routes: behind `--`, on the standard input,
in a file of lines, and in a JSON file however its strings are spelled. -/
theorem routes_agree (env : Environment) (w : World Tree) {qs : List String} (hne : qs ≠ [])
    (hqs : ∀ q ∈ qs, IsQueryLine q) :
    (on Tree.store env ("--" :: qs) w).1 = .success (expansions qs) ∧
      (on Tree.store env [] { w with input := encode (linesOf (qs.map String.toList)) }).1 =
        .success (expansions qs) ∧
      (∀ path, path.toList.head? ≠ some '-' → QueryList.isJsonPath path = false →
        w.files.Serves path (encode (linesOf (qs.map String.toList))) →
        LeavesReport env w path (encode (expansions qs))) ∧
      ∀ path, path.toList.head? ≠ some '-' → QueryList.isJsonPath path = true →
        ∀ ws t vs, Json.Blanks ws → Json.ArrayText Json.StringText qs t → Json.Blanks vs →
        w.files.Serves path (encode (ws ++ t ++ vs)) →
        LeavesReport env w path (encode (expansions qs)) := by
  have hne' : qs.map Query.unnamed ≠ [] := by simpa using hne
  refine ⟨?_, ?_, ?_, ?_⟩
  · have hgiven : queriesFrom { Settings.standard with queries := qs.map Query.unnamed } w.input =
        .ok (qs.map Query.unnamed) := if_neg (by simpa using hne')
    rw [← printed_unnamed]
    exact on_print Tree.store env w (Settings.ofArguments_operands qs) rfl
      (Settings.check_queries _) rfl hgiven
  · rw [← printed_unnamed]
    exact on_print Tree.store env _ Settings.ofArguments_nil rfl (Settings.check_queries []) rfl
      (QueryList.ofStream_linesOf hqs)
  · intro path hdash hpath hserves
    rw [← render_unnamed w.time hqs]
    exact leavesReport_of_serves env hdash hserves (QueryList.ofFile_linesOf hpath hqs) hne'
  · intro path hdash hpath ws t vs hw ht hv hserves
    rw [← render_unnamed w.time hqs]
    exact leavesReport_of_serves env hdash hserves (QueryList.ofFile_array hpath hw ht hv) hne'

/-- A folder that has two queries in a file of lines and in a JSON file. -/
def twoFiles : Tree :=
  ((Tree.startingAt "work").put ["work".toList, "f.txt".toList]
    (.file (encode "self:id\n-\"i\"\n".toList))).put ["work".toList, "f.json".toList]
    (.file (encode "[\"self:id\" ,\"-\\\"i\\\"\"]\n".toList))

theorem serves_twoFiles {path : String} {data : List UInt8}
    (h : twoFiles.read (Path.join "." path) = .ok data) : twoFiles.Serves path data where
  read := h
  here := by decide
  folder := fun other hnode => by
    have hnone : twoFiles.node? (twoFiles.here ++ [outputFolder]) = none := by decide
    rw [hnone] at hnode
    cases hnode
  file := by decide

/-- Two queries on all routes, one with an escape in the JSON file and a dash at its start. -/
theorem routes_agree_twoFiles :
    (on Tree.store .empty ["--", "self:id", "-\"i\""] ⟨twoFiles, [], "", []⟩).1 =
        .success (expansions ["self:id", "-\"i\""]) ∧
      (on Tree.store .empty [] ⟨twoFiles, encode "self:id\n-\"i\"\n".toList, "", []⟩).1 =
        .success (expansions ["self:id", "-\"i\""]) ∧
      LeavesReport .empty ⟨twoFiles, [], "", []⟩ "f.txt"
        (encode (expansions ["self:id", "-\"i\""])) ∧
      LeavesReport .empty ⟨twoFiles, [], "", []⟩ "f.json"
        (encode (expansions ["self:id", "-\"i\""])) := by
  have hlines : ∀ q ∈ ["self:id", "-\"i\""], IsQueryLine q :=
    List.forall_mem_cons.mpr ⟨isQueryLine_of_all (by decide) (by decide),
      List.forall_mem_singleton.mpr (isQueryLine_of_all (by decide) (by decide))⟩
  have harray := Json.ArrayText.row (Json.Row.more Json.blanks_nil
    (Json.stringText_quote "self:id") Json.blanks_blank
    (Json.Row.last Json.blanks_nil (Json.stringText_quote "-\"i\"") Json.blanks_nil))
  obtain ⟨hgiven, hinput, htext, hjson⟩ :=
    routes_agree .empty ⟨twoFiles, [], "", []⟩ (by decide) hlines
  refine ⟨hgiven, hinput, htext "f.txt" (by decide) (by decide) (serves_twoFiles (by decide)), ?_⟩
  exact hjson "f.json" (by decide) (by decide) [] _ _ Json.blanks_nil harray
    (Json.blanks_newline 0) (serves_twoFiles (by decide))

end ExpandQueries

end Shorthand
