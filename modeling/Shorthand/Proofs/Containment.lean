import Shorthand.Proofs.Checks
import Shorthand.Proofs.Filing
import Shorthand.Proofs.Paths

/-!
# Reports stay in their folder

Settings and batches that pass their checks ask for at least one report, and all their reports are
files in the folder that they name.  Emitting a report can then fail in one way only, which is that
the store does not take a file:

    check = ok → emit writes files `folder/basename.extension` until the store fails
                                                                   (emitsWithin_of_check)

Over any store, writing takes file after file up to the first failure (`writeAll_ends`).
-/

namespace Shorthand

/-! ## Files in a folder -/

namespace Path

/-- The path names a file in a folder: it is the folder, a slash unless the folder ends in one, and
a single name, and the folder above the file is that folder. -/
structure NamesIn (folder name path : String) : Prop where
  spelled : path = folder ++ (if folder.toList.getLast? = some '/' then "" else "/") ++ name
  single : '/' ∉ name.toList
  notSelf : name ≠ "."
  notAbove : name ≠ ".."
  above : Tree.folderOf path.toList = parts folder.toList
  start : ∀ t : Tree, t.start path.toList = t.start folder.toList

section
variable {folder name : String}

theorem join_eq_append (hfolder : folder ≠ "") (hname : name ≠ "") (hsingle : '/' ∉ name.toList) :
    join folder name =
      folder ++ (if folder.toList.getLast? = some '/' then "" else "/") ++ name := by
  obtain ⟨c, cs, hcs⟩ := List.exists_cons_of_ne_nil (mt String.toList_eq_nil_iff.mp hname)
  have hc : c ≠ '/' := by
    rintro rfl
    exact hsingle (hcs ▸ List.mem_cons_self)
  rw [join_of_ne folder hcs hc]
  split
  · next hlast =>
    exact absurd (String.toList_eq_nil_iff.mp (List.getLast?_eq_none_iff.mp hlast)) hfolder
  · next hlast => rw [if_pos hlast, String.append_empty]
  · next c' hother hlast =>
    rw [if_neg]
    rw [hlast]
    exact fun he => hother (Option.some.inj he)

theorem steps_join (hfolder : folder ≠ "") (hname : name ≠ "") (hsingle : '/' ∉ name.toList) :
    steps (join folder name).toList = steps folder.toList ++ [name.toList] := by
  have hname' : name.toList ≠ [] := mt String.toList_eq_nil_iff.mp hname
  rw [join_eq_append hfolder hname hsingle, String.toList_append, String.toList_append]
  by_cases hlast : folder.toList.getLast? = some '/'
  · obtain ⟨cs, hcs⟩ := List.getLast?_eq_some_iff.mp hlast
    rw [if_pos hlast, hcs, steps_slash, ← steps_append cs hname' hsingle]
    simp
  · rw [if_neg hlast, ← steps_append folder.toList hname' hsingle]
    simp

/-- A file with a plain name, seen from a folder, is in the folder. -/
theorem namesIn_join (hfolder : folder ≠ "") (hname : name ≠ "") (hsingle : '/' ∉ name.toList)
    (hself : name ≠ ".") (habove : name ≠ "..") : NamesIn folder name (join folder name) where
  spelled := join_eq_append hfolder hname hsingle
  single := hsingle
  notSelf := hself
  notAbove := habove
  above := by
    have hself' : name.toList ≠ ['.'] := fun h => hself (String.toList_inj.mp h)
    rw [Tree.folderOf_eq]
    unfold parts
    rw [steps_join hfolder hname hsingle, List.filter_append]
    simp [hself']
  start := by
    intro t
    obtain ⟨c, cs, hcs⟩ := List.exists_cons_of_ne_nil (mt String.toList_eq_nil_iff.mp hfolder)
    unfold Tree.start
    rw [join_eq_append hfolder hname hsingle, String.toList_append, String.toList_append, hcs]
    rfl

end

end Path

/-! ## Writing to any store -/

section
variable {σ : Type} (store : Store σ)

/-- The store takes files one after the other. -/
inductive Store.Takes : σ → List Output → σ → Prop
  | none (s : σ) : Takes s [] s
  | more {s s' t : σ} {o : Output} {os : List Output}
      (one : store.write s o.path o.data = (.ok (), s')) (rest : Takes s' os t) :
      Takes s (o :: os) t

/-- How writing files ends: the store takes all of them, or it fails at one. -/
inductive Store.Ends (s : σ) : List Output → Except Fault (List String) × σ → Prop
  | taken {files : List Output} {t : σ} (all : store.Takes s files t) :
      Ends s files (.ok (files.map Output.path), t)
  | failed {done : List Output} {o : Output} {rest : List Output} {s' t : σ} {cause : IoFault}
      (before : store.Takes s done s') (stop : store.write s' o.path o.data = (.error cause, t)) :
      Ends s (done ++ o :: rest) (.error (.io cause), t)

open Run (on)

/-- Files are written one after the other, up to the first that the store does not take. -/
theorem Plan.writeAll_ends (time : String) (os : List Output) (s : σ) :
    store.Ends s os (on (writeAll (.ofStore store time) os) s) := by
  induction os generalizing s with
  | nil => exact .taken (.none s)
  | cons o os ih =>
    have hrest := ih (store.write s o.path o.data).2
    cases hwrite : store.write s o.path o.data with
    | mk answer s' =>
      cases answer with
      | error cause =>
        rw [on_writeAll_failed time hwrite]
        exact .failed (.none s) hwrite
      | ok u =>
        rw [on_writeAll_taken time hwrite]
        rw [hwrite] at hrest
        generalize on (writeAll (.ofStore store time) os) s' = ending at hrest ⊢
        cases hrest with
        | taken all => exact .taken (.more hwrite all)
        | failed before stop => exact .failed (.more hwrite before) stop

end

/-! ## Emitting -/

namespace Plan

open Run (on)

/-- Emitting a report writes at least one file, each of them in the folder and under the base name,
and fails only where the store does not take a file. -/
def EmitsWithin (p : Plan) (folder basename : String) : Prop :=
  ∀ {σ : Type} (store : Store σ) (time : String) (report : Report) (s : σ),
    ∃ files : List Output, files ≠ [] ∧
      (∀ o ∈ files, ∃ f : ReportFormat,
        Path.NamesIn folder (basename ++ "." ++ f.extension) o.path) ∧
      store.Ends s files (on (p.emit (.ofStore store time) report) s)

theorem namesIn_reportPath {p : Plan} (h : p.IsSound) (f : ReportFormat) :
    Path.NamesIn p.outputPath (p.basename ++ "." ++ f.extension) (p.reportPath f) := by
  have hext : 3 ≤ f.extension.length ∧ '/' ∉ f.extension.toList := by
    cases f <;> decide
  have hlength : 3 < (p.basename ++ "." ++ f.extension).length := by
    rw [String.length_append, String.length_append, show ".".length = 1 from rfl]
    omega
  have hne : ∀ name : String, name.length ≤ 3 → p.basename ++ "." ++ f.extension ≠ name := by
    intro name hname he
    rw [he] at hlength
    omega
  refine Path.namesIn_join h.folder (hne "" (by decide)) ?_ (hne "." (by decide))
    (hne ".." (by decide))
  rw [String.toList_append, String.toList_append]
  simpa using ⟨h.plain, hext.2⟩

theorem IsSound.emitsWithin {p : Plan} (h : p.IsSound) : p.EmitsWithin p.outputPath p.basename := by
  intro σ store time report s
  obtain ⟨fs, hfs, hmem⟩ := reportFormats_of_known h.known
  refine ⟨fs.map (p.reportFile report), ?_, ?_, ?_⟩
  · obtain ⟨name, hname⟩ := List.exists_mem_of_ne_nil _ h.formats
    obtain ⟨f, hf⟩ := Option.ne_none_iff_exists'.mp (h.known name hname)
    have hf' : f ∈ fs := (hmem f).mpr ⟨name, hname, hf⟩
    exact List.ne_nil_of_mem (List.mem_map_of_mem hf')
  · intro o ho
    obtain ⟨f, -, rfl⟩ := List.mem_map.mp ho
    exact ⟨f, namesIn_reportPath h f⟩
  · rw [on_emit, outputs_eq_map, hfs]
    exact writeAll_ends store time _ s

/-! ## Top theorem -/

/-- A batch or settings that pass their check emit reports into their output folder, under the base
name that is given or else `expanded`, and only a write of the store can make that fail. -/
theorem emitsWithin_of_check :
    (∀ b : Batch, b.check = .ok () →
      b.plan.EmitsWithin b.output.path (b.output.basename.getD "expanded")) ∧
    ∀ s : Settings, s.check = .ok () → s.plan.EmitsWithin s.outputPath s.basename := by
  constructor
  · intro b hb
    exact (Batch.isSound_plan hb).emitsWithin
  · intro s hs
    exact (Settings.isSound_plan hs).emitsWithin

/-- A batch that does not name its reports. -/
def unnamedReports : Batch :=
  ⟨⟨"nightly", none⟩, ⟨none, []⟩, ⟨"out/", ["csv", " TXT"], none⟩, none⟩

/-- Settings that name their reports almost as a folder names itself. -/
def dottedReports : Settings := ⟨[], some "q.txt", ".", ["json"], "...", false, false⟩

/-- Both pass, so reports go to `out/expanded.csv` and to `./....json`. -/
theorem emitsWithin_of_check_names :
    unnamedReports.plan.EmitsWithin "out/" "expanded" ∧ dottedReports.plan.EmitsWithin "." "..." :=
  ⟨emitsWithin_of_check.1 unnamedReports (by decide),
    emitsWithin_of_check.2 dottedReports (by decide)⟩

end Plan

end Shorthand
