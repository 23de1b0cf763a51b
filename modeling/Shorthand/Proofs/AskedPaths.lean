import Shorthand.Proofs.Containment
import Shorthand.Store.Shelf

/-!
# The paths that a store is asked to write

A store that notes what it is asked (`Store.noting`) shows which paths emitting passes on, also
where a write fails.  For settings and batches that pass their checks these paths are never empty,
and they have a NUL just where the base name has one, which no check looks for:

    check = ok → (every path that is asked passes the check of paths ↔ no NUL in the base name)
                                                                        (askedPaths_pass_iff)
-/

namespace Shorthand

open Run (on)

/-! ## Noting -/

/-- The store that also notes the paths that it is asked to write, in order. -/
def Store.noting {σ : Type} (store : Store σ) : Store (σ × List String) where
  read s path := store.read s.1 path
  write s path data :=
    ((store.write s.1 path data).1, (store.write s.1 path data).2, s.2 ++ [path])

/-- The paths that emitting a report asks a store in the state `s` to write, in order. -/
def Plan.askedPaths {σ : Type} (p : Plan) (store : Store σ) (time : String) (report : Report)
    (s : σ) : List String :=
  (on (p.emit (.ofStore store.noting time) report) (s, [])).2.2

section
variable {σ : Type} {store : Store σ}

theorem Store.snd_noting_write (s : σ × List String) (path : String) (data : List UInt8) :
    (store.noting.write s path data).2.2 = s.2 ++ [path] := rfl

/-- Files that are taken have been noted one after the other. -/
theorem Store.Takes.noted {s t : σ × List String} {files : List Output}
    (h : store.noting.Takes s files t) : t.2 = s.2 ++ files.map Output.path := by
  induction h with
  | none s => rw [List.map_nil, List.append_nil]
  | @more s s' t o os one rest ih =>
    have hs' : s'.2 = s.2 ++ [o.path] := by
      rw [← snd_noting_write s o.path o.data, one]
    rw [ih, hs', List.append_assoc]
    rfl

/-- Writing asks for files from the first on, and for one at least. -/
theorem Store.Ends.noted {s : σ × List String} {files : List Output}
    {ending : Except Fault (List String) × σ × List String}
    (h : store.noting.Ends s files ending) (hfiles : files ≠ []) :
    ∃ asked rest, files = asked ++ rest ∧ asked ≠ [] ∧
      ending.2.2 = s.2 ++ asked.map Output.path := by
  cases h with
  | @taken _ t all => exact ⟨files, [], (List.append_nil files).symm, hfiles, all.noted⟩
  | @failed done o rest s' t cause before stop =>
    refine ⟨done ++ [o], rest, by rw [List.append_assoc]; rfl, by simp, ?_⟩
    have ht : t.2 = s'.2 ++ [o.path] := by
      rw [← snd_noting_write s' o.path o.data, stop]
    rw [ht, before.noted, List.map_append, List.append_assoc]
    rfl

end

/-! ## What is asked -/

theorem Path.NamesIn.mem_iff {folder name path : String} (h : Path.NamesIn folder name path)
    {c : Char} (hc : c ≠ '/') : c ∈ path.toList ↔ c ∈ folder.toList ∨ c ∈ name.toList := by
  have hslash : c ∉ (if folder.toList.getLast? = some '/' then "" else "/" : String).toList := by
    split
    · exact List.not_mem_nil
    · exact fun hmem => hc (List.mem_singleton.mp hmem)
  rw [h.spelled, String.toList_append, String.toList_append, List.mem_append, List.mem_append]
  simp only [hslash, or_false]

theorem Path.NamesIn.ne_empty {folder name path : String} (h : Path.NamesIn folder name path)
    (hfolder : folder ≠ "") : path ≠ "" := by
  intro he
  have hspelled := congrArg String.toList (h.spelled.symm.trans he)
  rw [String.toList_append, String.toList_append] at hspelled
  have hnil : folder.toList = [] :=
    (List.append_eq_nil_iff.mp (List.append_eq_nil_iff.mp hspelled).1).1
  exact hfolder (String.toList_eq_nil_iff.mp hnil)

namespace Plan

/-- Where a report is emitted into a folder whose path passes, the paths that are asked pass if and
only if the base name has no NUL. -/
theorem pass_iff_of_emitsWithin {p : Plan} {folder basename : String}
    (h : p.EmitsWithin folder basename) {field : String}
    (hfolder : Check.path field folder = .ok ()) {σ : Type} (store : Store σ) (time : String)
    (report : Report) (s : σ) :
    (∀ path ∈ p.askedPaths store time report s, Check.path field path = .ok ()) ↔
      '\x00' ∉ basename.toList := by
  obtain ⟨hne, hnul⟩ := Check.path_eq_ok_iff.mp hfolder
  obtain ⟨files, hfiles, hnames, hends⟩ := h store.noting time report (s, [])
  obtain ⟨asked, rest, hsplit, hasked, hnoted⟩ := hends.noted hfiles
  have hpaths : p.askedPaths store time report s = asked.map Output.path := hnoted
  have hnul_iff : ∀ o ∈ asked, ('\x00' ∈ o.path.toList ↔ '\x00' ∈ basename.toList) := by
    intro o ho
    obtain ⟨f, hf⟩ := hnames o (by rw [hsplit]; exact List.mem_append_left rest ho)
    have hext : '\x00' ∉ ".".toList ++ f.extension.toList := by cases f <;> decide
    rw [hf.mem_iff (by decide), String.toList_append, String.toList_append, List.append_assoc,
      List.mem_append]
    simp only [hnul, hext, false_or, or_false]
  rw [hpaths, List.forall_mem_map]
  constructor
  · -- there is a path that is asked, and its NUL can only be that of the base name
    intro hpass
    obtain ⟨o, ho⟩ := List.exists_mem_of_ne_nil asked hasked
    exact mt (hnul_iff o ho).mpr (Check.path_eq_ok_iff.mp (hpass o ho)).2
  · intro hbasename o ho
    obtain ⟨f, hf⟩ := hnames o (by rw [hsplit]; exact List.mem_append_left rest ho)
    exact Check.path_eq_ok_iff.mpr ⟨hf.ne_empty hne, mt (hnul_iff o ho).mp hbasename⟩

end Plan

theorem Batch.check_path_of_check {b : Batch} (h : b.check = .ok ()) (field : String) :
    Check.path field b.output.path = .ok () := by
  rw [check_eq] at h
  simp only [Check.bind_eq_ok_iff] at h
  exact Check.path_eq_ok_iff.mpr (Check.path_eq_ok_iff.mp h.2.2.2.1)

theorem Settings.check_path_of_check {s : Settings} (h : s.check = .ok ()) (field : String) :
    Check.path field s.outputPath = .ok () := by
  rw [check_eq] at h
  simp only [Check.bind_eq_ok_iff] at h
  exact Check.path_eq_ok_iff.mpr (Check.path_eq_ok_iff.mp h.2.1)

/-! ## Top theorem -/

/-- For a batch or settings that pass their check, and over any store: the paths that emitting asks
the store to write all pass the check of paths if and only if the base name has no NUL. -/
theorem Plan.askedPaths_pass_iff {σ : Type} (store : Store σ) (time : String) (report : Report)
    (s : σ) (field : String) :
    (∀ b : Batch, b.check = .ok () →
      ((∀ path ∈ b.plan.askedPaths store time report s, Check.path field path = .ok ()) ↔
        '\x00' ∉ (b.output.basename.getD "expanded").toList)) ∧
    ∀ t : Settings, t.check = .ok () →
      ((∀ path ∈ t.plan.askedPaths store time report s, Check.path field path = .ok ()) ↔
        '\x00' ∉ t.basename.toList) := by
  constructor
  · intro b hb
    exact pass_iff_of_emitsWithin (Batch.isSound_plan hb).emitsWithin
      (Batch.check_path_of_check hb field) store time report s
  · intro t ht
    exact pass_iff_of_emitsWithin (Settings.isSound_plan ht).emitsWithin
      (Settings.check_path_of_check ht field) store time report s

/-- A batch whose reports have a NUL in their name. -/
def Batch.nulNamed : Batch :=
  ⟨⟨"nightly", none⟩, ⟨none, []⟩, ⟨"out", ["txt", "csv"], some "a\x00b"⟩, none⟩

/-- Settings that name their reports plainly. -/
def Settings.plainNamed : Settings := ⟨[], none, "out/", ["json"], "a b", false, false⟩

/-- The batch passes its check but asks for a path that does not pass; the settings only ask for
paths that do. -/
theorem Plan.askedPaths_pass_iff_names :
    (¬ ∀ path ∈ Batch.nulNamed.plan.askedPaths Shelf.store "" ⟨"", []⟩ ⟨[], []⟩,
        Check.path "output.path" path = .ok ()) ∧
      ∀ path ∈ Settings.plainNamed.plan.askedPaths Shelf.store "" ⟨"", []⟩ ⟨[], ["out/a b.json"]⟩,
        Check.path "output_path" path = .ok () := by
  have hnul := (Plan.askedPaths_pass_iff Shelf.store "" ⟨"", []⟩ ⟨[], []⟩ "output.path").1
    Batch.nulNamed (by decide)
  have hplain := (Plan.askedPaths_pass_iff Shelf.store "" ⟨"", []⟩ ⟨[], ["out/a b.json"]⟩
    "output_path").2 Settings.plainNamed (by decide)
  exact ⟨fun h => hnul.mp h (by decide), hplain.mpr (by decide)⟩

/-- A base name with a NUL passes the check of base names, and emitting then asks for paths that
the check of paths does not let pass. -/
theorem Batch.askedPaths_nulNamed :
    Batch.nulNamed.check = .ok () ∧
      Batch.nulNamed.plan.askedPaths Shelf.store "" ⟨"", []⟩ ⟨[], []⟩ =
        ["out/a\x00b.txt", "out/a\x00b.csv"] ∧
      Check.path "output.path" "out/a\x00b.txt" =
        .error (.invalidValue "output.path" "out/a\x00b.txt" "Path contains null bytes") := by
  decide

end Shorthand
