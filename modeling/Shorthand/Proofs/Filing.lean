import Mathlib.Data.List.TakeWhile
import Shorthand.Proofs.RunEffect

/-!
# What emitting files on a shelf

Emitting a report depends on the names of a plan's formats only through the formats that they
denote, each where it comes up first (`Plan.reportFormats`).  With those formats it ends as the
refused paths decide, and files the reports before the first refused path (`on_emit_eq`):

    answer = all paths, or the first that is refused
    shelf  = the shelf before, with the reports in `accepted` formats

Formats that are the same in another order are written to the same paths in another order, so that
only the set of the formats matters (`emitAs_sameFormats`).
-/

namespace Shorthand

/-! ## Shelves -/

namespace Shelf

/-- What filing leads to is fixed by the files. -/
theorem Filed.get?_eq {s t t' : Shelf} {files files' : List Output} (h : s.Filed files t)
    (h' : s.Filed files' t') (hfiles : ∀ o, o ∈ files ↔ o ∈ files') (path : String) :
    t.get? path = t'.get? path := by
  by_cases hpath : ∃ o ∈ files, o.path = path
  · obtain ⟨o, ho, rfl⟩ := hpath
    rw [h.written o ho, h'.written o ((hfiles o).mp ho)]
  · have hnone : ∀ o ∈ files, o.path ≠ path := fun o ho he => hpath ⟨o, ho, he⟩
    rw [h.kept path hnone, h'.kept path fun o ho => hnone o ((hfiles o).mpr ho)]

end Shelf

namespace Plan

open Run (on)

/-! ## Formats -/

/-- A plan's formats come up once each. -/
theorem nodup_of_reportFormats {p : Plan} {fs : List ReportFormat} (h : p.reportFormats = .ok fs) :
    fs.Nodup := by
  unfold reportFormats at h
  cases hnames : p.formats.mapM formatOf with
  | error e =>
    rw [hnames] at h
    cases h
  | ok gs =>
    rw [hnames] at h
    cases h
    exact nodup_distinct gs

/-- Names that all denote formats give a plan those formats. -/
theorem reportFormats_of_known {p : Plan}
    (h : ∀ name ∈ p.formats, ReportFormat.ofName? name ≠ none) :
    ∃ fs, p.reportFormats = .ok fs ∧
      ∀ f, f ∈ fs ↔ ∃ name ∈ p.formats, ReportFormat.ofName? name = some f := by
  rcases mapM_formatOf_cases p.formats with ⟨pre, name, post, hnames, -, hname, -⟩ | ⟨gs, hgs, hok⟩
  · refine absurd hname (h name ?_)
    rw [hnames]
    exact List.mem_append_right _ List.mem_cons_self
  · refine ⟨distinct gs, by rw [reportFormats, hok]; rfl, fun f => ?_⟩
    rw [distinct_eq_eraseDups, List.mem_eraseDups]
    calc f ∈ gs ↔ some f ∈ gs.map some := by simp
      _ ↔ some f ∈ p.formats.map ReportFormat.ofName? := by rw [hgs]
      _ ↔ ∃ name ∈ p.formats, ReportFormat.ofName? name = some f := List.mem_map

theorem outputs_eq_map (p : Plan) (report : Report) :
    p.outputs report = p.reportFormats.map (·.map (p.reportFile report)) := by
  unfold outputs
  cases p.reportFormats <;> rfl

/-! ## Emitting -/

/-- What writing to some paths ends with, when some paths are refused. -/
def answerOf (refused paths : List String) : Except Fault (List String) :=
  match paths.find? refused.contains with
  | none => .ok paths
  | some path => .error (.io (.refused path))

/-- The formats before the first whose path is refused. -/
def accepted (p : Plan) (refused : List String) (fs : List ReportFormat) : List ReportFormat :=
  fs.takeWhile fun f => !refused.contains (p.reportPath f)

section
variable (time : String)

/-- Writing ends with the first refused path, and files what comes before it. -/
theorem on_writeAll_eq (os : List Output) (s : Shelf) (hos : (os.map Output.path).Nodup) :
    (on (writeAll (.ofStore Shelf.store time) os) s).1 =
        answerOf s.refused (os.map Output.path) ∧
      s.Filed (os.takeWhile fun o => !s.refused.contains o.path)
        (on (writeAll (.ofStore Shelf.store time) os) s).2 := by
  have hfree : ∀ {xs : List Output}, (∀ o ∈ xs, o.path ∉ s.refused) →
      ∀ o ∈ xs, (!s.refused.contains o.path) = true := by
    intro xs h o ho
    simpa using h o ho
  rcases on_writeAll time os s hos with
    ⟨t, hall, ht, hon⟩ | ⟨done, o, rest, t, rfl, hdone, ho, ht, hon⟩
  · rw [hon, List.takeWhile_eq_self_iff.mpr (hfree hall)]
    have hnone : (os.map Output.path).find? s.refused.contains = none := by
      simpa [List.find?_eq_none] using hall
    exact ⟨by rw [answerOf, hnone], ht⟩
  · have ho' : s.refused.contains o.path = true := List.contains_iff_mem.mpr ho
    rw [hon, List.takeWhile_append_of_pos (hfree hdone), List.takeWhile_cons_of_neg (by simp [ho]),
      List.append_nil]
    have hnone : (done.map Output.path).find? s.refused.contains = none := by
      simpa [List.find?_eq_none] using hdone
    have hsome : ((done ++ o :: rest).map Output.path).find? s.refused.contains = some o.path := by
      rw [List.map_append, List.find?_append, hnone, List.map_cons, List.find?_cons_of_pos ho']
      rfl
    exact ⟨by rw [answerOf, hsome], ht⟩

variable {p : Plan} {fs : List ReportFormat} (report : Report) (s : Shelf)

theorem on_emit_eq (h : p.reportFormats = .ok fs) :
    (on (p.emit (.ofStore Shelf.store time) report) s).1 =
        answerOf s.refused (fs.map p.reportPath) ∧
      s.Filed ((p.accepted s.refused fs).map (p.reportFile report))
        (on (p.emit (.ofStore Shelf.store time) report) s).2 := by
  have hpaths : (fs.map (p.reportFile report)).map Output.path = fs.map p.reportPath :=
    List.map_map
  have hapart := nodup_map_reportPath p (nodup_of_reportFormats h)
  have hwrite := on_writeAll_eq time (fs.map (p.reportFile report)) s (hpaths ▸ hapart)
  rw [hpaths, List.takeWhile_map] at hwrite
  rw [on_emit, outputs_eq_map, h]
  exact hwrite

theorem answerOf_eq_ok_iff {refused paths paths' : List String} :
    answerOf refused paths = .ok paths' ↔ paths = paths' ∧ ∀ path ∈ paths, path ∉ refused := by
  unfold answerOf
  cases hfind : paths.find? refused.contains with
  | none =>
    have hfree : ∀ path ∈ paths, path ∉ refused := by simpa [List.find?_eq_none] using hfind
    exact ⟨fun h => ⟨Except.ok.inj h, hfree⟩, fun h => congrArg Except.ok h.1⟩
  | some path =>
    have hpath : path ∈ refused := List.contains_iff_mem.mp (List.find?_some hfind)
    constructor
    · intro h
      cases h
    · intro h
      exact absurd hpath (h.2 path (List.mem_of_find?_eq_some hfind))

/-- Emitting succeeds unless a path is refused. -/
theorem emit_succeeds_iff (h : p.reportFormats = .ok fs) :
    (∃ paths, (on (p.emit (.ofStore Shelf.store time) report) s).1 = .ok paths) ↔
      ∀ f ∈ fs, p.reportPath f ∉ s.refused := by
  rw [(on_emit_eq time report s h).1, ← List.forall_mem_map (P := (· ∉ s.refused))]
  constructor
  · rintro ⟨paths, hpaths⟩
    exact (answerOf_eq_ok_iff.mp hpaths).2
  · exact fun hfree => ⟨_, answerOf_eq_ok_iff.mpr ⟨rfl, hfree⟩⟩

/-- Where emitting succeeds, all reports are filed. -/
theorem filed_of_emit_succeeds (h : p.reportFormats = .ok fs) {paths : List String}
    (hok : (on (p.emit (.ofStore Shelf.store time) report) s).1 = .ok paths) :
    fs.map p.reportPath = paths ∧
      s.Filed (fs.map (p.reportFile report))
        (on (p.emit (.ofStore Shelf.store time) report) s).2 := by
  obtain ⟨hanswer, hfiled⟩ := on_emit_eq time report s h
  rw [hok] at hanswer
  obtain ⟨hpaths, hfree⟩ := answerOf_eq_ok_iff.mp hanswer.symm
  have hall : p.accepted s.refused fs = fs := by
    refine List.takeWhile_eq_self_iff.mpr fun f hf => ?_
    simpa using hfree _ (List.mem_map_of_mem hf)
  rw [hall] at hfiled
  exact ⟨hpaths, hfiled⟩

end

/-! ## Top theorem -/

/-- Two lists of names denote the same formats. -/
def SameFormats (names names' : List String) : Prop :=
  ∀ f, (∃ name ∈ names, ReportFormat.ofName? name = some f) ↔
    ∃ name ∈ names', ReportFormat.ofName? name = some f

/-- What emitting ends with when the formats are named so, and the shelf that it leaves. -/
def emitAs (p : Plan) (time : String) (report : Report) (s : Shelf) (names : List String) :
    Except Fault (List String) × Shelf :=
  on (Plan.emit (.ofStore Shelf.store time) { p with formats := names } report) s

/-- Names that denote the same formats, in whatever order and however often, make emitting succeed
alike.  Where it succeeds, the shelves have the same files, and each path is there once. -/
theorem emitAs_sameFormats (p : Plan) (time : String) (report : Report) (s : Shelf)
    {names names' : List String} (hnames : ∀ name ∈ names, ReportFormat.ofName? name ≠ none)
    (hnames' : ∀ name ∈ names', ReportFormat.ofName? name ≠ none)
    (hsame : SameFormats names names') :
    ((∃ paths, (p.emitAs time report s names).1 = .ok paths) ↔
        ∃ paths, (p.emitAs time report s names').1 = .ok paths) ∧
      ∀ paths paths', (p.emitAs time report s names).1 = .ok paths →
        (p.emitAs time report s names').1 = .ok paths' →
        (∀ path, (p.emitAs time report s names).2.get? path =
          (p.emitAs time report s names').2.get? path) ∧
        (p.emitAs time report s names).2.refused = (p.emitAs time report s names').2.refused ∧
        paths.Perm paths' ∧ paths.Nodup ∧ paths'.Nodup := by
  obtain ⟨fs, hfs, hmem⟩ := reportFormats_of_known (p := { p with formats := names }) hnames
  obtain ⟨fs', hfs', hmem'⟩ := reportFormats_of_known (p := { p with formats := names' }) hnames'
  -- neither list of formats repeats one, so the same members make a permutation
  have hperm : fs.Perm fs' :=
    (List.perm_ext_iff_of_nodup (nodup_of_reportFormats hfs) (nodup_of_reportFormats hfs')).mpr
      fun f => (hmem f).trans ((hsame f).trans (hmem' f).symm)
  constructor
  · calc (∃ paths, (p.emitAs time report s names).1 = .ok paths)
        ↔ ∀ f ∈ fs, p.reportPath f ∉ s.refused := emit_succeeds_iff time report s hfs
      _ ↔ ∀ f ∈ fs', p.reportPath f ∉ s.refused :=
        forall_congr' fun f => imp_congr_left hperm.mem_iff
      _ ↔ ∃ paths, (p.emitAs time report s names').1 = .ok paths :=
        (emit_succeeds_iff time report s hfs').symm
  · intro paths paths' hok hok'
    obtain ⟨hpaths, hfiled⟩ := filed_of_emit_succeeds time report s hfs hok
    obtain ⟨hpaths', hfiled'⟩ := filed_of_emit_succeeds time report s hfs' hok'
    subst hpaths hpaths'
    refine ⟨hfiled.get?_eq hfiled' fun o => (hperm.map (p.reportFile report)).mem_iff, ?_,
      hperm.map p.reportPath, ?_, ?_⟩
    · exact hfiled.refused.trans hfiled'.refused.symm
    · exact nodup_map_reportPath p (nodup_of_reportFormats hfs)
    · exact nodup_map_reportPath p (nodup_of_reportFormats hfs')

/-- A plan for reports in a folder. -/
def reportsOnly : Plan := ⟨none, [], "out", [], "r"⟩

/-- A shelf that has one of the plan's reports and refuses another. -/
def oneReport : Shelf := ⟨[("out/r.txt", [0])], ["out/r.csv"]⟩

/-- Two formats under two names and, in another order, under four. -/
theorem emitAs_sameFormats_spellings :
    (reportsOnly.emitAs "" ⟨"", []⟩ oneReport [" TEXT\t", "Json"]).1 =
        .ok ["out/r.txt", "out/r.json"] ∧
      (reportsOnly.emitAs "" ⟨"", []⟩ oneReport ["json", "txt", "text", "JSON"]).1 =
        .ok ["out/r.json", "out/r.txt"] ∧
      ∀ path, (reportsOnly.emitAs "" ⟨"", []⟩ oneReport [" TEXT\t", "Json"]).2.get? path =
        (reportsOnly.emitAs "" ⟨"", []⟩ oneReport ["json", "txt", "text", "JSON"]).2.get? path := by
  have hok : (reportsOnly.emitAs "" ⟨"", []⟩ oneReport [" TEXT\t", "Json"]).1 =
      .ok ["out/r.txt", "out/r.json"] := by decide
  have hok' : (reportsOnly.emitAs "" ⟨"", []⟩ oneReport ["json", "txt", "text", "JSON"]).1 =
      .ok ["out/r.json", "out/r.txt"] := by decide
  have hsame : SameFormats [" TEXT\t", "Json"] ["json", "txt", "text", "JSON"] := by
    intro f
    cases f <;> decide
  have h := emitAs_sameFormats reportsOnly "" ⟨"", []⟩ oneReport (by decide) (by decide) hsame
  exact ⟨hok, hok', (h.2 _ _ hok hok').1⟩

end Plan

end Shorthand
