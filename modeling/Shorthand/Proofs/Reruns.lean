import Shorthand.Proofs.Filing

/-!
# Running again

A run reads one file and writes its reports.  As long as it does not write the file that it reads,
the next run finds the same queries, and nothing that the first run did makes it end otherwise:

    answer of the second run = answer of the first
    shelf after the second   = shelf after the first, but for the time in a JSON report

This holds wherever the first run ended, also at a refused path with some reports written
(`on_run_again`).
-/

namespace Shorthand

/-- Only a JSON report tells its time. -/
theorem Report.render_eq_of_ne_json (time time' : String) (xs : List ExpandedQuery)
    {f : ReportFormat} (hf : f ≠ .json) :
    Report.render ⟨time, xs⟩ f = Report.render ⟨time', xs⟩ f := by
  cases f with
  | txt => rfl
  | json => exact absurd rfl hf
  | csv => rfl
  | tsv => rfl

namespace Plan

open Run (on)

/-! ## What a preview depends on -/

/-- The plan's file, if it has one, is read alike in both states. -/
def ReadsAlike {σ : Type} (p : Plan) (store : Store σ) (s t : σ) : Prop :=
  ∀ path, p.inputPath = some path → store.read s path = store.read t path

section
variable {σ : Type} {store : Store σ} {p : Plan} {s t : σ} (time time' : String)

theorem fileQueries_congr (h : p.ReadsAlike store s t) :
    (on (p.fileQueries (.ofStore store time)) s).1 =
      (on (p.fileQueries (.ofStore store time')) t).1 := by
  unfold fileQueries
  cases hp : p.inputPath with
  | none => rfl
  | some path =>
    cases hread : store.read t path with
    | error e => simp [h path hp, hread]
    | ok data =>
      cases hfile : QueryList.ofFile path data <;>
        simp [h path hp, hread, hfile, Except.map]

theorem collect_congr (h : p.ReadsAlike store s t) :
    (on (p.collect (.ofStore store time)) s).1 = (on (p.collect (.ofStore store time')) t).1 := by
  unfold collect
  simp only [Run.on_bind, Run.on_tell]
  rw [(keeps_fileQueries store time p).on_eq s,
    (keeps_fileQueries store time' p).on_eq t, fileQueries_congr time time' h]
  cases (on (p.fileQueries (.ofStore store time')) t).1 with
  | error e => rfl
  | ok queries =>
    dsimp only
    split <;> rfl

/-- A preview depends on the plan's file and on nothing else. -/
theorem preview_congr (h : p.ReadsAlike store s t) :
    (on (p.preview (.ofStore store time)) s).1 = (on (p.preview (.ofStore store time')) t).1 := by
  rw [on_preview, on_preview, collect_congr time time' h]

end

/-! ## Two runs -/

/-- The paths that a run writes: those of the plan's reports, up to the first that is refused. -/
def writtenPaths (p : Plan) (s : Shelf) : List String :=
  match p.reportFormats with
  | .ok fs => (p.accepted s.refused fs).map p.reportPath
  | .error _ => []

end Plan

/-- The shelves have the same files, except that the plan's JSON report may tell another time. -/
structure Shelf.SameButTime (p : Plan) (time time' : String) (s t : Shelf) : Prop where
  files : ∀ path, t.get? path = s.get? path ∨
    path = p.reportPath .json ∧ ∃ xs, s.get? path = some (Report.render ⟨time, xs⟩ .json) ∧
      t.get? path = some (Report.render ⟨time', xs⟩ .json)
  refused : t.refused = s.refused

theorem Shelf.sameButTime_self (p : Plan) (time time' : String) (s : Shelf) :
    s.SameButTime p time time' s :=
  ⟨fun _ => Or.inl rfl, rfl⟩

namespace Plan

open Run (on)

section
variable {time time' : String} {p : Plan} {s t u : Shelf} {r r' : Except Fault (List String)}

/-- Emitting leaves alone what is not written. -/
theorem get?_of_emit {report : Report}
    (h : on (p.emit (.ofStore Shelf.store time) report) s = (r, t)) {path : String}
    (hpath : path ∉ p.writtenPaths s) : t.get? path = s.get? path := by
  unfold writtenPaths at hpath
  cases hfs : p.reportFormats with
  | error e =>
    rw [on_emit, outputs_eq_map, hfs] at h
    cases h
    rfl
  | ok fs =>
    have hfiled := (on_emit_eq time report s hfs).2
    rw [h] at hfiled
    rw [hfs] at hpath
    refine hfiled.kept path fun o ho he => hpath ?_
    obtain ⟨f, hf, rfl⟩ := List.mem_map.mp ho
    exact he ▸ List.mem_map_of_mem hf

/-- Emitting the same queries again files the same reports again. -/
theorem sameButTime_of_emit {xs : List ExpandedQuery}
    (hfirst : on (p.emit (.ofStore Shelf.store time) ⟨time, xs⟩) s = (r, t))
    (hsecond : on (p.emit (.ofStore Shelf.store time') ⟨time', xs⟩) t = (r', u)) :
    r' = r ∧ t.SameButTime p time time' u := by
  cases hfs : p.reportFormats with
  | error e =>
    rw [on_emit, outputs_eq_map, hfs] at hfirst hsecond
    cases hfirst
    cases hsecond
    exact ⟨rfl, Shelf.sameButTime_self p time time' _⟩
  | ok fs =>
    obtain ⟨hr, ht⟩ := on_emit_eq time ⟨time, xs⟩ s hfs
    obtain ⟨hr', hu⟩ := on_emit_eq time' ⟨time', xs⟩ t hfs
    rw [hfirst] at hr ht
    -- the shelf still refuses the same paths, so the second time the same formats are accepted
    rw [hsecond, ht.refused] at hr' hu
    refine ⟨hr'.trans hr.symm, fun path => ?_, hu.refused⟩
    by_cases hpath : ∃ f ∈ p.accepted s.refused fs, p.reportPath f = path
    · obtain ⟨f, hf, rfl⟩ := hpath
      have hone : t.get? (p.reportPath f) = some (Report.render ⟨time, xs⟩ f) :=
        ht.written (p.reportFile ⟨time, xs⟩ f) (List.mem_map_of_mem hf)
      have htwo : u.get? (p.reportPath f) = some (Report.render ⟨time', xs⟩ f) :=
        hu.written (p.reportFile ⟨time', xs⟩ f) (List.mem_map_of_mem hf)
      by_cases hjson : f = .json
      · subst hjson
        exact Or.inr ⟨rfl, xs, hone, htwo⟩
      · rw [hone, htwo, Report.render_eq_of_ne_json time time' xs hjson]
        exact Or.inl rfl
    · left
      refine hu.kept path fun o ho he => hpath ?_
      obtain ⟨f, hf, rfl⟩ := List.mem_map.mp ho
      exact ⟨f, hf, he⟩

/-! ## Top theorem -/

/-- A run that does not write the file it reads can be repeated: it gives the same answer, and
leaves the same files but for the time in a JSON report. -/
theorem on_run_again (hinput : ∀ path ∈ p.writtenPaths s, p.inputPath ≠ some path)
    (hfirst : on (p.run (.ofStore Shelf.store time)) s = (r, t))
    (hsecond : on (p.run (.ofStore Shelf.store time')) t = (r', u)) :
    r' = r ∧ t.SameButTime p time time' u := by
  rw [on_run] at hfirst hsecond
  cases hpreview : (on (p.preview (.ofStore Shelf.store time)) s).1 with
  | error e =>
    rw [hpreview] at hfirst
    have hsame : (on (p.preview (.ofStore Shelf.store time)) s).1 =
        (on (p.preview (.ofStore Shelf.store time')) s).1 := preview_congr time time' fun _ _ => rfl
    cases hfirst
    rw [← hsame, hpreview] at hsecond
    cases hsecond
    exact ⟨rfl, Shelf.sameButTime_self p time time' _⟩
  | ok xs =>
    rw [hpreview] at hfirst
    have hread : p.ReadsAlike Shelf.store s t := by
      intro path hpath
      have hkept := get?_of_emit hfirst fun hwritten => hinput path hwritten hpath
      show s.read path = t.read path
      unfold Shelf.read
      rw [hkept]
    rw [← preview_congr time time' hread, hpreview] at hsecond
    exact sameButTime_of_emit hfirst hsecond

end

/-- A plan whose reports go beside the file of its queries. -/
def besideFile : Plan := ⟨some "out/q.txt", [], "out", ["json", "csv", "txt"], "r"⟩

/-- A shelf with the file of queries that refuses the second report. -/
def queryFile : Shelf := ⟨[("out/q.txt", Text.Utf8.encode "this:name\n".toList)], ["out/r.csv"]⟩

/-- A run that was stopped at its second report stops there again. -/
theorem on_run_again_refused :
    (on (besideFile.run (.ofStore Shelf.store "now")) queryFile).1 =
        .error (.io (.refused "out/r.csv")) ∧
      (on (besideFile.run (.ofStore Shelf.store "later"))
          (on (besideFile.run (.ofStore Shelf.store "now")) queryFile).2).1 =
        .error (.io (.refused "out/r.csv")) ∧
      Shelf.SameButTime besideFile "now" "later"
        (on (besideFile.run (.ofStore Shelf.store "now")) queryFile).2
        (on (besideFile.run (.ofStore Shelf.store "later"))
          (on (besideFile.run (.ofStore Shelf.store "now")) queryFile).2).2 := by
  have hfirst : (on (besideFile.run (.ofStore Shelf.store "now")) queryFile).1 =
      .error (.io (.refused "out/r.csv")) := by decide +kernel
  have hinput : ∀ path ∈ besideFile.writtenPaths queryFile, besideFile.inputPath ≠ some path := by
    decide
  obtain ⟨hanswer, hsame⟩ := on_run_again hinput (Prod.eta _).symm (Prod.eta _).symm
  exact ⟨hfirst, hanswer.trans hfirst, hsame⟩

end Plan

end Shorthand
