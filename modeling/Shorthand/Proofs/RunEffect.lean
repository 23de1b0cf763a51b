import Shorthand.Run.Basic
import Shorthand.Store.Shelf

/-!
# What a run does to its store

Over a store that is a value, a run is a function of the state of the store (`Run.on`).  It is a
preview and then, if that gave queries, the writing of their report:

    run = preview, then emit                                                       (on_run)

On a shelf, `Plan.Outcome` says what a run can end with and what it leaves, from a file that cannot
be read to a path that is refused; `run_outcome` says that it always ends so.  Writing goes from
file to file (`on_writeAll`): what has been written stays (`Shelf.Filed`), and nothing else changes.
-/

namespace Shorthand

/-! ## Actions over a store -/

namespace Run

variable {σ α β : Type}

/-- What an action ends with when the store is in the state `s`, and the state it leaves. -/
def on (x : Run (StateM σ) α) (s : σ) : Except Fault α × σ := x.run.run s

@[simp]
theorem on_pure (a : α) (s : σ) : on (pure a) s = (.ok a, s) := rfl

@[simp]
theorem on_mk (r : Except Fault α) (s : σ) : on (ExceptT.mk (pure r)) s = (r, s) := rfl

@[simp]
theorem on_lift (x : StateM σ α) (s : σ) : on (ExceptT.lift x) s = (.ok (x.run s).1, (x.run s).2) :=
  rfl

@[simp]
theorem on_bind (x : Run (StateM σ) α) (f : α → Run (StateM σ) β) (s : σ) :
    on (x >>= f) s =
      match on x s with
      | (.ok a, t) => on (f a) t
      | (.error e, t) => (.error e, t) := by
  have h : on (x >>= f) s = (ExceptT.bindCont f (on x s).1).run (on x s).2 := rfl
  rw [h]
  obtain ⟨r, t⟩ := on x s
  cases r <;> rfl

@[simp]
theorem on_map (f : α → β) (x : Run (StateM σ) α) (s : σ) :
    on (f <$> x) s = ((on x s).1.map f, (on x s).2) := by
  rw [map_eq_pure_bind, on_bind]
  obtain ⟨r, t⟩ := on x s
  cases r <;> rfl

@[simp]
theorem mapError_ok (f : IoFault → Fault) (a : α) : (Except.ok a).mapError f = .ok a := rfl

@[simp]
theorem mapError_error (f : IoFault → Fault) (e : IoFault) :
    (Except.error e : Except IoFault α).mapError f = .error (f e) := rfl

variable (store : Store σ) (time : String)

@[simp]
theorem on_tell (event : Event) (s : σ) : on (tell (.ofStore store time) event) s = (.ok (), s) :=
  rfl

@[simp]
theorem on_read (path : String) (s : σ) :
    on (ofIo ((Services.ofStore store time).read path)) s =
      ((store.read s path).mapError Fault.io, s) := rfl

@[simp]
theorem on_write (path : String) (data : List UInt8) (s : σ) :
    on (ofIo ((Services.ofStore store time).write path data)) s =
      ((store.write s path data).1.mapError Fault.io, (store.write s path data).2) := rfl

/-- The action leaves the store as it is. -/
def Keeps (x : Run (StateM σ) α) : Prop := ∀ s, (on x s).2 = s

theorem Keeps.on_eq {x : Run (StateM σ) α} (hx : Keeps x) (s : σ) : on x s = ((on x s).1, s) :=
  Prod.ext rfl (hx s)

theorem Keeps.bind {x : Run (StateM σ) α} {f : α → Run (StateM σ) β} (hx : Keeps x)
    (hf : ∀ a, Keeps (f a)) : Keeps (x >>= f) := by
  intro s
  rw [on_bind, hx.on_eq s]
  cases (on x s).1 with
  | ok a => exact hf a s
  | error e => rfl

end Run

/-! ## The phases of a run -/

namespace Plan

open Run (on)

section
variable {σ : Type} (store : Store σ) (time : String) (p : Plan)

theorem keeps_fileQueries : Run.Keeps (p.fileQueries (.ofStore store time)) := by
  unfold fileQueries
  split
  · exact fun _ => rfl
  · exact Run.Keeps.bind (fun s => by simp) fun data => Run.Keeps.bind (fun s => by simp)
      fun queries => Run.Keeps.bind (fun s => by simp) fun _ s => by simp

/-- Collecting reads and does not write. -/
theorem keeps_collect : Run.Keeps (p.collect (.ofStore store time)) := by
  unfold collect
  refine Run.Keeps.bind (fun s => by simp) fun _ =>
    Run.Keeps.bind (keeps_fileQueries store time p) fun queries => ?_
  dsimp only
  split
  · exact fun _ => rfl
  · exact fun _ => rfl

/-- A preview is what is collected, expanded. -/
theorem on_preview (s : σ) :
    on (p.preview (.ofStore store time)) s =
      ((on (p.collect (.ofStore store time)) s).1.map (·.map Query.expand), s) := by
  unfold preview
  rw [Run.on_bind, (keeps_collect store time p).on_eq s]
  cases (on (p.collect (.ofStore store time)) s).1 <;> rfl

theorem run_expandEach (qs : List Query) (s : σ) :
    (expandEach (.ofStore store time) qs).run s = (qs.map Query.expand, s) := by
  induction qs with
  | nil => rfl
  | cons q qs ih =>
    show (q.expand :: ((expandEach (.ofStore store time) qs).run s).1,
      ((expandEach (.ofStore store time) qs).run s).2) = _
    rw [ih]
    rfl

theorem run_expand (qs : List Query) (s : σ) :
    (expand (.ofStore store time) qs).run s = (⟨time, qs.map Query.expand⟩, s) := by
  show (Report.mk time ((expandEach (.ofStore store time) qs).run s).1,
    ((expandEach (.ofStore store time) qs).run s).2) = _
  rw [run_expandEach]

theorem run_tellSaved (paths : List String) (s : σ) :
    (tellSaved (.ofStore store time) paths).run s = ((), s) := by
  induction paths with
  | nil => rfl
  | cons path paths ih => exact ih

/-- A run expands what a preview shows, and writes its report. -/
theorem on_run (s : σ) :
    on (p.run (.ofStore store time)) s =
      match (on (p.preview (.ofStore store time)) s).1 with
      | .ok xs => on (p.emit (.ofStore store time) ⟨time, xs⟩) s
      | .error e => (.error e, s) := by
  rw [on_preview]
  unfold run
  simp only [Run.on_bind, Run.on_tell, Run.on_lift, run_expand, run_tellSaved, Run.on_pure]
  rw [(keeps_collect store time p).on_eq s]
  cases (on (p.collect (.ofStore store time)) s).1 with
  | error e => rfl
  | ok qs =>
    dsimp only [Except.map]
    cases on (p.emit (.ofStore store time) ⟨time, qs.map Query.expand⟩) s with
    | mk r t => cases r <;> rfl

theorem on_emit (report : Report) (s : σ) :
    on (p.emit (.ofStore store time) report) s =
      match p.outputs report with
      | .ok outputs => on (writeAll (.ofStore store time) outputs) s
      | .error e => (.error e, s) := by
  cases h : p.outputs report <;> simp [emit, h]

end

end Plan

/-! ## The files of a plan -/

namespace Path

theorem join_rooted (first : String) {second : String} {cs : List Char}
    (h : second.toList = '/' :: cs) : join first second = second := by
  unfold join
  rw [h]
  rfl

theorem join_of_ne (first : String) {second : String} {c : Char} {cs : List Char}
    (h : second.toList = c :: cs) (hc : c ≠ '/') :
    join first second =
      match first.toList.getLast? with
      | none => second
      | some '/' => first ++ second
      | some _ => first ++ "/" ++ second := by
  unfold join
  rw [h]
  split
  · next he => exact (hc (List.cons.inj he).1).elim
  · rfl

/-- What is appended to a name is appended to its path. -/
theorem join_append (first : String) {second : String} (h : second ≠ "") (rest : String) :
    join first (second ++ rest) = join first second ++ rest := by
  obtain ⟨c, cs, hs⟩ := List.exists_cons_of_ne_nil (mt String.toList_eq_nil_iff.mp h)
  have hs' : (second ++ rest).toList = c :: (cs ++ rest.toList) := by
    rw [String.toList_append, hs, List.cons_append]
  by_cases hc : c = '/'
  · subst hc
    rw [join_rooted first hs, join_rooted first hs']
  · rw [join_of_ne first hs hc, join_of_ne first hs' hc]
    split
    · rfl
    · rw [String.append_assoc]
    · rw [String.append_assoc, String.append_assoc, String.append_assoc]

end Path

namespace Plan

/-- Names are looked up in order, up to the first that denotes no format. -/
theorem mapM_formatOf_cases (names : List String) :
    (∃ pre name post, names = pre ++ name :: post ∧ (∀ n ∈ pre, ReportFormat.ofName? n ≠ none) ∧
      ReportFormat.ofName? name = none ∧ names.mapM formatOf =
        .error (.invalidValue "output.formats" name (ReportFormat.unknownMessage name))) ∨
    ∃ fs, names.map ReportFormat.ofName? = fs.map some ∧ names.mapM formatOf = .ok fs := by
  induction names with
  | nil => exact Or.inr ⟨[], rfl, rfl⟩
  | cons n names ih =>
    rw [List.mapM_cons]
    cases hn : ReportFormat.ofName? n with
    | none =>
      left
      refine ⟨[], n, names, rfl, fun m hm => (List.not_mem_nil hm).elim, hn, ?_⟩
      simp only [formatOf, hn]
      rfl
    | some f =>
      have hf : formatOf n = .ok f := by simp only [formatOf, hn]
      rw [hf]
      rcases ih with ⟨pre, name, post, rfl, hpre, hname, he⟩ | ⟨fs, hfs, he⟩
      · left
        refine ⟨n :: pre, name, post, rfl, ?_, hname, by rw [he]; rfl⟩
        intro m hm
        rcases List.mem_cons.mp hm with rfl | hm
        · rw [hn]
          exact Option.some_ne_none f
        · exact hpre m hm
      · right
        refine ⟨f :: fs, ?_, by rw [he]; rfl⟩
        rw [List.map_cons, List.map_cons, hn, hfs]

theorem foldl_distinct (fs seen : List ReportFormat) :
    fs.foldl (fun seen f => if seen.contains f then seen else seen ++ [f]) seen =
      seen ++ (fs.filter fun f => !seen.contains f).eraseDups := by
  induction fs generalizing seen with
  | nil => simp
  | cons f fs ih =>
    rw [List.foldl_cons, ih]
    by_cases h : seen.contains f = true
    · rw [if_pos h, List.filter_cons_of_neg (by rw [h]; decide)]
    · rw [if_neg h, List.filter_cons_of_pos (by simp only [h]; decide), List.eraseDups_cons,
        List.append_assoc, List.filter_filter]
      have hg : ∀ g ∈ fs, (!(seen ++ [f]).contains g) = (!g == f && !seen.contains g) := by
        intro g _
        rw [List.contains_append, List.contains_cons, List.contains_nil, Bool.or_false, Bool.not_or,
          Bool.and_comm]
      rw [List.filter_congr hg]
      rfl

/-- The formats of a plan are those that its names denote, each where it comes up first. -/
theorem distinct_eq_eraseDups (fs : List ReportFormat) : distinct fs = fs.eraseDups := by
  unfold distinct
  rw [foldl_distinct, List.nil_append]
  congr 1
  exact List.filter_eq_self.mpr fun f _ => rfl

theorem nodup_distinct (fs : List ReportFormat) : (distinct fs).Nodup := by
  suffices h : ∀ seen : List ReportFormat, seen.Nodup →
      (fs.foldl (fun seen f => if seen.contains f then seen else seen ++ [f]) seen).Nodup from
    h [] List.nodup_nil
  induction fs with
  | nil => exact fun seen h => h
  | cons f fs ih =>
    intro seen h
    rw [List.foldl_cons]
    apply ih
    split
    · exact h
    · next hf =>
      rw [List.nodup_append]
      refine ⟨h, by simp, ?_⟩
      intro g hg g' hg' he
      rw [List.mem_singleton.mp hg'] at he
      exact hf (List.contains_iff_mem.mpr (he ▸ hg))

/-- The part of a path before the extension is the same in all formats. -/
theorem reportPath_eq (p : Plan) :
    ∃ stem : String, ∀ f, p.reportPath f = stem ++ f.extension := by
  refine ⟨Path.join p.outputPath (p.basename ++ "."), fun f => ?_⟩
  exact Path.join_append p.outputPath (by simp) f.extension

theorem reportPath_inj (p : Plan) {f g : ReportFormat} (h : p.reportPath f = p.reportPath g) :
    f = g := by
  obtain ⟨stem, hstem⟩ := reportPath_eq p
  rw [hstem, hstem] at h
  have hext : f.extension = g.extension := by simpa using h
  revert hext
  cases f <;> cases g <;> decide

theorem nodup_map_reportPath (p : Plan) {fs : List ReportFormat} (hfs : fs.Nodup) :
    (fs.map p.reportPath).Nodup := by
  rw [List.nodup_iff_pairwise_ne, List.pairwise_map]
  exact hfs.imp fun hne h => hne (reportPath_inj p h)

/-- No two formats of a plan are written to one path. -/
theorem nodup_reportPaths (p : Plan) (fs : List ReportFormat) :
    (fs.eraseDups.map p.reportPath).Nodup := by
  rw [← distinct_eq_eraseDups]
  exact nodup_map_reportPath p (nodup_distinct fs)

end Plan

/-! ## Writing -/

/-- The shelf `t` is `s` with the files written, and is otherwise as `s` was. -/
structure Shelf.Filed (s : Shelf) (files : List Output) (t : Shelf) : Prop where
  written : ∀ o ∈ files, t.get? o.path = some o.data
  kept : ∀ path, (∀ o ∈ files, o.path ≠ path) → t.get? path = s.get? path
  refused : t.refused = s.refused

namespace Shelf

theorem filed_nil (s : Shelf) : s.Filed [] s :=
  ⟨fun _ ho => (List.not_mem_nil ho).elim, fun _ _ => rfl, rfl⟩

/-- A file that is written stays, when no later one has its path. -/
theorem Filed.cons {s t : Shelf} {o : Output} {files : List Output}
    (h : (s.put o.path o.data).Filed files t) (hne : ∀ x ∈ files, x.path ≠ o.path) :
    s.Filed (o :: files) t := by
  refine ⟨fun x hx => ?_, fun path hpath => ?_, h.refused⟩
  · rcases List.mem_cons.mp hx with rfl | hx
    · simp [h.kept x.path hne]
    · exact h.written x hx
  · have hother : path ≠ o.path := Ne.symm (hpath o List.mem_cons_self)
    simp [h.kept path fun x hx => hpath x (List.mem_cons_of_mem o hx), hother]

end Shelf

namespace Plan

open Run (on)

variable (time : String)

section
variable {σ : Type} {store : Store σ} {o : Output} {s s' : σ}

theorem on_writeAll_failed {cause : IoFault}
    (h : store.write s o.path o.data = (.error cause, s')) (os : List Output) :
    on (writeAll (.ofStore store time) (o :: os)) s = (.error (.io cause), s') := by
  simp [writeAll, h]

theorem on_writeAll_taken (h : store.write s o.path o.data = (.ok (), s')) (os : List Output) :
    on (writeAll (.ofStore store time) (o :: os)) s =
      ((on (writeAll (.ofStore store time) os) s').1.map (o.path :: ·),
        (on (writeAll (.ofStore store time) os) s').2) := by
  simp only [writeAll, Run.on_bind, Run.on_write, Run.on_tell, Run.mapError_ok, h]
  cases on (writeAll (.ofStore store time) os) s' with
  | mk r t => cases r <;> rfl

end

theorem on_writeAll_refused {o : Output} {s : Shelf} (h : o.path ∈ s.refused) (os : List Output) :
    on (writeAll (.ofStore Shelf.store time) (o :: os)) s =
      (.error (.io (.refused o.path)), s) := by
  have hw : Shelf.store.write s o.path o.data = (.error (.refused o.path), s) :=
    if_pos (List.contains_iff_mem.mpr h)
  exact on_writeAll_failed time hw os

theorem on_writeAll_cons {o : Output} {s : Shelf} (h : o.path ∉ s.refused) (os : List Output) :
    on (writeAll (.ofStore Shelf.store time) (o :: os)) s =
      ((on (writeAll (.ofStore Shelf.store time) os) (s.put o.path o.data)).1.map (o.path :: ·),
        (on (writeAll (.ofStore Shelf.store time) os) (s.put o.path o.data)).2) := by
  have hw : Shelf.store.write s o.path o.data = (.ok (), s.put o.path o.data) :=
    if_neg (mt List.contains_iff_mem.mp h)
  exact on_writeAll_taken time hw os

/-- Files are written up to the first whose path is refused. -/
theorem on_writeAll (os : List Output) (s : Shelf) (hos : (os.map Output.path).Nodup) :
    (∃ t, (∀ o ∈ os, o.path ∉ s.refused) ∧ s.Filed os t ∧
      on (writeAll (.ofStore Shelf.store time) os) s = (.ok (os.map Output.path), t)) ∨
    ∃ done o rest t, os = done ++ o :: rest ∧ (∀ x ∈ done, x.path ∉ s.refused) ∧
      o.path ∈ s.refused ∧ s.Filed done t ∧
      on (writeAll (.ofStore Shelf.store time) os) s = (.error (.io (.refused o.path)), t) := by
  induction os generalizing s with
  | nil => exact Or.inl ⟨s, fun _ ho => (List.not_mem_nil ho).elim, s.filed_nil, rfl⟩
  | cons o os ih =>
    by_cases ho : o.path ∈ s.refused
    · right
      exact ⟨[], o, os, s, rfl, fun _ hx => (List.not_mem_nil hx).elim, ho, s.filed_nil,
        on_writeAll_refused time ho os⟩
    · rw [List.map_cons, List.nodup_cons] at hos
      have hne : ∀ x ∈ os, x.path ≠ o.path := fun x hx he => hos.1 (he ▸ List.mem_map_of_mem hx)
      rw [on_writeAll_cons time ho]
      -- The paths that are refused are still those of `s`.
      rcases ih (s.put o.path o.data) hos.2 with
        ⟨t, hfree, ht, hon⟩ | ⟨done, x, rest, t, rfl, hfree, hx, ht, hon⟩
      · left
        refine ⟨t, List.forall_mem_cons.mpr ⟨ho, hfree⟩, ht.cons hne, ?_⟩
        rw [hon]
        rfl
      · right
        refine ⟨o :: done, x, rest, t, rfl, List.forall_mem_cons.mpr ⟨ho, hfree⟩, hx, ?_, ?_⟩
        · exact ht.cons fun y hy => hne y (List.mem_append_left _ hy)
        · rw [hon]
          rfl

/-! ## Runs -/

/-- The file of a report in a format. -/
def reportFile (p : Plan) (report : Report) (f : ReportFormat) : Output :=
  ⟨p.reportPath f, report.render f⟩

theorem outputs_of_formats (p : Plan) (report : Report) {fs : List ReportFormat}
    (h : p.formats.mapM formatOf = .ok fs) :
    p.outputs report = .ok (fs.eraseDups.map (p.reportFile report)) := by
  unfold outputs reportFormats
  rw [h, ← distinct_eq_eraseDups]
  rfl

theorem outputs_of_error (p : Plan) (report : Report) {e : Fault}
    (h : p.formats.mapM formatOf = .error e) : p.outputs report = .error e := by
  unfold outputs reportFormats
  rw [h]
  rfl

/--
What a run ends with and leaves behind, when the shelf is `s` and a preview gives `r`.

    unread     there is nothing to report: the fault of the preview
    unknown    the first name that denotes no format; nothing has been written
    written    no path is refused: one file for each format, and their paths
    refused    the first path that is refused; the files before it have been written
-/
inductive Outcome (p : Plan) (time : String) (s : Shelf) :
    Except Fault (List ExpandedQuery) → Except Fault (List String) × Shelf → Prop
  | unread (e : Fault) : Outcome p time s (.error e) (.error e, s)
  | unknown (xs : List ExpandedQuery) (before : List String) (name : String) (after : List String)
      (names : p.formats = before ++ name :: after)
      (known : ∀ n ∈ before, ReportFormat.ofName? n ≠ none)
      (unknown : ReportFormat.ofName? name = none) :
      Outcome p time s (.ok xs)
        (.error (.invalidValue "output.formats" name (ReportFormat.unknownMessage name)), s)
  | written (xs : List ExpandedQuery) (fs : List ReportFormat) (t : Shelf)
      (names : p.formats.map ReportFormat.ofName? = fs.map some)
      (apart : (fs.eraseDups.map p.reportPath).Nodup)
      (free : ∀ f ∈ fs.eraseDups, p.reportPath f ∉ s.refused)
      (filed : s.Filed (fs.eraseDups.map (p.reportFile ⟨time, xs⟩)) t) :
      Outcome p time s (.ok xs) (.ok (fs.eraseDups.map p.reportPath), t)
  | refused (xs : List ExpandedQuery) (fs done : List ReportFormat) (f : ReportFormat)
      (rest : List ReportFormat) (t : Shelf)
      (names : p.formats.map ReportFormat.ofName? = fs.map some)
      (apart : (fs.eraseDups.map p.reportPath).Nodup)
      (formats : fs.eraseDups = done ++ f :: rest)
      (free : ∀ g ∈ done, p.reportPath g ∉ s.refused)
      (refused : p.reportPath f ∈ s.refused)
      (filed : s.Filed (done.map (p.reportFile ⟨time, xs⟩)) t) :
      Outcome p time s (.ok xs) (.error (.io (.refused (p.reportPath f))), t)

theorem outcome_emit (p : Plan) (s : Shelf) (xs : List ExpandedQuery) :
    p.Outcome time s (.ok xs) (on (p.emit (.ofStore Shelf.store time) ⟨time, xs⟩) s) := by
  rw [on_emit]
  rcases mapM_formatOf_cases p.formats with
    ⟨before, name, after, hnames, hknown, hname, he⟩ | ⟨fs, hnames, he⟩
  · rw [outputs_of_error p _ he]
    exact .unknown xs before name after hnames hknown hname
  · rw [outputs_of_formats p _ he]
    have hpaths : (fs.eraseDups.map (p.reportFile ⟨time, xs⟩)).map Output.path =
        fs.eraseDups.map p.reportPath := List.map_map
    have hapart := nodup_reportPaths p fs
    rcases on_writeAll time _ s (hpaths ▸ hapart) with
      ⟨t, hfree, ht, hon⟩ | ⟨done, o, rest, t, hos, hfree, ho, ht, hon⟩
    · dsimp only
      rw [hon, hpaths]
      exact .written xs fs t hnames hapart (fun f hf => hfree _ (List.mem_map_of_mem hf)) ht
    · obtain ⟨fs₁, fs₂, hfs, rfl, h₂⟩ := List.map_eq_append_iff.mp hos
      obtain ⟨f, fs₃, rfl, rfl, -⟩ := List.map_eq_cons_iff.mp h₂
      dsimp only
      rw [hon]
      exact .refused xs fs fs₁ f fs₃ t hnames hapart hfs
        (fun g hg => hfree _ (List.mem_map_of_mem hg)) ho ht

/-! ## Top theorems -/

/-- A preview leaves the shelf as it is, and a run ends as the preview and the shelf decide. -/
theorem run_outcome (p : Plan) (s : Shelf) :
    (on (p.preview (.ofStore Shelf.store time)) s).2 = s ∧
      p.Outcome time s (on (p.preview (.ofStore Shelf.store time)) s).1
        (on (p.run (.ofStore Shelf.store time)) s) := by
  constructor
  · rw [on_preview]
  · rw [on_run]
    cases (on (p.preview (.ofStore Shelf.store time)) s).1 with
    | error e => exact .unread e
    | ok xs => exact outcome_emit time p s xs

end Plan

end Shorthand
