import Mathlib.Data.List.Basic
import Shorthand.Proofs.Arguments
import Shorthand.Proofs.Checks
import Shorthand.Proofs.Courses
import Shorthand.Store.Tree

/-!
# Exit codes and severity

A check finds faults of high severity only, whose exit code is 1, and a standard input that is no
text is a fault of medium severity.  So a command exits by the severity of the fault that stops it,
unless it was stopped at its standard input, or at its batch file or its preview by a fault that is
not of high severity (`exitCode_eq_severity_iff`).
-/

namespace Shorthand

section
variable {σ : Type} (store : Store σ) (env : Environment) (w : World σ)

/-! ## Where faults come up -/

/-- What stops a preview stops the run. -/
theorem Plan.runIn_of_previewIn {p : Plan} {e : Fault} (h : p.previewIn store w = .error e) :
    p.runIn store w = .error e := by
  unfold runIn previewIn at *
  rw [on_run, h]

theorem Stop.exitCode_eq_iff (stop : Stop) :
    stop.exitCode = stop.fault.severity.exitCode ↔
      stop.stage = .run ∨ stop.fault.severity = .high := by
  obtain ⟨stage, fault⟩ := stop
  unfold Stop.exitCode
  cases stage <;> cases fault.severity <;> simp [Severity.exitCode]

/-- A stage stops what follows it, or what follows it is stopped. -/
theorem Stage.bind_eq_error {α β : Type} {stage : Stage} {x : Except Fault α}
    {f : α → Except Stop β} {stop : Stop} (h : stage.result x >>= f = .error stop) :
    (x = .error stop.fault ∧ stop.stage = stage) ∨ ∃ a, x = .ok a ∧ f a = .error stop := by
  cases x with
  | ok a => exact Or.inr ⟨a, rfl, h⟩
  | error e =>
    cases h
    exact Or.inl ⟨rfl, rfl⟩

/-- Reading a stream fails as reading a file does. -/
theorem QueryList.severity_of_ofStream {data : List UInt8} {e : Fault}
    (h : QueryList.ofStream data = .error e) : e.severity = .medium := by
  unfold QueryList.ofStream at h
  split at h
  · cases h
  · cases h
    rfl

namespace ExpandQueries

theorem severity_of_queriesFrom {s : Settings} {input : List UInt8} {e : Fault}
    (h : queriesFrom s input = .error e) : e.severity = .medium := by
  unfold queriesFrom at h
  split at h
  · exact QueryList.severity_of_ofStream h
  · cases h

/-- The settings are stopped by faults of high severity, the standard input by faults of medium
severity. -/
theorem stage_of_course {s : Settings} {stop : Stop} (h : course store w s = .error stop) :
    (stop.stage = .check ∧ stop.fault.severity = .high) ∨
      (stop.stage = .input ∧ stop.fault.severity = .medium) ∨ stop.stage = .run := by
  unfold course at h
  split at h
  · cases h
  · obtain ⟨hcheck, hstage⟩ | ⟨-, -, h⟩ := Stage.bind_eq_error h
    · exact Or.inl ⟨hstage, s.findsHigh_check _ hcheck⟩
    · split at h
      · obtain ⟨hinput, hstage⟩ | ⟨_, -, h⟩ := Stage.bind_eq_error h
        · exact Or.inr (Or.inl ⟨hstage, severity_of_queriesFrom hinput⟩)
        · cases h
      · obtain ⟨-, hstage⟩ | ⟨_, -, h⟩ := Stage.bind_eq_error h
        · exact Or.inr (Or.inr hstage)
        · cases h

end ExpandQueries

namespace ExpandBatch

/-- The check of a batch is stopped by faults of high severity. -/
theorem severity_of_course {a : BatchArguments} {stop : Stop}
    (h : course store env w a = .error stop) (hstage : stop.stage = .check) :
    stop.fault.severity = .high := by
  unfold course at h
  obtain ⟨-, hload⟩ | ⟨b, -, h⟩ := Stage.bind_eq_error h
  · rw [hload] at hstage
    cases hstage
  · unfold courseOf at h
    obtain ⟨hcheck, -⟩ | ⟨-, -, h⟩ := Stage.bind_eq_error h
    · exact Batch.findsHigh_check _ _ hcheck
    · split at h
      · obtain ⟨-, hpreview⟩ | ⟨_, -, h⟩ := Stage.bind_eq_error h
        · rw [hpreview] at hstage
          cases hstage
        · cases h
      · obtain ⟨-, hrun⟩ | ⟨_, -, h⟩ := Stage.bind_eq_error h
        · rw [hrun] at hstage
          cases hstage
        · cases h

/-- What stops the preview of a dry run stops the run as well. -/
theorem course_of_preview {a : BatchArguments} {e : Fault}
    (h : course store env w { a with dryRun := true } = .error ⟨.preview, e⟩) :
    course store env w { a with dryRun := false } = .error ⟨.run, e⟩ := by
  unfold course courseOf at h ⊢
  obtain ⟨-, hload⟩ | ⟨b, hb, h⟩ := Stage.bind_eq_error h
  · cases hload
  · obtain ⟨-, hstage⟩ | ⟨⟨⟩, hcheck, h⟩ := Stage.bind_eq_error h
    · cases hstage
    · obtain ⟨hpreview, -⟩ | ⟨_, -, h⟩ := Stage.bind_eq_error h
      · dsimp only at hb hcheck hpreview ⊢
        rw [hb]
        show Stage.check.result (withFormats b a.formats).check >>= _ = _
        rw [hcheck]
        show reported (withFormats b a.formats) _ = _
        rw [Plan.runIn_of_previewIn store w hpreview]
        rfl
      · cases h

end ExpandBatch

/-! ## Top theorem -/

/-- Accepted arguments lead to the end of their course.  A command that is stopped exits by the
severity of the fault, except where the queries are stopped at the standard input, and except where
a batch is stopped at its file or at its preview by a fault that is not of high severity.  So a dry
run and a run of a batch that are stopped by the same fault exit alike just where that fault is of
high severity. -/
theorem exitCode_eq_severity_iff :
    (∀ arguments s, Settings.ofArguments arguments = .ok s →
      (∀ text, ExpandQueries.course store w s = .ok text →
        (ExpandQueries.on store env arguments w).1 = .success text) ∧
      ∀ stop, ExpandQueries.course store w s = .error stop →
        ((ExpandQueries.on store env arguments w).1.exitCode = stop.fault.severity.exitCode ↔
          stop.stage ≠ .input)) ∧
    (∀ arguments a, BatchArguments.ofArguments arguments = .ok a →
      (∀ text, ExpandBatch.course store env w a = .ok text →
        (ExpandBatch.on store env arguments w).1 = .success text) ∧
      ∀ stop, ExpandBatch.course store env w a = .error stop →
        ((ExpandBatch.on store env arguments w).1.exitCode = stop.fault.severity.exitCode ↔
          stop.stage = .check ∨ stop.stage = .run ∨ stop.fault.severity = .high)) ∧
    ∀ arguments arguments' (a : BatchArguments),
      BatchArguments.ofArguments arguments = .ok { a with dryRun := true } →
      BatchArguments.ofArguments arguments' = .ok { a with dryRun := false } →
      ∀ e, ExpandBatch.course store env w { a with dryRun := true } = .error ⟨.preview, e⟩ →
        ExpandBatch.course store env w { a with dryRun := false } = .error ⟨.run, e⟩ ∧
        ((ExpandBatch.on store env arguments w).1.exitCode =
          (ExpandBatch.on store env arguments' w).1.exitCode ↔ e.severity = .high) := by
  refine ⟨fun arguments s hs => ?_, fun arguments a ha => ?_, ?_⟩
  · rw [ExpandQueries.on_eq_course store env w hs]
    refine ⟨fun text h => by rw [h]; rfl, fun stop h => ?_⟩
    rw [h]
    refine (Stop.exitCode_eq_iff stop).trans ?_
    rcases ExpandQueries.stage_of_course store w h with ⟨hstage, hhigh⟩ | ⟨hstage, hmedium⟩ | hstage
    · simp [hstage, hhigh]
    · simp [hstage, hmedium]
    · simp [hstage]
  · rw [ExpandBatch.on_eq_course store env w ha]
    refine ⟨fun text h => by rw [h]; rfl, fun stop h => ?_⟩
    rw [h]
    refine (Stop.exitCode_eq_iff stop).trans ?_
    have hcheck := ExpandBatch.severity_of_course store env w h
    constructor
    · exact Or.inr
    · rintro (hstage | hrun | hhigh)
      · exact Or.inr (hcheck hstage)
      · exact Or.inl hrun
      · exact Or.inr hhigh
  · intro arguments arguments' a hdry hrun e h
    have h' := ExpandBatch.course_of_preview store env w h
    refine ⟨h', ?_⟩
    rw [ExpandBatch.on_eq_course store env w hdry, ExpandBatch.on_eq_course store env w hrun, h, h']
    refine (Stop.exitCode_eq_iff ⟨.preview, e⟩).trans ?_
    simp

end

/-- A batch that has its queries in a file. -/
def fileBatch : String :=
  "[batch]\nname = \"n\"\n[input]\npath = \"q.txt\"\n" ++
    "[output]\npath = \"out\"\nformats = [\"txt\"]\n"

/-- A folder with that batch but without the file, and a standard input that is no text. -/
def nothingToRead : World Tree where
  files := (Tree.startingAt "work").put ["work".toList, "b.toml".toList]
    (.file (Text.Utf8.encode fileBatch.toList))
  input := [0xff]
  time := ""
  notices := []

theorem course_nothingToRead :
    ExpandBatch.course Tree.store .empty nothingToRead ⟨"b.toml", false, none, true⟩ =
      .error ⟨.preview, .io (.os .noEntry)⟩ := by
  decide +kernel

/-- Without its standard input, a command exits against the severity of the fault.  Without its
queries, a batch exits by severity, and its dry run does not. -/
theorem exitCode_eq_severity_iff_nothingToRead :
    ExpandQueries.course Tree.store nothingToRead .standard =
        .error ⟨.input, .io (.brokenText ⟨0, some 1⟩)⟩ ∧
      (ExpandQueries.on Tree.store .empty [] nothingToRead).1.exitCode ≠
        (Fault.io (.brokenText ⟨0, some 1⟩)).severity.exitCode ∧
      (ExpandBatch.on Tree.store .empty ["-cb.toml"] nothingToRead).1.exitCode =
        (Fault.io (.os .noEntry)).severity.exitCode ∧
      (ExpandBatch.on Tree.store .empty ["-cb.toml", "--dry-run"] nothingToRead).1.exitCode ≠
        (ExpandBatch.on Tree.store .empty ["-cb.toml"] nothingToRead).1.exitCode := by
  obtain ⟨hqueries, hbatch, hdry⟩ := exitCode_eq_severity_iff Tree.store .empty nothingToRead
  have hinput : ExpandQueries.course Tree.store nothingToRead .standard =
      .error ⟨.input, .io (.brokenText ⟨0, some 1⟩)⟩ := by decide +kernel
  have hargs : BatchArguments.ofArguments ["-cb.toml"] = .ok ⟨"b.toml", false, none, false⟩ := by
    decide +kernel
  have hdryArgs : BatchArguments.ofArguments ["-cb.toml", "--dry-run"] =
      .ok ⟨"b.toml", false, none, true⟩ := by decide +kernel
  obtain ⟨hrun, hsame⟩ :=
    hdry _ _ ⟨"b.toml", false, none, true⟩ hdryArgs hargs _ course_nothingToRead
  refine ⟨hinput, ?_, ?_, ?_⟩
  · exact fun h => ((hqueries [] _ Settings.ofArguments_nil).2 _ hinput).mp h rfl
  · exact ((hbatch _ _ hargs).2 _ hrun).mpr (Or.inr (Or.inl rfl))
  · exact fun h => nomatch hsame.mp h

/-- A dry run that misses its queries exits with 1, where the severity of the fault asks for 2. -/
theorem exitCode_dryRun_ne_severity :
    ExpandBatch.course Tree.store .empty nothingToRead ⟨"b.toml", false, none, true⟩ =
        .error ⟨.preview, .io (.os .noEntry)⟩ ∧
      (ExpandBatch.on Tree.store .empty ["-cb.toml", "--dry-run"] nothingToRead).1.exitCode = 1 ∧
      (Fault.io (.os .noEntry)).severity.exitCode = 2 := by
  have hargs : BatchArguments.ofArguments ["-cb.toml", "--dry-run"] =
      .ok ⟨"b.toml", false, none, true⟩ := by decide +kernel
  refine ⟨course_nothingToRead, ?_, rfl⟩
  rw [ExpandBatch.on_eq_course Tree.store .empty nothingToRead hargs, course_nothingToRead]
  rfl

end Shorthand
