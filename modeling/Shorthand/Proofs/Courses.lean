import Shorthand.Program.ExpandBatch
import Shorthand.Proofs.CommandRuns

/-!
# What commands come to

What a command with accepted arguments comes to is its course: a text to be printed, or the fault
that stops it and the stage at which that fault comes up (`Stop`).  The course says nothing about
exit codes, and the outcome of the command follows from it (`ExpandQueries.on_eq_course`,
`ExpandBatch.on_eq_course`):

    stopped at `run`      the exit code of the fault's severity
    stopped elsewhere     exit code 1
    not stopped           exit code 0
-/

namespace Shorthand

/-! ## Courses -/

/-- Where a fault can stop a command. -/
inductive Stage where
  /-- The batch file is loaded. -/
  | load
  /-- The settings or the batch are checked. -/
  | check
  /-- The standard input is read. -/
  | input
  /-- The queries of a dry run are collected. -/
  | preview
  /-- The plan is run. -/
  | run
  deriving DecidableEq, Repr

/-- A fault that stops a command. -/
structure Stop where
  stage : Stage
  fault : Fault
  deriving DecidableEq, Repr

/-- The exit code of a command that is stopped. -/
def Stop.exitCode (stop : Stop) : Nat :=
  match stop.stage with
  | .run => stop.fault.severity.exitCode
  | _ => 1

/-- The outcome of a course. -/
def Outcome.ofCourse : Except Stop (List Char) → Outcome
  | .ok text => .success text
  | .error stop => .failure stop.exitCode

/-- The result of a stage. -/
def Stage.result {α : Type} (stage : Stage) (x : Except Fault α) : Except Stop α :=
  x.mapError (Stop.mk stage)

section
variable {σ : Type} (store : Store σ) (env : Environment) (w : World σ)

/-- What running a plan in a world ends with. -/
def Plan.runIn (p : Plan) : Except Fault (List String) :=
  (Run.on (p.run (.ofStore (store.within ".") w.time)) w.files).1

/-- What previewing a plan in a world ends with. -/
def Plan.previewIn (p : Plan) : Except Fault (List ExpandedQuery) :=
  (Run.on (p.preview (.ofStore (store.within ".") w.time)) w.files).1

/-- The course of the command that expands queries. -/
def ExpandQueries.course (s : Settings) : Except Stop (List Char) :=
  if s.listSymbols then .ok Symbol.table.toList
  else do
    Stage.check.result s.check
    if s.input.isNone then
      let queries ← Stage.input.result (queriesFrom s w.input)
      return printed queries
    else
      let paths ← Stage.run.result (s.plan.runIn store w)
      return savedLines paths

namespace ExpandBatch

/-- The batch in a file. -/
def loaded (path : String) : Except Fault Batch := do
  let data ← (store.read w.files path).mapError .io
  Batch.ofFile env data

/-- The course of a dry run, by what its preview ends with. -/
def listed (preview : Except Fault (List ExpandedQuery)) : Except Stop (List Char) := do
  let queries ← Stage.preview.result preview
  return listing queries

/-- The course of a report, by what the plan's run ends with. -/
def reported (b : Batch) (run : Except Fault (List String)) : Except Stop (List Char) := do
  let paths ← Stage.run.result run
  return ("✅ Expanded batch '" ++ b.info.name ++ "'\n").toList ++ savedLines paths

/-- The course of a batch. -/
def courseOf (dryRun : Bool) (b : Batch) : Except Stop (List Char) := do
  Stage.check.result b.check
  if dryRun then listed (b.plan.previewIn store w) else reported b (b.plan.runIn store w)

/-- The course of the command that expands a batch. -/
def course (a : BatchArguments) : Except Stop (List Char) := do
  let b ← Stage.load.result (loaded store env w a.config)
  courseOf store w a.dryRun (withFormats b a.formats)

/-- What the command ends with over a store, and the world that it leaves. -/
def on (arguments : List String) (w : World σ) : Outcome × World σ :=
  (run (Host.ofStore store) env arguments).run w

end ExpandBatch

/-! ## Ends that say something -/

section
variable {input : List UInt8} {time : String}

theorem Mirrors.outcome_eq {w : World σ} {x : StateM (World σ) Outcome} {y : StateM σ Outcome}
    (h : Mirrors w.input w.time x y) : (x.run w).1 = (y.run w.files).1 := by
  obtain ⟨notices, hrun⟩ := h w.files w.notices
  exact congrArg Prod.fst hrun

theorem mirrors_abort (fault : Fault) :
    Mirrors input time ((Host.ofStore store).abort fault) (pure (.failure 1)) :=
  (mirrors_notify store _).after (.pure _)

theorem mirrors_rejectSettings (logger : Log.Logger) (target : String) (fault : Fault) :
    Mirrors input time ((Host.ofStore store).rejectSettings logger target fault)
      (pure (.failure 1)) :=
  (mirrors_logAll store logger _).after <| (mirrors_notify store _).after (.pure _)

theorem mirrors_preview (logger : Log.Logger) (p : Plan) :
    Mirrors input time (p.preview ((Host.ofStore store).services logger)).run
      (p.preview (.ofStore (store.within ".") time)).run :=
  (mirrors_collect store logger p).runBind fun _ => .pure _

end

/-! ## The command that expands queries -/

namespace ExpandQueries

theorem mirrors_run_of_follow {arguments : List String} {s : Settings}
    (hs : Settings.ofArguments arguments = .ok s) {y : StateM σ Outcome}
    (h : ∀ logger, Mirrors w.input w.time (follow (Host.ofStore store) logger s) y) :
    Mirrors w.input w.time (run (Host.ofStore store) env arguments) y := by
  unfold run
  rw [hs]
  exact (mirrors_install store _).after (h _)

theorem mirrors_follow_list {s : Settings} (hlist : s.listSymbols = true) (logger : Log.Logger) :
    Mirrors w.input w.time (follow (Host.ofStore store) logger s)
      (pure (.success Symbol.table.toList)) := by
  unfold follow
  rw [if_pos hlist]
  exact .pure _

theorem mirrors_follow_rejected {s : Settings} (hlist : s.listSymbols = false) {e : Fault}
    (hcheck : s.check = .error e) (logger : Log.Logger) :
    Mirrors w.input w.time (follow (Host.ofStore store) logger s) (pure (.failure 1)) := by
  unfold follow
  rw [if_neg (by rw [hlist]; decide)]
  refine (mirrors_log store _ _).after ?_
  rw [hcheck]
  exact mirrors_rejectSettings store logger _ e

theorem mirrors_print_unread {s : Settings} {e : Fault} (hqs : queriesFrom s w.input = .error e)
    (logger : Log.Logger) :
    Mirrors w.input w.time (print (Host.ofStore store) logger s) (pure (.failure 1)) := by
  have hto : Mirrors w.input w.time (queriesToPrint (Host.ofStore store) logger s).run
      (pure (.error e)) := hqs ▸ mirrors_queriesToPrint store logger s
  exact hto.after (mirrors_abort store e)

/-- The outcome of accepted arguments is that of the course. -/
theorem on_eq_course {arguments : List String} {s : Settings}
    (hs : Settings.ofArguments arguments = .ok s) :
    (on store env arguments w).1 = .ofCourse (course store w s) := by
  unfold course
  cases hlist : s.listSymbols with
  | true =>
    exact (mirrors_run_of_follow store env w hs (mirrors_follow_list store w hlist)).outcome_eq
  | false =>
    cases hcheck : s.check with
    | error e =>
      exact (mirrors_run_of_follow store env w hs
        (mirrors_follow_rejected store w hlist hcheck)).outcome_eq
    | ok u =>
      cases hin : s.input with
      | none =>
        cases hqs : queriesFrom s w.input with
        | ok qs => exact on_print store env w hs hlist hcheck hin hqs
        | error e =>
          have hall : Mirrors w.input w.time (run (Host.ofStore store) env arguments)
              (pure (.failure 1)) := by
            refine mirrors_accepted store env hs hlist hcheck fun logger => ?_
            rw [hin]
            exact mirrors_print_unread store w hqs logger
          exact hall.outcome_eq
      | some path =>
        rw [(on_report store env w hs hlist hcheck hin).1, ← Plan.runIn]
        cases s.plan.runIn store w <;> rfl

end ExpandQueries

/-! ## The command that expands a batch -/

namespace ExpandBatch

theorem on_load (path : String) :
    Run.on (load (Host.ofStore store) env path) w = (loaded store env w path, w) := by
  have hread : Run.on (Run.ofIo ((Host.ofStore store).read path)) w =
      ((store.read w.files path).mapError .io, w) := rfl
  unfold load loaded
  rw [Run.on_bind, hread]
  cases store.read w.files path <;> rfl

theorem mirrors_dryRun (logger : Log.Logger) (b : Batch) :
    Mirrors w.input w.time (dryRun (Host.ofStore store) logger b)
      ((fun r => .ofCourse (listed r)) <$>
        (b.plan.preview (.ofStore (store.within ".") w.time)).run) := by
  rw [map_eq_pure_bind]
  unfold dryRun
  refine (mirrors_log store logger _).after ?_
  refine (mirrors_preview store logger b.plan).bind fun r => ?_
  cases r with
  | ok queries => exact .pure _
  | error fault => exact mirrors_abort store fault

theorem mirrors_report (logger : Log.Logger) (b : Batch) :
    Mirrors w.input w.time (report (Host.ofStore store) logger b)
      ((fun r => .ofCourse (reported b r)) <$>
        (b.plan.run (.ofStore (store.within ".") w.time)).run) := by
  rw [map_eq_pure_bind]
  unfold report
  refine (mirrors_run store logger b.plan).bind fun r => ?_
  cases r with
  | ok paths => exact .pure _
  | error fault => exact mirrors_fail store logger _ _ fault

section
variable {a : BatchArguments} {b : Batch} (logger : Log.Logger)

theorem mirrors_follow_rejected {e : Fault} (hcheck : (withFormats b a.formats).check = .error e) :
    Mirrors w.input w.time (follow (Host.ofStore store) logger a b) (pure (.failure 1)) := by
  unfold follow
  refine (mirrors_log store logger _).after ((mirrors_logAll store logger _).after ?_)
  dsimp only
  rw [hcheck]
  exact mirrors_rejectSettings store logger _ e

theorem mirrors_follow_checked (hcheck : (withFormats b a.formats).check = .ok ()) {dry : Bool}
    (hdry : a.dryRun = dry) {y : StateM σ Outcome}
    (h : Mirrors w.input w.time
      (if dry then dryRun (Host.ofStore store) logger (withFormats b a.formats)
        else report (Host.ofStore store) logger (withFormats b a.formats)) y) :
    Mirrors w.input w.time (follow (Host.ofStore store) logger a b) y := by
  subst hdry
  unfold follow
  refine (mirrors_log store logger _).after ((mirrors_logAll store logger _).after ?_)
  dsimp only
  rw [hcheck]
  exact (mirrors_logAll store logger _).after h

variable (a b) in
/-- A batch that is loaded is followed to the end of its course. -/
theorem mirrors_follow :
    ∃ y : StateM σ Outcome, Mirrors w.input w.time (follow (Host.ofStore store) logger a b) y ∧
      (y.run w.files).1 = .ofCourse (courseOf store w a.dryRun (withFormats b a.formats)) := by
  unfold courseOf
  cases hcheck : (withFormats b a.formats).check with
  | error e => exact ⟨_, mirrors_follow_rejected store w logger hcheck, rfl⟩
  | ok u =>
    cases hdry : a.dryRun with
    | true =>
      have hdryRun := mirrors_dryRun store w logger (withFormats b a.formats)
      exact ⟨_, mirrors_follow_checked store w logger hcheck hdry hdryRun, rfl⟩
    | false =>
      have hreport := mirrors_report store w logger (withFormats b a.formats)
      exact ⟨_, mirrors_follow_checked store w logger hcheck hdry hreport, rfl⟩

end

/-- The outcome of accepted arguments is that of the course. -/
theorem on_eq_course {arguments : List String} {a : BatchArguments}
    (ha : BatchArguments.ofArguments arguments = .ok a) :
    (on store env arguments w).1 = .ofCourse (course store env w a) := by
  -- loading says nothing, so the world is still `w` when the batch is followed
  have hload : (load (Host.ofStore store) env a.config).run.run w =
      (loaded store env w a.config, w) := on_load store env w a.config
  unfold on run course
  rw [ha, StateT.run_bind, hload]
  cases loaded store env w a.config with
  | error e => rfl
  | ok b =>
    obtain ⟨y, hy, hcourse⟩ := mirrors_follow store w a b (loggerOf env a.verbose b).1
    exact ((mirrors_install store _).after hy).outcome_eq.trans hcourse

end ExpandBatch

end

end Shorthand
