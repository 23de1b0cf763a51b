import Shorthand.Program.ExpandQueries
import Shorthand.Proofs.RunEffect

/-!
# What a command does in its world

A command speaks while it works.  What it says goes to the error stream and changes neither its
outcome nor its files, so every action of a command in a world is mirrored by an action over the
files alone (`Mirrors`).  Mirrored actions go on alike (`Mirrors.bind`), and by that the run of a
plan inside a command is the run of the plan over the store:

    p.run (host.services logger)  mirrors  p.run (.ofStore (store.within ".") time)    (mirrors_run)

From this follow the outcomes of the command that expands queries: it prints (`on_print`), or it
writes reports (`on_report`).
-/

namespace Shorthand

/-! ## Actions in a world and over its files -/

section
variable {σ α β : Type}

/-- In a world with this input and time, `x` ends as `y` does over the files alone and leaves them
as `y` does; it may also say something. -/
def Mirrors (input : List UInt8) (time : String) (x : StateM (World σ) α) (y : StateM σ α) : Prop :=
  ∀ files notices, ∃ notices',
    x.run ⟨files, input, time, notices⟩ =
      ((y.run files).1, ⟨(y.run files).2, input, time, notices'⟩)

namespace Mirrors

variable {input : List UInt8} {time : String}

theorem pure (a : α) : Mirrors input time (Pure.pure a : StateM (World σ) α) (Pure.pure a) :=
  fun _ notices => ⟨notices, rfl⟩

theorem bind {x : StateM (World σ) α} {y : StateM σ α} {f : α → StateM (World σ) β}
    {g : α → StateM σ β} (hx : Mirrors input time x y) (hf : ∀ a, Mirrors input time (f a) (g a)) :
    Mirrors input time (x >>= f) (y >>= g) := by
  intro files notices
  obtain ⟨said, hx⟩ := hx files notices
  obtain ⟨more, hf⟩ := hf (y.run files).1 (y.run files).2 said
  refine ⟨more, ?_⟩
  show (f (x.run _).1).run (x.run _).2 = _
  rw [hx]
  exact hf

/-- After an action that leaves the files alone, the rest counts. -/
theorem after {x : StateM (World σ) α} {a : α} {f : α → StateM (World σ) β} {y : StateM σ β}
    (hx : Mirrors input time x (Pure.pure a)) (hf : Mirrors input time (f a) y) :
    Mirrors input time (x >>= f) y := by
  intro files notices
  obtain ⟨said, hx⟩ := hx files notices
  obtain ⟨more, hf⟩ := hf files said
  refine ⟨more, ?_⟩
  show (f (x.run _).1).run (x.run _).2 = _
  rw [hx]
  exact hf

/-- An action that cannot fail is mirrored among those that may. -/
theorem lift {x : StateM (World σ) α} {y : StateM σ α} (hx : Mirrors input time x y) :
    Mirrors input time (ExceptT.lift x : Run _ α).run (ExceptT.lift y : Run _ α).run := by
  intro files notices
  obtain ⟨said, hx⟩ := hx files notices
  refine ⟨said, ?_⟩
  show (Except.ok (x.run _).1, (x.run _).2) = _
  rw [hx]
  rfl

/-- Actions that may fail go on alike after ending alike. -/
theorem runBind {x : Run (StateM (World σ)) α} {y : Run (StateM σ) α}
    {f : α → Run (StateM (World σ)) β} {g : α → Run (StateM σ) β}
    (hx : Mirrors input time x.run y.run) (hf : ∀ a, Mirrors input time (f a).run (g a).run) :
    Mirrors input time (x >>= f).run (y >>= g).run := by
  have hcont : ∀ r, Mirrors input time (ExceptT.bindCont f r) (ExceptT.bindCont g r) := by
    intro r
    cases r with
    | ok a => exact hf a
    | error e => exact Mirrors.pure _
  exact hx.bind hcont

theorem runAfter {x : Run (StateM (World σ)) α} {a : α} {f : α → Run (StateM (World σ)) β}
    {y : Run (StateM σ) β} (hx : Mirrors input time x.run (Pure.pure (.ok a)))
    (hf : Mirrors input time (f a).run y.run) : Mirrors input time (x >>= f).run y.run := by
  have hcont : Mirrors input time (ExceptT.bindCont f (.ok a)) y.run := hf
  exact hx.after hcont

end Mirrors

/-! ## A host over a store -/

variable (store : Store σ) {input : List UInt8} {time : String}

theorem mirrors_notify (notice : Notice) :
    Mirrors input time ((Host.ofStore store).notify notice) (pure ()) :=
  fun _ notices => ⟨notices ++ [notice], rfl⟩

theorem mirrors_log (logger : Log.Logger) (event : Event) :
    Mirrors input time ((Host.ofStore store).log logger event) (pure ()) := by
  unfold Host.log
  split
  · exact mirrors_notify store _
  · exact .pure ()

theorem mirrors_warnAll (texts : List String) :
    Mirrors input time ((Host.ofStore store).warnAll texts) (pure ()) := by
  induction texts with
  | nil => exact .pure ()
  | cons text texts ih => exact (mirrors_notify store _).after ih

theorem mirrors_install (logger : Log.Logger × List String) :
    Mirrors input time ((Host.ofStore store).install logger) (pure logger.1) :=
  (mirrors_warnAll store logger.2).after (.pure _)

theorem mirrors_input : Mirrors input time (Host.ofStore store).input (pure input) :=
  fun _ notices => ⟨notices, rfl⟩

theorem mirrors_logAll (logger : Log.Logger) (events : List Event) :
    Mirrors input time ((Host.ofStore store).logAll logger events) (pure ()) := by
  induction events with
  | nil => exact .pure ()
  | cons event events ih => exact (mirrors_log store logger event).after ih

theorem mirrors_fail (logger : Log.Logger) (target subject : String) (fault : Fault) :
    Mirrors input time ((Host.ofStore store).fail logger target subject fault)
      (pure (.failure fault.severity.exitCode)) :=
  (mirrors_logAll store logger _).after <| (mirrors_notify store _).after <|
    (mirrors_notify store _).after (.pure _)

/-! ## Runs of plans -/

section
variable (logger : Log.Logger)

theorem mirrors_tell (event : Event) :
    Mirrors input time (Run.tell ((Host.ofStore store).services logger) event).run
      (Run.tell (.ofStore (store.within ".") time) event).run :=
  (mirrors_log store logger event).lift

theorem mirrors_fileQueries (p : Plan) :
    Mirrors input time (p.fileQueries ((Host.ofStore store).services logger)).run
      (p.fileQueries (.ofStore (store.within ".") time)).run := by
  unfold Plan.fileQueries
  cases p.inputPath with
  | none => exact .pure _
  | some path =>
    refine Mirrors.runBind (fun _ notices => ⟨notices, rfl⟩) fun data => ?_
    refine Mirrors.runBind (.pure _) fun queries => ?_
    exact (mirrors_tell store logger _).runBind fun _ => .pure _

theorem mirrors_collect (p : Plan) :
    Mirrors input time (p.collect ((Host.ofStore store).services logger)).run
      (p.collect (.ofStore (store.within ".") time)).run := by
  unfold Plan.collect
  refine (mirrors_tell store logger _).runBind fun _ => ?_
  refine (mirrors_fileQueries store logger p).runBind fun queries => ?_
  dsimp only
  split
  · exact .pure _
  · exact .pure _

theorem mirrors_expandEach (qs : List Query) :
    Mirrors input time (Plan.expandEach ((Host.ofStore store).services logger) qs)
      (Plan.expandEach (.ofStore (store.within ".") time) qs) := by
  induction qs with
  | nil => exact .pure _
  | cons q qs ih => exact (mirrors_log store logger _).bind fun _ => ih.bind fun _ => .pure _

theorem mirrors_expand (qs : List Query) :
    Mirrors input time (Plan.expand ((Host.ofStore store).services logger) qs)
      (Plan.expand (.ofStore (store.within ".") time) qs) :=
  (mirrors_expandEach store logger qs).bind fun _ =>
    Mirrors.bind (fun _ notices => ⟨notices, rfl⟩) fun _ => .pure _

theorem mirrors_writeAll (os : List Output) :
    Mirrors input time (Plan.writeAll ((Host.ofStore store).services logger) os).run
      (Plan.writeAll (.ofStore (store.within ".") time) os).run := by
  induction os with
  | nil => exact .pure _
  | cons o os ih =>
    refine Mirrors.runBind (fun _ notices => ⟨notices, rfl⟩) fun _ => ?_
    refine (mirrors_tell store logger _).runBind fun _ => ?_
    exact ih.runBind fun _ => .pure _

theorem mirrors_emit (p : Plan) (report : Report) :
    Mirrors input time (p.emit ((Host.ofStore store).services logger) report).run
      (p.emit (.ofStore (store.within ".") time) report).run :=
  Mirrors.runBind (.pure _) fun os => mirrors_writeAll store logger os

theorem mirrors_tellSaved (paths : List String) :
    Mirrors input time (Plan.tellSaved ((Host.ofStore store).services logger) paths)
      (Plan.tellSaved (.ofStore (store.within ".") time) paths) := by
  induction paths with
  | nil => exact .pure _
  | cons path paths ih => exact (mirrors_log store logger _).bind fun _ => ih

/-- A command that runs a plan does to its files what the plan does to the store. -/
theorem mirrors_run (p : Plan) :
    Mirrors input time (p.run ((Host.ofStore store).services logger)).run
      (p.run (.ofStore (store.within ".") time)).run := by
  unfold Plan.run
  have htell : ∀ event, Mirrors input time
      (Run.tell ((Host.ofStore store).services logger) event).run
      (Run.tell (.ofStore (store.within ".") time) event).run := mirrors_tell store logger
  refine (htell _).runBind fun _ => (htell _).runBind fun _ => ?_
  refine (mirrors_collect store logger p).runBind fun queries => ?_
  refine (htell _).runBind fun _ => (htell _).runBind fun _ => ?_
  refine (mirrors_expand store logger queries).lift.runBind fun report => ?_
  refine (htell _).runBind fun _ => (htell _).runBind fun _ => ?_
  refine (mirrors_emit store logger p report).runBind fun paths => ?_
  exact (mirrors_tellSaved store logger paths).lift.runBind fun _ => .pure _

end

/-! ## The command that expands queries -/

namespace ExpandQueries

/-- The queries to be printed, with this input. -/
def queriesFrom (s : Settings) (input : List UInt8) : Except Fault (List Query) :=
  if s.queries.isEmpty then QueryList.ofStream input else .ok s.queries

theorem mirrors_queriesToPrint (logger : Log.Logger) (s : Settings) :
    Mirrors input time (queriesToPrint (Host.ofStore store) logger s).run
      (pure (queriesFrom s input)) := by
  unfold queriesToPrint queriesFrom
  split
  · exact (mirrors_log store logger _).lift.runAfter ((mirrors_input store).lift.runAfter (.pure _))
  · exact .pure _

/-- What the run of a plan comes to as an outcome. -/
def outcomeOf : Except Fault (List String) → Outcome
  | .ok paths => .success (savedLines paths)
  | .error fault => .failure fault.severity.exitCode

theorem mirrors_report (logger : Log.Logger) (s : Settings) :
    Mirrors input time (report (Host.ofStore store) logger s)
      (outcomeOf <$> (s.plan.run (.ofStore (store.within ".") time)).run) := by
  rw [map_eq_pure_bind]
  unfold report
  refine (mirrors_run store logger s.plan).bind fun r => ?_
  cases r with
  | ok paths => exact .pure _
  | error fault => exact mirrors_fail store logger _ _ fault

/-- A command whose settings are in order prints or writes reports. -/
theorem mirrors_accepted (env : Environment) {arguments : List String} {s : Settings}
    (hs : Settings.ofArguments arguments = .ok s) (hlist : s.listSymbols = false)
    (hcheck : s.check = .ok ()) {y : StateM σ Outcome}
    (h : ∀ logger, Mirrors input time
      (if s.input.isNone then print (Host.ofStore store) logger s
        else report (Host.ofStore store) logger s) y) :
    Mirrors input time (run (Host.ofStore store) env arguments) y := by
  unfold run
  rw [hs]
  -- up to the check of the settings the command only speaks
  refine (mirrors_install store _).after ?_
  unfold follow
  rw [if_neg (by rw [hlist]; decide)]
  refine (mirrors_log store _ _).after ?_
  rw [hcheck]
  exact h _

/-! ## Outcomes -/

/-- What the command ends with over a store, and the world that it leaves. -/
def on (env : Environment) (arguments : List String) (w : World σ) : Outcome × World σ :=
  (run (Host.ofStore store) env arguments).run w

/-- Where settings name no file, the queries are printed. -/
theorem on_print (env : Environment) (w : World σ) {arguments : List String} {s : Settings}
    (hs : Settings.ofArguments arguments = .ok s) (hlist : s.listSymbols = false)
    (hcheck : s.check = .ok ()) (hin : s.input = none) {qs : List Query}
    (hqs : queriesFrom s w.input = .ok qs) :
    (on store env arguments w).1 = .success (printed qs) := by
  have hprint : ∀ logger, Mirrors w.input w.time (print (Host.ofStore store) logger s)
      (pure (.success (printed qs))) := by
    intro logger
    have hto : Mirrors w.input w.time (queriesToPrint (Host.ofStore store) logger s).run
        (pure (.ok qs)) := hqs ▸ mirrors_queriesToPrint store logger s
    exact hto.after (.pure _)
  have hall : Mirrors w.input w.time (run (Host.ofStore store) env arguments)
      (pure (.success (printed qs))) := by
    refine mirrors_accepted store env hs hlist hcheck fun logger => ?_
    rw [hin]
    exact hprint logger
  obtain ⟨notices, hrun⟩ := hall w.files w.notices
  exact congrArg Prod.fst hrun

/-- Where settings name a file, the outcome and the files are those of the plan's run. -/
theorem on_report (env : Environment) (w : World σ) {arguments : List String} {s : Settings}
    (hs : Settings.ofArguments arguments = .ok s) (hlist : s.listSymbols = false)
    (hcheck : s.check = .ok ()) {path : String} (hin : s.input = some path) :
    (on store env arguments w).1 =
        outcomeOf (Run.on (s.plan.run (.ofStore (store.within ".") w.time)) w.files).1 ∧
      (on store env arguments w).2.files =
        (Run.on (s.plan.run (.ofStore (store.within ".") w.time)) w.files).2 := by
  have hall : Mirrors w.input w.time (run (Host.ofStore store) env arguments)
      (outcomeOf <$> (s.plan.run (.ofStore (store.within ".") w.time)).run) := by
    refine mirrors_accepted store env hs hlist hcheck fun logger => ?_
    rw [hin]
    exact mirrors_report store logger s
  obtain ⟨notices, hrun⟩ := hall w.files w.notices
  exact ⟨congrArg Prod.fst hrun, congrArg (fun r => r.2.files) hrun⟩

end ExpandQueries

end

end Shorthand
