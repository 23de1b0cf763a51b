import Shorthand.Batch.File
import Shorthand.CommandLine.BatchArguments
import Shorthand.Program.Host
import Shorthand.Report.Lines
import Shorthand.Run.Basic

/-!
# The command that expands a batch

The batch is described in a file. Its reports are written, or only listed in a dry run.
-/

namespace Shorthand.ExpandBatch

open Event (batchTarget)

variable {m : Type → Type} [Monad m]

/-! ## Events -/

def told (message : String) : Event := ⟨.info, batchTarget, message⟩

def inRow (names : List String) : String := ", ".intercalate names

def summary (b : Batch) : List Event :=
  [told ("Batch: " ++ b.info.name)] ++
  b.info.description.toList.map (fun text => told ("Description: " ++ text)) ++
  b.plan.inputPath.toList.map (fun path => told ("Input file: " ++ path)) ++
  [ told ("Inline queries: " ++ toString b.plan.queries.length),
    told ("Output: " ++ b.plan.outputPath ++ " (" ++ inRow b.plan.formats ++ ")") ]

/-! ## The batch -/

/-- Reads the batch file. -/
def load (host : Host m) (env : Environment) (path : String) : Run m Batch := do
  let data ← Run.ofIo (host.read path)
  ExceptT.mk (pure (Batch.ofFile env data))

def loggerOf (env : Environment) (verbose : Bool) (b : Batch) : Log.Logger × List String :=
  if b.jsonLogs then Log.Logger.collected env (if verbose then "debug" else b.logLevel)
  else Log.Logger.plain env (verbose || b.logLevel == "debug")

def withFormats (b : Batch) : Option (List String) → Batch
  | none => b
  | some formats => { b with output := { b.output with formats := formats } }

/-! ## The command -/

def dryRun (host : Host m) (logger : Log.Logger) (b : Batch) : m Outcome := do
  host.log logger (told "DRY RUN MODE - No files will be written")
  match ← (b.plan.preview (host.services logger)).run with
  | .ok queries => return .success (listing queries)
  | .error fault => host.abort fault

def report (host : Host m) (logger : Log.Logger) (b : Batch) : m Outcome := do
  match ← (b.plan.run (host.services logger)).run with
  | .ok paths =>
    return .success (("✅ Expanded batch '" ++ b.info.name ++ "'\n").toList ++ savedLines paths)
  | .error fault => host.fail logger batchTarget "Batch" fault

/-- Follows arguments with the batch that they name. -/
def follow (host : Host m) (logger : Log.Logger) (a : BatchArguments) (loaded : Batch) :
    m Outcome := do
  host.log logger (told ("Loaded configuration from: " ++ a.config))
  host.logAll logger
    (a.formats.toList.map fun names => told ("Output formats overridden to: " ++ inRow names))
  let b := withFormats loaded a.formats
  match b.check with
  | .error fault => host.rejectSettings logger batchTarget fault
  | .ok () =>
    host.logAll logger (summary b)
    if a.dryRun then dryRun host logger b else report host logger b

def rejectFile (host : Host m) (path : String) (fault : Fault) : m Outcome := do
  host.warn ("❌ Failed to load config file '" ++ path ++ "': " ++ fault.message)
  host.warn "💡 Make sure the file exists and is valid TOML format"
  return .failure 1

def run (host : Host m) (env : Environment) (arguments : List String) : m Outcome := do
  match BatchArguments.ofArguments arguments with
  | .error refusal => host.refuse (BatchArguments.command.usage "batch-expand") refusal
  | .ok a =>
    match ← (load host env a.config).run with
    | .error fault => rejectFile host a.config fault
    | .ok loaded =>
      let logger ← host.install (loggerOf env a.verbose loaded)
      follow host logger a loaded

end Shorthand.ExpandBatch
