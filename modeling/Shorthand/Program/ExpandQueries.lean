import Shorthand.CommandLine.Settings
import Shorthand.Program.Host
import Shorthand.Run.Basic
import Shorthand.Symbol

/-!
# The command that expands queries

Queries come from the arguments, from a file or from the standard input. Without a file their
expansions are printed; with one, reports are written.
-/

namespace Shorthand.ExpandQueries

open Event (expansionTarget)

variable {m : Type → Type} [Monad m]

/-- The expansions of queries, one after the other, each with a line feed. -/
def printed (queries : List Query) : List Char :=
  queries.flatMap fun q => (expandText q.text).toList ++ ['\n']

/-- The queries to be printed: the given ones or, if there are none, those of the standard
input. -/
def queriesToPrint (host : Host m) (logger : Log.Logger) (s : Settings) : Run m (List Query) :=
  if s.queries.isEmpty then do
    host.log logger ⟨.debug, expansionTarget, "Reading queries from stdin"⟩
    let data ← ExceptT.lift host.input
    ExceptT.mk (pure (QueryList.ofStream data))
  else return s.queries

def print (host : Host m) (logger : Log.Logger) (s : Settings) : m Outcome := do
  match ← (queriesToPrint host logger s).run with
  | .ok queries => return .success (printed queries)
  | .error fault => host.abort fault

def report (host : Host m) (logger : Log.Logger) (s : Settings) : m Outcome := do
  match ← (s.plan.run (host.services logger)).run with
  | .ok paths => return .success (savedLines paths)
  | .error fault => host.fail logger expansionTarget "Expansion" fault

def follow (host : Host m) (logger : Log.Logger) (s : Settings) : m Outcome :=
  if s.listSymbols then return .success Symbol.table.toList
  else do
    host.log logger ⟨.debug, expansionTarget, "CLI config: " ++ s.describe⟩
    match s.check with
    | .error fault => host.rejectSettings logger expansionTarget fault
    | .ok () => if s.input.isNone then print host logger s else report host logger s

def run (host : Host m) (env : Environment) (arguments : List String) : m Outcome := do
  match Settings.ofArguments arguments with
  | .error refusal => host.refuse (Settings.command.usage "query-symbols") refusal
  | .ok settings =>
    let logger ← host.install (Log.Logger.plain env settings.verbose)
    follow host logger settings

end Shorthand.ExpandQueries
