import Shorthand.CommandLine.Basic

/-!
# The command that runs a batch

Its options name the batch file, replace the formats that the file asks for, and ask for a listing
instead of reports.
-/

namespace Shorthand

open CommandLine (Command Given Refusal)

structure BatchArguments where
  config : String
  verbose : Bool
  /-- Formats to be used instead of those in the batch file. -/
  formats : Option (List String)
  dryRun : Bool
  deriving DecidableEq, Repr

namespace BatchArguments

def command : Command where
  parameters :=
    [ ⟨"config", some 'c', some "CONFIG", false⟩,
      ⟨"verbose", some 'v', none, false⟩,
      ⟨"formats", none, some "FORMATS", true⟩,
      ⟨"dry-run", none, none, false⟩ ]
  takesOperands := false

/-- The arguments that are given, the others by default. -/
def ofGiven (g : Given) : BatchArguments where
  config := (g.value? "config").getD "query-symbols.toml"
  verbose := g.has "verbose"
  formats := if g.has "formats" then some (g.items "formats") else none
  dryRun := g.has "dry-run"

def ofArguments (arguments : List String) : Except Refusal BatchArguments :=
  (CommandLine.parse command arguments).map ofGiven

end BatchArguments

end Shorthand
