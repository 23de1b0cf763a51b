import Shorthand.Check
import Shorthand.CommandLine.Basic
import Shorthand.Plan
import Shorthand.Text.Quoted

/-!
# The command that expands queries

Its arguments are queries; options name a file of queries, and where and how reports are written.
-/

namespace Shorthand

open CommandLine (Command Parameter Given Refusal)

structure Settings where
  queries : List Query
  input : Option String
  outputPath : String
  formats : List String
  basename : String
  listSymbols : Bool
  verbose : Bool
  deriving DecidableEq, Repr

namespace Settings

def command : Command where
  parameters :=
    [ ⟨"input", some 'i', some "INPUT", false⟩,
      ⟨"output-path", some 'o', some "OUTPUT_PATH", false⟩,
      ⟨"formats", none, some "FORMATS", true⟩,
      ⟨"basename", none, some "BASENAME", false⟩,
      ⟨"list-symbols", none, none, false⟩,
      ⟨"verbose", some 'v', none, false⟩ ]
  takesOperands := true

/-- The settings that are given, the others by default. -/
def ofGiven (g : Given) : Settings where
  queries := g.operands.map Query.unnamed
  input := g.value? "input"
  outputPath := (g.value? "output-path").getD "./output"
  formats := if g.has "formats" then g.items "formats" else ["txt"]
  basename := (g.value? "basename").getD Plan.defaultBasename
  listSymbols := g.has "list-symbols"
  verbose := g.has "verbose"

def ofArguments (arguments : List String) : Except Refusal Settings :=
  (CommandLine.parse command arguments).map ofGiven

def check (s : Settings) : Except Fault Unit := do
  if let some input := s.input then Check.path "input" input
  Check.path "output_path" s.outputPath
  Check.formats "formats" s.formats
  Check.basename "basename" s.basename

/-- What a run needs of the settings. -/
def plan (s : Settings) : Plan where
  inputPath := s.input
  queries := s.queries
  outputPath := s.outputPath
  formats := s.formats
  basename := s.basename

/-! ## In words -/

def describeQuery (q : Query) : String :=
  "Query \x7b name: " ++ Text.quotedOption q.name ++ ", query: " ++ Text.quoted q.text ++ " \x7d"

def describe (s : Settings) : String :=
  "CliConfig \x7b queries: " ++ Text.bracketed (s.queries.map describeQuery) ++
    ", input: " ++ Text.quotedOption s.input ++
    ", output_path: " ++ Text.quoted s.outputPath ++
    ", formats: " ++ Text.bracketed (s.formats.map Text.quoted) ++
    ", basename: " ++ Text.quoted s.basename ++
    ", list_symbols: " ++ toString s.listSymbols ++
    ", verbose: " ++ toString s.verbose ++ " \x7d"

end Settings

end Shorthand
