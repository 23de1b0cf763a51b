import Shorthand.Check
import Shorthand.Plan

/-!
# Batches

A batch has a name, queries of its own and a file of queries, reports to be written, and a way of
logging.
-/

namespace Shorthand

/-- What a batch is called. -/
structure BatchInfo where
  name : String
  description : Option String
  deriving DecidableEq, Repr

/-- Where the queries of a batch come from. -/
structure BatchInput where
  path : Option String
  queries : List Query
  deriving DecidableEq, Repr

/-- Where the reports of a batch go. -/
structure BatchOutput where
  path : String
  formats : List String
  basename : Option String
  deriving DecidableEq, Repr

/-- How a batch logs. -/
structure BatchLogging where
  level : Option String
  json : Option Bool
  deriving DecidableEq, Repr

structure Batch where
  info : BatchInfo
  input : BatchInput
  output : BatchOutput
  logging : Option BatchLogging
  deriving DecidableEq, Repr

namespace Batch

def logLevel (b : Batch) : String := (b.logging.bind (·.level)).getD "info"

def jsonLogs (b : Batch) : Bool := (b.logging.bind (·.json)).getD false

/-- What a run needs of a batch. -/
def plan (b : Batch) : Plan where
  inputPath := b.input.path
  queries := b.input.queries
  outputPath := b.output.path
  formats := b.output.formats
  basename := b.output.basename.getD Plan.defaultBasename

/-- Checks the names of queries, of which the first has the number `index`. -/
def checkQueries : (index : Nat) → List Query → Except Fault Unit
  | _, [] => .ok ()
  | index, q :: qs => do
    if let some name := q.name then
      Check.nonEmpty ("input.queries[" ++ toString index ++ "].name") name
    checkQueries (index + 1) qs

def check (b : Batch) : Except Fault Unit := do
  Check.nonEmpty "batch.name" b.info.name
  if let some path := b.input.path then Check.path "input.path" path
  checkQueries 0 b.input.queries
  Check.path "output.path" b.output.path
  Check.formats "output.formats" b.output.formats
  if let some basename := b.output.basename then Check.basename "output.basename" basename

end Batch

end Shorthand
