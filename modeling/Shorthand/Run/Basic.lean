import Shorthand.QueryList
import Shorthand.Plan
import Shorthand.Run.Services
import Shorthand.Text.Quoted

/-!
# Runs

A run of a plan collects the queries, expands them and writes the reports; it ends with the paths
of the reports, or with the first fault. A preview stops before anything is written.

    run = collect, then expand, then emit        preview = collect, then expand
-/

namespace Shorthand

def Event.expandedQuery (q : ExpandedQuery) : Event :=
  ⟨.debug, detailTarget, Text.quoted q.text ++ " -> " ++ Text.quoted q.expanded⟩

namespace Plan

open Run (ofIo tell)

variable {m : Type → Type} [Monad m]

/-! ## Collecting -/

/-- The queries of the plan's file. -/
def fileQueries (services : Services m) (p : Plan) : Run m (List Query) :=
  match p.inputPath with
  | none => return []
  | some path => do
    let data ← ofIo (services.read path)
    let queries ← ExceptT.mk (pure (QueryList.ofFile path data))
    tell services (.fileQueries queries.length path)
    return queries

/-- The queries of the plan, those of its file last; there must be one. -/
def collect (services : Services m) (p : Plan) : Run m (List Query) := do
  tell services (.givenQueries p.queries.length)
  let queries := p.queries ++ (← p.fileQueries services)
  if queries.isEmpty then throw (.validation "No queries to expand")
  return queries

/-! ## Expanding -/

def expandEach (services : Services m) : List Query → m (List ExpandedQuery)
  | [] => return []
  | q :: qs => do
    services.record (.expandedQuery q.expand)
    return q.expand :: (← expandEach services qs)

def expand (services : Services m) (queries : List Query) : m Report := do
  let queries ← expandEach services queries
  return ⟨← services.now, queries⟩

/-! ## Writing -/

/-- Writes files in order, up to the first that cannot be written. -/
def writeAll (services : Services m) : List Output → Run m (List String)
  | [] => return []
  | o :: os => do
    ofIo (services.write o.path o.data)
    tell services (.wrote o.data.length o.path)
    return o.path :: (← writeAll services os)

/-- Writes a report in all formats of the plan. -/
def emit (services : Services m) (p : Plan) (report : Report) : Run m (List String) := do
  let outputs ← ExceptT.mk (pure (p.outputs report))
  writeAll services outputs

/-! ## Runs -/

/-- What a run would expand, without writing anything. -/
def preview (services : Services m) (p : Plan) : Run m (List ExpandedQuery) := do
  let queries ← p.collect services
  return queries.map Query.expand

def tellSaved (services : Services m) : List String → m Unit
  | [] => return ()
  | path :: paths => do
    services.record (.saved path)
    tellSaved services paths

def run (services : Services m) (p : Plan) : Run m (List String) := do
  tell services .started
  tell services .collecting
  let queries ← p.collect services
  tell services (.collected queries.length)
  tell services .expanding
  let report ← ExceptT.lift (expand services queries)
  tell services (.expanded report.queries.length report.changedCount)
  tell services .writing
  let paths ← p.emit services report
  ExceptT.lift (tellSaved services paths)
  return paths

end Plan

end Shorthand
