import Shorthand.Json.Printer
import Shorthand.Json.Skip
import Shorthand.Query

/-!
# Reports as JSON documents

A report is written as an object with the time and the queries, and can be read back. A reader also
takes records given as arrays of their fields, in any mixture; it passes over keys it does not know.
-/

namespace Shorthand

open Json (Reader)

/-! ## Writing -/

def ExpandedQuery.toValue (q : ExpandedQuery) : Json.Value :=
  .object
    [ ("name", q.name.elim .null .string),
      ("original", .string q.text),
      ("expanded", .string q.expanded),
      ("changed", .boolean q.changed) ]

def Report.toValue (r : Report) : Json.Value :=
  .object
    [ ("generated_at", .string r.generatedAt),
      ("queries", .array (r.queries.map (·.toValue))) ]

def Report.toDocument (r : Report) : List Char := r.toValue.document

/-! ## Reading -/

/-- The fields of a query that have been read. -/
structure ExpandedQuery.Fields where
  name : Option (Option String)
  text : Option String
  expanded : Option String
  changed : Option Bool

def ExpandedQuery.member (fs : Fields) (key : String) : Reader Fields := do
  match key with
  | "name" => return { fs with name := ← Json.once key fs.name Json.text? }
  | "original" => return { fs with text := ← Json.once key fs.text Json.text }
  | "expanded" => return { fs with expanded := ← Json.once key fs.expanded Json.text }
  | "changed" => return { fs with changed := ← Json.once key fs.changed Json.truth }
  | _ => do
    Json.colon
    Json.skipValue
    return fs

def ExpandedQuery.ofObject : Reader ExpandedQuery := do
  let fs ← Json.members member ⟨none, none, none, none⟩
  return {
    name := fs.name.getD none
    text := ← Json.required "original" fs.text
    expanded := ← Json.required "expanded" fs.expanded
    changed := ← Json.required "changed" fs.changed }

/-- Reads a query's fields by position. -/
def ExpandedQuery.ofArray : Reader ExpandedQuery := do
  return {
    name := ← Json.element "ExpandedQuery" 4 0 Json.text?
    text := ← Json.element "ExpandedQuery" 4 1 Json.text
    expanded := ← Json.element "ExpandedQuery" 4 2 Json.text
    changed := ← Json.element "ExpandedQuery" 4 3 Json.truth }

def ExpandedQuery.reader : Reader ExpandedQuery := Json.record "ExpandedQuery" ofObject ofArray

/-- The fields of a report that have been read. -/
structure Report.Fields where
  generatedAt : Option String
  queries : Option (List ExpandedQuery)

def Report.member (fs : Fields) (key : String) : Reader Fields := do
  match key with
  | "generated_at" => return { fs with generatedAt := ← Json.once key fs.generatedAt Json.text }
  | "queries" =>
    return { fs with queries := ← Json.once key fs.queries (Json.listOf ExpandedQuery.reader) }
  | _ => do
    Json.colon
    Json.skipValue
    return fs

def Report.ofObject : Reader Report := do
  let fs ← Json.members member ⟨none, none⟩
  return {
    generatedAt := ← Json.required "generated_at" fs.generatedAt
    queries := ← Json.required "queries" fs.queries }

def Report.ofArray : Reader Report := do
  return {
    generatedAt := ← Json.element "ExpansionResult" 2 0 Json.text
    queries := ← Json.element "ExpansionResult" 2 1 (Json.listOf ExpandedQuery.reader) }

def Report.reader : Reader Report := Json.record "ExpansionResult" ofObject ofArray

def Report.ofDocument (data : List UInt8) : Except Json.Fault Report :=
  Json.readAll Report.reader data

end Shorthand
