import Shorthand.Batch.Basic
import Shorthand.Environment
import Shorthand.Text.Utf8
import Shorthand.Toml.Decode
import Shorthand.Toml.Document

/-!
# Batch files

A batch file is a TOML document. References to the environment are replaced in its text, wherever
they stand, before the text is read.

    [batch]   name, description
    [input]   path, queries = [{ name, query }, …]
    [output]  path, formats, basename
    [logging] level, json
-/

namespace Shorthand

open Toml (Decoder Misfit Table Value)

/-! ## Decoding -/

def Query.decode : Decoder Query :=
  Toml.record "Query"
    (fun t => do
      Toml.visit [Toml.field "name" Toml.text, Toml.field "query" Toml.text] t
      return { name := ← Toml.optional t "name" Toml.text
               text := ← Toml.required t "query" Toml.text })
    (fun items => do
      let name ← match items.head? with
        | some v => some <$> Toml.text v
        | none => pure none
      return ⟨name, ← Toml.element "Query" 2 items 1 Toml.text⟩)

/-- The section `batch`. -/
def BatchInfo.decode : Decoder BatchInfo :=
  Toml.record "BatchInfo"
    (fun t => do
      Toml.visit [Toml.field "name" Toml.text, Toml.field "description" Toml.text] t
      return { name := ← Toml.required t "name" Toml.text
               description := ← Toml.optional t "description" Toml.text })
    (fun items => do
      return { name := ← Toml.element "BatchInfo" 2 items 0 Toml.text
               description := some (← Toml.element "BatchInfo" 2 items 1 Toml.text) })

/-- The section `input`. -/
def BatchInput.decode : Decoder BatchInput :=
  Toml.record "InputConfig"
    (fun t => do
      Toml.visit [Toml.field "path" Toml.text, Toml.field "queries" (Toml.listOf Query.decode)] t
      return { path := ← Toml.optional t "path" Toml.text
               queries := (← Toml.optional t "queries" (Toml.listOf Query.decode)).getD [] })
    (fun items => do
      let path ← Toml.element "InputConfig" 2 items 0 Toml.text
      let queries ← match items[1]? with
        | some v => Toml.listOf Query.decode v
        | none => pure []
      return ⟨some path, queries⟩)

/-- The section `output`. -/
def BatchOutput.decode : Decoder BatchOutput :=
  Toml.record "OutputConfig"
    (fun t => do
      Toml.visit [Toml.field "path" Toml.text, Toml.field "formats" (Toml.listOf Toml.text),
        Toml.field "basename" Toml.text] t
      return { path := ← Toml.required t "path" Toml.text
               formats := ← Toml.required t "formats" (Toml.listOf Toml.text)
               basename := ← Toml.optional t "basename" Toml.text })
    (fun items => do
      return { path := ← Toml.element "OutputConfig" 3 items 0 Toml.text
               formats := ← Toml.element "OutputConfig" 3 items 1 (Toml.listOf Toml.text)
               basename := some (← Toml.element "OutputConfig" 3 items 2 Toml.text) })

/-- The section `logging`. -/
def BatchLogging.decode : Decoder BatchLogging :=
  Toml.record "LoggingConfig"
    (fun t => do
      Toml.visit [Toml.field "level" Toml.text, Toml.field "json" Toml.truth] t
      return { level := ← Toml.optional t "level" Toml.text
               json := ← Toml.optional t "json" Toml.truth })
    (fun items => do
      return { level := some (← Toml.element "LoggingConfig" 2 items 0 Toml.text)
               json := some (← Toml.element "LoggingConfig" 2 items 1 Toml.truth) })

namespace Batch

def decode (t : Table) : Except Misfit Batch := do
  Toml.visit
    [ Toml.field "batch" BatchInfo.decode,
      Toml.field "input" BatchInput.decode,
      Toml.field "output" BatchOutput.decode,
      Toml.field "logging" BatchLogging.decode ] t
  return {
    info := ← Toml.required t "batch" BatchInfo.decode
    input := (← Toml.optional t "input" BatchInput.decode).getD ⟨none, []⟩
    output := ← Toml.required t "output" BatchOutput.decode
    logging := ← Toml.optional t "logging" BatchLogging.decode }

/-! ## Files -/

/-- The fault of a document that is no batch. -/
def unreadable (reason : String) : Fault :=
  .configuration "toml_parsing" ("TOML parsing error: " ++ reason)

/-- The batch that a document describes, without regard to the environment. -/
def ofDocument (cs : List Char) : Except Fault Batch :=
  match Toml.parse cs with
  | .error flaw => .error (unreadable flaw.message)
  | .ok t => (decode t).mapError fun misfit => unreadable misfit.message

/-- The batch that the text of a batch file describes. -/
def ofText (env : Environment) (cs : List Char) : Except Fault Batch :=
  ofDocument (env.substitute cs)

def ofFile (env : Environment) (data : List UInt8) : Except Fault Batch :=
  match Text.Utf8.decode data with
  | .ok cs => ofText env cs
  | .error _ => .error (.io .notText)

end Batch

end Shorthand
