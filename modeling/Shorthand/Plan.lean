import Shorthand.Fault
import Shorthand.Path
import Shorthand.Report.Render

/-!
# Plans

What a run needs to know, wherever it comes from, and the files that it asks for: one for each of
its formats, however often and under whatever names a format is listed, in the order in which the
formats come up first.
-/

namespace Shorthand

/-- Where queries come from and where reports go. -/
structure Plan where
  /-- A file with queries. -/
  inputPath : Option String
  /-- Queries given directly; they come before those of the file. -/
  queries : List Query
  /-- The folder of the reports. -/
  outputPath : String
  /-- The names of the reports' formats. -/
  formats : List String
  /-- The reports' file name without its extension. -/
  basename : String
  deriving DecidableEq, Repr

/-- The base name where none is chosen. -/
def Plan.defaultBasename : String := "expanded"

/-! ## Files -/

/-- A file to be written. -/
structure Output where
  path : String
  data : List UInt8
  deriving DecidableEq, Repr

namespace Plan

def formatOf (name : String) : Except Fault ReportFormat :=
  match ReportFormat.ofName? name with
  | some format => .ok format
  | none =>
    .error (.invalidValue "output.formats" name (ReportFormat.unknownMessage name))

/-- The elements of a list, each where it comes up first. -/
def distinct (formats : List ReportFormat) : List ReportFormat :=
  formats.foldl (fun seen f => if seen.contains f then seen else seen ++ [f]) []

def reportFormats (p : Plan) : Except Fault (List ReportFormat) :=
  (p.formats.mapM formatOf).map distinct

def reportPath (p : Plan) (format : ReportFormat) : String :=
  Path.join p.outputPath (p.basename ++ "." ++ format.extension)

def outputs (p : Plan) (report : Report) : Except Fault (List Output) := do
  let formats ← p.reportFormats
  return formats.map fun f => ⟨p.reportPath f, report.render f⟩

end Plan

end Shorthand
