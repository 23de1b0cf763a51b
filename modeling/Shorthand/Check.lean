import Shorthand.Fault
import Shorthand.Report.Render

/-!
# Checks of settings

What a path, a name, a base name and a list of formats must be like. A check names the field in
its fault.
-/

namespace Shorthand.Check

/-- A path is not empty and has no NUL. -/
def path (field value : String) : Except Fault Unit :=
  if value.isEmpty then .error (.invalidValue field value "Path cannot be empty")
  else if value.toList.contains '\x00' then
    .error (.invalidValue field value "Path contains null bytes")
  else .ok ()

/-- A name has a character that is no blank. -/
def nonEmpty (field value : String) : Except Fault Unit :=
  if Text.allBlank value.toList then
    .error (.invalidValue field value "Value cannot be empty or whitespace-only")
  else .ok ()

/-- A base name is a name without separators, and no folder's name for itself or its parent. -/
def basename (field value : String) : Except Fault Unit := do
  nonEmpty field value
  if value.toList.any (fun c => c == '/' || c == '\\') || value == "." || value == ".." then
    .error (.invalidValue field value "Basename must be a plain file name")

/-- There is at least one format, and all names denote one. -/
def formats (field : String) (names : List String) : Except Fault Unit :=
  if names.isEmpty then .error (.missingValue field)
  else
    match names.find? fun name => (ReportFormat.ofName? name).isNone with
    | some name =>
      .error (.invalidValue field name
        ("Unsupported format. Valid formats: " ++
          ", ".intercalate (ReportFormat.all.map (·.extension))))
    | none => .ok ()

end Shorthand.Check
