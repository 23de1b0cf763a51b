import Shorthand.Report.Document
import Shorthand.Report.Lines
import Shorthand.Text.Classes
import Shorthand.Text.Utf8

/-!
# Reports as files

The four formats of a report, the names by which the settings choose them, and the octets of a
report's file in each.

    ofName? " Text" = some txt        ofName? "xml" = none
-/

namespace Shorthand

/-! ## Formats -/

inductive ReportFormat where
  | txt
  | json
  | csv
  | tsv
  deriving DecidableEq, Repr

namespace ReportFormat

/-- The extension of a report's file, which is also the format's name. -/
def extension : ReportFormat → String
  | .txt => "txt"
  | .json => "json"
  | .csv => "csv"
  | .tsv => "tsv"

/-- All formats, in the order in which they are listed. -/
def all : List ReportFormat := [.txt, .json, .csv, .tsv]

/-- A name in its plain form: no blanks at its ends, ASCII letters in lower case. -/
def plainName (name : String) : String :=
  String.ofList ((Text.trim name.toList).map Char.toLower)

def ofPlainName? : String → Option ReportFormat
  | "txt" => some .txt
  | "text" => some .txt
  | "json" => some .json
  | "csv" => some .csv
  | "tsv" => some .tsv
  | _ => none

/-- The format that a name denotes, whatever its case and the blanks around it. -/
def ofName? (name : String) : Option ReportFormat := ofPlainName? (plainName name)

def unknownMessage (name : String) : String :=
  "unknown output format '" ++ plainName name ++ "'"

end ReportFormat

/-! ## Files -/

def Report.inFormat (r : Report) : ReportFormat → List Char
  | .txt => r.toText
  | .json => r.toDocument
  | .csv => r.toDelimited ','
  | .tsv => r.toDelimited '\t'

def Report.render (r : Report) (f : ReportFormat) : List UInt8 := Text.Utf8.encode (r.inFormat f)

end Shorthand
