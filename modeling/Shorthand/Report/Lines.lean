import Shorthand.Query
import Shorthand.Text.Lines

/-!
# Reports line by line

A text report has the expanded queries, one on each line; line breaks inside a query are escaped.
A listing, which is shown instead of writing reports, has three columns.

Delimited text has a record on each line, with a delimiter between its fields. A field that holds
the delimiter, a quote or a line break stands between quotes, and a quote inside it is written
twice.

    first,"f(a, :key)","f(a, .key)",true
-/

namespace Shorthand

/-! ## Texts and listings -/

def oneLine (s : String) : List Char := Text.escapeBreaks s.toList

/-- A report with one expanded query per line. -/
def Report.toText (r : Report) : List Char :=
  r.queries.flatMap fun q => oneLine q.expanded ++ ['\n']

/-- A line of a listing: the name, the query, and what it expands to. -/
def ExpandedQuery.listingLine (q : ExpandedQuery) : List Char :=
  (q.name.getD "-").toList ++ '\t' :: oneLine q.text ++ "\t=> ".toList ++
    oneLine q.expanded ++ ['\n']

def listing (queries : List ExpandedQuery) : List Char := queries.flatMap (·.listingLine)

/-! ## Delimited text -/

namespace Delimited

/-- True of the characters that a field cannot hold without quotes. -/
def isSpecial (delimiter c : Char) : Bool := c == delimiter || c == '"' || c == '\r' || c == '\n'

/-- A field between quotes, up to and with the closing one. -/
def doubled : List Char → List Char
  | [] => ['"']
  | c :: cs => if c = '"' then '"' :: '"' :: doubled cs else c :: doubled cs

def field (delimiter : Char) (cs : List Char) : List Char :=
  if cs.any (isSpecial delimiter) then '"' :: doubled cs else cs

/-- The fields of a record, and the line end. -/
def record (delimiter : Char) : List (List Char) → List Char
  | [] => ['\n']
  | [f] => field delimiter f ++ ['\n']
  | f :: fs => field delimiter f ++ delimiter :: record delimiter fs

/-- Records, one after the other. -/
def table (delimiter : Char) (records : List (List (List Char))) : List Char :=
  records.flatMap (record delimiter)

end Delimited

def Report.header : List (List Char) :=
  ["name".toList, "original".toList, "expanded".toList, "changed".toList]

/-- The fields of a query; a query without a name has an empty one. -/
def ExpandedQuery.fields (q : ExpandedQuery) : List (List Char) :=
  [(q.name.getD "").toList, q.text.toList, q.expanded.toList,
    if q.changed then "true".toList else "false".toList]

def Report.toDelimited (delimiter : Char) (r : Report) : List Char :=
  Delimited.table delimiter (Report.header :: r.queries.map (·.fields))

end Shorthand
