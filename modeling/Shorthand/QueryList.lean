import Shorthand.Fault
import Shorthand.Json.Value
import Shorthand.Path
import Shorthand.Query
import Shorthand.Text.Lines

/-!
# Lists of queries

A file of queries is either a text with one query per line, blank lines apart, or, if its extension
is `json`, a JSON array of entries. An entry is

    "query"                              a query without a name
    {"name": …, "query": …}              a query with or without a name; other keys say nothing
    [name or null, "query"]              the same, by position
-/

namespace Shorthand.QueryList

/-! ## Lines -/

/-- The queries of a text: its lines, without those that hold blanks only. -/
def ofText (cs : List Char) : List Query :=
  ((Text.lines cs).filter fun line => !Text.allBlank line).map fun line =>
    Query.unnamed (String.ofList line)

def ofStream (data : List UInt8) : Except Fault (List Query) :=
  match Text.Utf8.decode data with
  | .ok cs => .ok (ofText cs)
  | .error breach => .error (.io (.brokenText breach))

/-! ## JSON entries -/

/-- The name that a value gives a query; none where it gives no name. -/
def nameOf? : Json.Value → Option (Option String)
  | .null => some none
  | .string s => some (some s)
  | _ => none

def valuesOf (key : String) (members : List (String × Json.Value)) : List Json.Value :=
  (members.filter fun m => m.1 == key).map (·.2)

def entryOf? : Json.Value → Option Query
  | .string s => some (.unnamed s)
  | .array [name, .string s] => (nameOf? name).map fun n => ⟨n, s⟩
  | .object members =>
    match valuesOf "query" members, valuesOf "name" members with
    | [.string s], [] => some (.unnamed s)
    | [.string s], [name] => (nameOf? name).map fun n => ⟨n, s⟩
    | _, _ => none
  | _ => none

/-- Reads an entry: it is read as a value first, and then has to be a query. -/
def entry : Json.Reader Query := do
  match entryOf? (← Json.value (Json.maxDepth - 1)) with
  | some q => return q
  | none => throw .noEntry

def ofJson (data : List UInt8) : Except Json.Fault (List Query) :=
  Json.readAll (Json.listOf entry) data

/-! ## Files -/

/-- True of a path whose extension is `json` in any case. -/
def isJsonPath (path : String) : Bool :=
  (Path.extension? path).any fun e => e.map Char.toLower == "json".toList

def ofFile (path : String) (data : List UInt8) : Except Fault (List Query) :=
  if isJsonPath path then
    (ofJson data).mapError .serialization
  else
    match Text.Utf8.decode data with
    | .ok cs => .ok (ofText cs)
    | .error breach =>
      .error (.processing ("Input file '" ++ path ++ "' is not valid UTF-8: " ++ breach.message))

end Shorthand.QueryList
