import Shorthand.Expansion

/-!
# Queries and reports

A query is a text with an optional name. Expanding it keeps the text it came from and records
whether anything but the margins changed; a report is a list of such results with the time at
which it was made.
-/

namespace Shorthand

/-- A query as the user wrote it. -/
structure Query where
  name : Option String
  text : String
  deriving DecidableEq, Repr

def Query.unnamed (text : String) : Query := ⟨none, text⟩

/-- A query and its expansion. -/
structure ExpandedQuery where
  name : Option String
  /-- The query as the user wrote it. -/
  text : String
  expanded : String
  /-- False where expansion only trimmed the query. -/
  changed : Bool
  deriving DecidableEq, Repr

/-- The expanded queries of a run. -/
structure Report where
  generatedAt : String
  queries : List ExpandedQuery
  deriving DecidableEq, Repr

def Query.expand (q : Query) : ExpandedQuery where
  name := q.name
  text := q.text
  expanded := expandText q.text
  changed := expandText q.text != trimText q.text

/-- How many queries expansion changed by more than trimming. -/
def Report.changedCount (r : Report) : Nat := r.queries.countP (·.changed)

end Shorthand
