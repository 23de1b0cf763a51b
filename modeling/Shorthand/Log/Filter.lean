import Shorthand.Log.Directive

/-!
# Log filters

A filter is a list of directives, separated by commas in a text. Of the directives that speak about
an event the one with the longest target decides, and of two with the same target the one that names
a field, and else the later one. An event about which no directive speaks is not shown.

    query_symbols=debug,warn    debug for one target, warn for the rest
-/

namespace Shorthand.Log

/-! ## Filters -/

structure Filter where
  directives : List Directive
  deriving DecidableEq, Repr

namespace Filter

/-- The filter of directives; without any it shows errors only. -/
def ofDirectives (ds : List Directive) : Filter :=
  ⟨if ds.isEmpty then [.forAll (some .error)] else ds⟩

/-- The heavier of two directives, the later one if they weigh the same. -/
def heavier (best : Option Directive) (d : Directive) : Option Directive :=
  match best with
  | some b => if d.scope.weight < b.scope.weight then some b else some d
  | none => some d

/-- The directive that decides about a target. -/
def deciding (f : Filter) (target : String) : Option Directive :=
  (f.directives.filter (·.scope.covers target)).foldl heavier none

def shows (f : Filter) (e : Event) : Bool :=
  (f.deciding e.target).any fun d => d.limit.shows e.level

/-- The pieces of a text between commas, without the empty ones. -/
def pieces (cs : List Char) : List (List Char) :=
  (cs.splitOn ',').filter (· ≠ [])

/-- The filter of a text, all of whose directives must be right. -/
def ofText? (text : String) : Option Filter :=
  match (pieces text.toList).mapM Directive.ofText with
  | .ok ds => some (ofDirectives ds)
  | .error _ => none

/-- The filter of the right directives of a text, and a complaint about each of the others. -/
def ofTextLeniently (text : String) : Filter × List String :=
  let read := (pieces text.toList).map fun piece => (piece, Directive.ofText piece)
  let complaints := read.filterMap fun r =>
    match r.2 with
    | .ok _ => none
    | .error cause =>
      some ("ignoring \x60" ++ String.ofList r.1 ++ "\x60: " ++ cause.message)
  (ofDirectives (read.filterMap fun r => r.2.toOption), complaints)

end Filter

end Shorthand.Log
