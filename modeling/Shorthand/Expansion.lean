import Shorthand.Replacement
import Shorthand.Text.Classes

/-!
# Expansion of shorthand symbols

A query is trimmed and then goes through seven passes, each of which replaces one kind of
symbol in the text that the pass before it wrote:

    this, self        →  " $ "                     as whole words
    :name :key :value →  .name .key .value
    :root             →  $
    :match :text      →  match, text               right after an accessor
                         .match, .text             elsewhere

Everything else is copied. A query is never checked.
-/

namespace Shorthand

/-! ## Rules -/

/-- True of a neighbour that is no ASCII word character, or missing. -/
def isBreak : Option Char → Bool
  | none => true
  | some c => !Text.isWord c

/-- True of the characters to which a selector attaches without a dot: those that open a call
or an index, and the dot itself. -/
def isAccessor : Option Char → Bool
  | none => false
  | some c => c == '(' || c == '[' || c == '.'

/-- A whole word that stands for the current context node. -/
def Rule.context (word : String) : Rule where
  token := word.toList
  fits before after := isBreak before && isBreak after
  output _ := " $ ".toList

/-- A token with one canonical form. -/
def Rule.literal (token canonical : String) : Rule where
  token := token.toList
  fits _ _ := true
  output _ := canonical.toList

/-- A selector whose dot depends on what stands before its colon. -/
def Rule.selector (word : String) : Rule where
  token := ':' :: word.toList
  fits _ _ := true
  output before := if isAccessor before then word.toList else '.' :: word.toList

/-! ## Algorithm -/

/-- The passes in the order in which they are applied. -/
def passes : List (List Rule) :=
  [ [.context "this", .context "self"],
    [.literal ":name" ".name"],
    [.literal ":key" ".key"],
    [.literal ":value" ".value"],
    [.literal ":root" "$"],
    [.selector "match"],
    [.selector "text"] ]

/-- What is dropped at the ends of a query: blanks and byte order marks. -/
def isMargin (c : Char) : Bool := Text.isBlank c || c == Text.byteOrderMark

/-- Drops blanks and byte order marks from both ends of a query. -/
def trimQuery (cs : List Char) : List Char := Text.trimBy isMargin cs

/-- Applies passes one after the other. -/
def applyPasses (ps : List (List Rule)) (cs : List Char) : List Char :=
  ps.foldl (fun text rules => replaceTokens rules text) cs

def expandChars (cs : List Char) : List Char := applyPasses passes (trimQuery cs)

/-- Expands every shorthand symbol of a query text. -/
def expandText (query : String) : String := String.ofList (expandChars query.toList)

def trimText (query : String) : String := String.ofList (trimQuery query.toList)

/-! ## Lemmas -/

@[simp]
theorem applyPasses_nil (cs : List Char) : applyPasses [] cs = cs := rfl

@[simp]
theorem applyPasses_cons (p : List Rule) (ps : List (List Rule)) (cs : List Char) :
    applyPasses (p :: ps) cs = applyPasses ps (replaceTokens p cs) := rfl

@[simp]
theorem applyPasses_append (ps qs : List (List Rule)) (cs : List Char) :
    applyPasses (ps ++ qs) cs = applyPasses qs (applyPasses ps cs) :=
  List.foldl_append

@[simp]
theorem toList_expandText (query : String) :
    (expandText query).toList = expandChars query.toList := by
  simp [expandText]

@[simp]
theorem toList_trimText (query : String) : (trimText query).toList = trimQuery query.toList := by
  simp [trimText]

end Shorthand
