import Shorthand.Text.Quoted

/-!
# The symbol table

The shorthand symbols with their canonical forms, and the table in which they are listed. In the
table canonical forms are quoted, so that the blanks around `$` can be seen.
-/

namespace Shorthand

structure Symbol where
  shorthand : String
  canonical : String
  description : String
  deriving DecidableEq, Repr

namespace Symbol

/-- Every shorthand symbol, in the order of the passes. -/
def all : List Symbol :=
  [ ⟨"this", " $ ", "reference to the current context node"⟩,
    ⟨"self", " $ ", "reference to the current context node"⟩,
    ⟨":name", ".name", "name of the current node"⟩,
    ⟨":key", ".key", "the 'key' property"⟩,
    ⟨":value", ".value", "the 'value' property"⟩,
    ⟨":root", "$", "the current root"⟩,
    ⟨":match", "match | .match", "match captured by a regular expression"⟩,
    ⟨":text", "text | .text", "body text of the node"⟩ ]

/-- A text with blanks after it up to a width. -/
def padded (width : Nat) (s : String) : String :=
  String.ofList (s.toList.rightpad width ' ')

def row (shorthand canonical description : String) : String :=
  padded 10 shorthand ++ " " ++ padded 16 canonical ++ " " ++ description ++ "\n"

def table : String :=
  row "SHORTHAND" "CANONICAL" "DESCRIPTION" ++
    String.join (all.map fun s => row s.shorthand (Text.quoted s.canonical) s.description)

end Symbol

end Shorthand
