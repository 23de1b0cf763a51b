/-!
# Patterns of field values

A directive may test the value of a field by a pattern. No event has a field whose value could be
tested, so that a pattern is never matched: all that counts is whether it can be read.

    (a|b)*  [^a-z]+  \d?      can be read
    (  )  [  *a  a{2          cannot
-/

namespace Shorthand.Log.Pattern

/-- What may follow a backslash: a sign, or a letter that names a class of characters or a single
one. -/
def isEscaped (c : Char) : Bool :=
  c.toNat < 0x80 && !c.isAlphanum && c != '<' && c != '>' ||
    "aftnrvAzdDsSwWxuUpP".toList.contains c

/-- Whether the rest of a pattern can be read inside so many groups and classes; `repeatable` says
whether there is something in front that could be repeated. Counts of repetitions need a closing
brace, which a field cannot hold. -/
def readableFrom (groups classes : Nat) (repeatable : Bool) : List Char → Bool
  | [] => groups == 0 && classes == 0
  | ['\\'] => false
  | '\\' :: c :: cs => isEscaped c && readableFrom groups classes true cs
  | '[' :: '^' :: ']' :: cs => readableFrom groups (classes + 1) true cs
  | '[' :: ']' :: cs => readableFrom groups (classes + 1) true cs
  | '[' :: cs => readableFrom groups (classes + 1) true cs
  | '(' :: '?' :: cs =>
    if 0 < classes then readableFrom groups classes true cs
    else cs.head? != some '!' && readableFrom (groups + 1) 0 false cs
  | c :: cs =>
    if 0 < classes then readableFrom groups (if c = ']' then classes - 1 else classes) true cs
    else if c = '(' then readableFrom (groups + 1) 0 false cs
    else if c = ')' then 0 < groups && readableFrom (groups - 1) 0 true cs
    else if c = '|' then readableFrom groups 0 false cs
    else if c = '*' || c = '+' || c = '?' then repeatable && readableFrom groups 0 true cs
    else c != '\x7b' && readableFrom groups 0 true cs

def readable (cs : List Char) : Bool := readableFrom 0 0 false cs

end Shorthand.Log.Pattern
