/-!
# Replacing tokens by rules

A rule replaces a fixed token where the characters around it fit. `replaceTokens rules` goes over
a text once, from left to right: at each place the first rule that applies is used, its token
is passed over, and every other character is copied. All neighbours are those of the text that
is read, never of the text that is written.

    replaceTokens [] cs = cs
-/

namespace Shorthand

/-- A token to look for, the neighbours it needs, and what is written in its place. -/
structure Rule where
  /-- The characters to be replaced. -/
  token : List Char
  /-- Whether the characters right before and right after the token allow the replacement. -/
  fits : (before after : Option Char) → Bool
  /-- What is written, given the character right before the token. -/
  output : (before : Option Char) → List Char

namespace Rule

/-! ## Algorithm -/

/-- What the rule writes for its token at the start of `cs`, where it applies. -/
def output? (r : Rule) (before : Option Char) (cs : List Char) : Option (List Char) :=
  if r.token.isPrefixOf cs && r.fits before (cs.drop r.token.length).head? then
    some (r.output before)
  else none

/-- The first rule that applies at the start of `cs`: what it writes, and the token's length. -/
def first? (rules : List Rule) (before : Option Char) (cs : List Char) :
    Option (List Char × Nat) :=
  rules.findSome? fun r => (r.output? before cs).map fun out => (out, r.token.length)

end Rule

/-- Goes over a text of which the next `skip` characters belong to a token that was replaced;
`before` is the character right before the text. -/
def replaceTokensFrom (rules : List Rule) :
    (skip : Nat) → (before : Option Char) → List Char → List Char
  | _, _, [] => []
  | skip + 1, _, c :: cs => replaceTokensFrom rules skip (some c) cs
  | 0, before, c :: cs =>
    match Rule.first? rules before (c :: cs) with
    | some (out, n) => out ++ replaceTokensFrom rules (n - 1) (some c) cs
    | none => c :: replaceTokensFrom rules 0 (some c) cs

/-- Goes over a whole text. -/
def replaceTokens (rules : List Rule) (cs : List Char) : List Char :=
  replaceTokensFrom rules 0 none cs

/-! ## Lemmas -/

@[simp]
theorem replaceTokensFrom_nil (before : Option Char) (cs : List Char) :
    replaceTokensFrom [] 0 before cs = cs := by
  induction cs generalizing before with
  | nil => rfl
  | cons c cs ih => simp [replaceTokensFrom, Rule.first?, ih]

@[simp]
theorem replaceTokens_nil (cs : List Char) : replaceTokens [] cs = cs :=
  replaceTokensFrom_nil none cs

end Shorthand
