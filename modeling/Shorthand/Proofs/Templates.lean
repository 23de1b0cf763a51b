import Shorthand.Batch.File
import Shorthand.Proofs.References

/-!
# Templates

A template is literal text with references in it.  No reference is opened in its literal text, and
a name is not empty and has no closing brace; it may have dollar signs, opening braces and line
breaks.  The references are filled each by its value, whatever the value looks like:

    substitute env (l₀ ${v₁} l₁ … ${vₙ} lₙ) = l₀ w₁ l₁ … wₙ lₙ            (Template.substitute_text)

where `wᵢ` is the value of `vᵢ` or, where there is none, the reference itself.

Of an environment a batch file needs to know no more than the names that its text refers to
(`substitute_scans_once`).
-/

namespace Shorthand.Environment

/-- The characters that open a reference. -/
def opener : List Char := ['$', '\x7b']

/-- A text in which no reference is opened. -/
def IsLiteral (cs : List Char) : Prop := ¬ opener <:+: cs

instance (cs : List Char) : Decidable (IsLiteral cs) := inferInstanceAs (Decidable (¬ _))

/-- A reference, and the literal text up to the next one. -/
structure Slot where
  name : String
  isName : IsName name
  after : List Char
  isLiteral : IsLiteral after

/-- Literal text, and any number of slots. -/
structure Template where
  lead : List Char
  isLiteral : IsLiteral lead
  slots : List Slot

/-! ## Texts of templates -/

def Slot.text (s : Slot) : List Char := referenceTo s.name.toList ++ s.after

/-- A slot with the value of its name in the place of the reference, if there is one. -/
def Slot.filled (env : Environment) (s : Slot) : List Char :=
  match env s.name with
  | some value => value.toList ++ s.after
  | none => referenceTo s.name.toList ++ s.after

def Template.text (t : Template) : List Char := t.lead ++ t.slots.flatMap Slot.text

def Template.filled (env : Environment) (t : Template) : List Char :=
  t.lead ++ t.slots.flatMap (Slot.filled env)

/-! ## Readings of templates -/

/-- An opener is not made of the end of a text and a start that is no brace. -/
theorem opener_isInfix_of_prefix {c : Char} {cs rest : List Char}
    (h : opener <+: c :: (cs ++ rest)) (hrest : rest.head? ≠ some '\x7b') :
    opener <:+: c :: cs := by
  obtain ⟨tail, htail⟩ := h
  obtain ⟨rfl, hbrace⟩ := List.cons.inj htail
  cases cs with
  | nil => exact absurd (congrArg List.head? hbrace.symm) hrest
  | cons d cs =>
    obtain ⟨rfl, -⟩ := List.cons.inj hbrace
    exact ⟨[], cs, rfl⟩

/-- Literal text is read one character at a time. -/
theorem Reads.literal_append {literal rest : List Char} {pieces : List Piece}
    (hliteral : IsLiteral literal) (hrest : rest.head? ≠ some '\x7b') (h : Reads rest pieces) :
    Reads (literal ++ rest) (literal.map .char ++ pieces) := by
  induction literal with
  | nil => exact h
  | cons c cs ih =>
    refine .char (fun name _ hprefix => hliteral ?_) (ih fun hinfix => hliteral ?_)
    · have hopener : opener <+: referenceTo name.toList := ⟨name.toList ++ ['\x7d'], rfl⟩
      exact opener_isInfix_of_prefix (hopener.trans hprefix) hrest
    · exact hinfix.trans (List.suffix_cons c cs).isInfix

/-- The text of slots is empty or starts with a dollar sign. -/
theorem head?_slots (slots : List Slot) : (slots.flatMap Slot.text).head? ≠ some '\x7b' := by
  cases slots with
  | nil => exact nofun
  | cons s slots => exact fun h => absurd (Option.some.inj h) (by decide)

def Slot.pieces (s : Slot) : List Piece := .reference s.name :: s.after.map .char

/-- Slots are read one after another.  What follows the literal text of a slot is the dollar sign of
the next one, so that a dollar sign at its end opens nothing. -/
theorem reads_slots (slots : List Slot) :
    Reads (slots.flatMap Slot.text) (slots.flatMap Slot.pieces) := by
  induction slots with
  | nil => exact .nil
  | cons s slots ih =>
    rw [List.flatMap_cons, List.flatMap_cons, Slot.text, List.append_assoc]
    exact .reference s.isName (ih.literal_append s.isLiteral (head?_slots slots))

theorem reads_template (t : Template) :
    Reads t.text (t.lead.map .char ++ t.slots.flatMap Slot.pieces) :=
  (reads_slots t.slots).literal_append t.isLiteral (head?_slots t.slots)

/-! ## What templates refer to, and what comes of them -/

@[simp]
theorem flatMap_filled_char (env : Environment) (cs : List Char) :
    (cs.map Piece.char).flatMap (Piece.filled env) = cs := by
  rw [List.flatMap_map]
  exact List.flatMap_singleton' cs

@[simp]
theorem filterMap_name?_char (cs : List Char) :
    (cs.map Piece.char).filterMap Piece.name? = [] := by
  rw [List.filterMap_map, List.filterMap_eq_nil_iff]
  exact fun _ _ => rfl

theorem Slot.flatMap_pieces (env : Environment) (s : Slot) :
    s.pieces.flatMap (Piece.filled env) = s.filled env := by
  cases hvalue : env s.name <;> simp [pieces, Piece.filled, filled, hvalue]

theorem Slot.filterMap_pieces (s : Slot) : s.pieces.filterMap Piece.name? = [s.name] := by
  simp [pieces, Piece.name?]

/-- Each reference is filled by its value or stays, and all else is kept. -/
theorem Template.substitute_text (env : Environment) (t : Template) :
    env.substitute t.text = t.filled env := by
  rw [(reads_template t).substitute_eq, List.flatMap_append, flatMap_filled_char,
    List.flatMap_assoc, filled]
  exact congrArg _ (List.flatMap_congr fun s _ => s.flatMap_pieces env)

/-- The names of a template are looked up in their order. -/
theorem Template.names_text (t : Template) : names t.text = t.slots.map Slot.name := by
  rw [(reads_template t).names_eq, List.filterMap_append, filterMap_name?_char, List.nil_append,
    List.filterMap_flatMap, List.map_eq_flatMap]
  exact List.flatMap_congr fun s _ => s.filterMap_pieces

/-! ## Top theorem -/

/-- **One scan.**  The references of a template are filled by their values, which are not read
again.  Every text has a reading, which tells the names that are looked up and what becomes of the
text.  Where none of these names is defined the text stays as it is, and in environments that agree
on them it is read as the same batch, or refused with the same fault. -/
theorem substitute_scans_once (env : Environment) :
    (∀ t : Template, env.substitute t.text = t.filled env ∧
      names t.text = t.slots.map Slot.name) ∧
    ∀ cs : List Char,
      (∃ pieces, Reads cs pieces) ∧
      (∀ pieces, Reads cs pieces → env.substitute cs = pieces.flatMap (Piece.filled env) ∧
        names cs = pieces.filterMap Piece.name?) ∧
      ((∀ name ∈ names cs, env name = none) → env.substitute cs = cs) ∧
      ∀ env' : Environment, (∀ name ∈ names cs, env name = env' name) →
        Batch.ofText env cs = Batch.ofText env' cs := by
  refine ⟨fun t => ⟨t.substitute_text env, t.names_text⟩, fun cs => ⟨exists_reads cs, ?_, ?_, ?_⟩⟩
  · exact fun pieces h => ⟨h.substitute_eq env, h.names_eq⟩
  · exact substitute_eq_self
  · intro env' h
    rw [Batch.ofText, Batch.ofText, substitute_congr h]

/-- A dollar sign right before a reference, a name with an opener and a line feed in it, and a
second reference with braces before it. -/
def nested : Template where
  lead := "a$".toList
  isLiteral := by decide
  slots := [⟨"x$\x7by\n", by decide, "\x7b\x7d".toList, by decide⟩,
    ⟨"U", by decide, "$".toList, by decide⟩]

/-- The value of the first name looks like the second reference, whose name is not defined. -/
def likeReference : Environment := ofList [("x$\x7by\n", "$\x7bU\x7d")]

/-- A batch file with an empty reference, one to an undefined name, and one that is not closed. -/
def halfOpen : List Char :=
  "[batch]\nname = \"$\x7b\x7d\"\n[output]\npath = \"$\x7bU\x7d\"\nformats = []\n# $\x7bx$\x7by".toList

theorem substitute_scans_once_nested :
    likeReference.substitute nested.text = "a$$\x7bU\x7d\x7b\x7d$\x7bU\x7d$".toList ∧
      likeReference.substitute halfOpen = halfOpen ∧
      Batch.ofText likeReference halfOpen = Batch.ofText empty halfOpen := by
  obtain ⟨htemplate, htext⟩ := substitute_scans_once likeReference
  obtain ⟨-, -, hself, hagree⟩ := htext halfOpen
  exact ⟨(htemplate nested).1, hself (by decide +kernel), hagree empty (by decide +kernel)⟩

end Shorthand.Environment
