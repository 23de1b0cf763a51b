import Mathlib.Data.List.Basic
import Mathlib.Data.List.TakeWhile
import Shorthand.Environment

/-!
# References to the environment

A text is read from left to right as references and other characters (`Reads`).  A reference starts
at a dollar sign and ends at the next closing brace; a character is read as such only where no
reference starts, so an opened brace that is closed at once, or never, is plain text.  Every text
can be read, and a reading tells what is looked up and what comes of it:

    names cs          = the names of the references                       (Reads.names_eq)
    substitute env cs = the pieces, each reference filled by its value    (Reads.substitute_eq)

Environments that agree on these names give the same text (`substitute_congr`), and the text stays
as it is where none of them is defined (`substitute_eq_self`).
-/

namespace Shorthand.Environment

/-- The characters of a reference. -/
def referenceTo (name : List Char) : List Char := '$' :: '\x7b' :: name ++ ['\x7d']

/-- A name that a reference can have. -/
def IsName (name : String) : Prop := name ≠ "" ∧ '\x7d' ∉ name.toList

instance (name : String) : Decidable (IsName name) := inferInstanceAs (Decidable (_ ∧ _))

/-! ## A reference at the start of a text -/

/-- What ends before the text does ends at a brace. -/
theorem eq_takeWhile_append {cs : List Char}
    (h : (cs.takeWhile (· ≠ '\x7d')).length ≠ cs.length) :
    ∃ rest, cs = cs.takeWhile (· ≠ '\x7d') ++ '\x7d' :: rest := by
  induction cs with
  | nil => exact absurd rfl h
  | cons c cs ih =>
    by_cases hc : c = '\x7d'
    · exact ⟨cs, by rw [List.takeWhile_cons_of_neg (by simp [hc]), hc, List.nil_append]⟩
    · rw [List.takeWhile_cons_of_pos (by simp [hc])] at h ⊢
      obtain ⟨rest, hrest⟩ := ih fun heq => h (congrArg Nat.succ heq)
      exact ⟨rest, congrArg (c :: ·) hrest⟩

/-- A reference stands at the start of the text, and its name is right. -/
theorem eq_of_reference? {cs name : List Char} (h : reference? cs = some name) :
    IsName (String.ofList name) ∧ ∃ rest, cs = referenceTo name ++ rest := by
  unfold reference? at h
  split at h
  · rename_i cs
    dsimp only at h
    split at h
    · cases h
    · rename_i hname
      cases h
      simp only [Bool.or_eq_true, List.isEmpty_iff, decide_eq_true_eq, not_or] at hname
      refine ⟨⟨fun h => hname.1 ?_, fun hmem => ?_⟩, ?_⟩
      · simpa using congrArg String.toList h
      · rw [String.toList_ofList] at hmem
        simpa using List.mem_takeWhile_imp hmem
      · obtain ⟨rest, hrest⟩ := eq_takeWhile_append hname.2
        refine ⟨rest, ?_⟩
        rw [referenceTo, List.append_assoc, List.singleton_append, List.cons_append,
          List.cons_append, ← hrest]
  · cases h

/-- A reference is found where it stands. -/
theorem reference?_append {name : String} (h : IsName name) (rest : List Char) :
    reference? (referenceTo name.toList ++ rest) = some name.toList := by
  have hinside : ∀ c ∈ name.toList, decide (c ≠ '\x7d') = true := fun c hc =>
    decide_eq_true fun heq => h.2 (heq ▸ hc)
  have hrun : (name.toList ++ ['\x7d'] ++ rest).takeWhile (· ≠ '\x7d') = name.toList := by
    rw [List.append_assoc, List.takeWhile_append_of_pos hinside]
    simp
  have hne : name.toList ≠ [] := fun hnil => h.1 (String.toList_eq_nil_iff.mp hnil)
  show reference? ('$' :: '\x7b' :: (name.toList ++ ['\x7d'] ++ rest)) = _
  rw [reference?, hrun]
  simp [hne]

/-- No reference is found where none stands. -/
theorem reference?_eq_none_iff {cs : List Char} :
    reference? cs = none ↔ ∀ name, IsName name → ¬ referenceTo name.toList <+: cs := by
  constructor
  · rintro h name hname ⟨rest, rfl⟩
    rw [reference?_append hname] at h
    cases h
  · intro h
    cases hfound : reference? cs with
    | none => rfl
    | some name =>
      obtain ⟨hname, rest, hrest⟩ := eq_of_reference? hfound
      refine absurd ?_ (h _ hname)
      rw [String.toList_ofList]
      exact ⟨rest, hrest.symm⟩

/-! ## Steps of a scan -/

section Steps

variable {name : String} {c : Char} {cs : List Char}

theorem substituteFrom_length_append (env : Environment) (before cs : List Char) :
    substituteFrom env before.length (before ++ cs) = env.substitute cs := by
  induction before with
  | nil => rfl
  | cons c before ih => exact ih

theorem namesFrom_length_append (before cs : List Char) :
    namesFrom before.length (before ++ cs) = names cs := by
  induction before with
  | nil => rfl
  | cons c before ih => exact ih

/-- What comes behind the dollar sign of a reference is skipped. -/
theorem length_behind (name : List Char) :
    ('\x7b' :: name ++ ['\x7d']).length = name.length + 2 := by
  simp

theorem substitute_reference (env : Environment) (h : IsName name) (rest : List Char) :
    env.substitute (referenceTo name.toList ++ rest) =
      replacement env name.toList ++ env.substitute rest := by
  have hfound := reference?_append h rest
  rw [referenceTo, List.cons_append, List.cons_append] at hfound ⊢
  rw [substitute, substituteFrom, hfound]
  dsimp only
  rw [← length_behind, substituteFrom_length_append]

theorem names_reference (h : IsName name) (rest : List Char) :
    names (referenceTo name.toList ++ rest) = name :: names rest := by
  have hfound := reference?_append h rest
  rw [referenceTo, List.cons_append, List.cons_append] at hfound ⊢
  rw [names, namesFrom, hfound]
  dsimp only
  rw [← length_behind, namesFrom_length_append, String.ofList_toList]

theorem substitute_char (env : Environment) (h : reference? (c :: cs) = none) :
    env.substitute (c :: cs) = c :: env.substitute cs := by
  rw [substitute, substituteFrom, h]
  rfl

theorem names_char (h : reference? (c :: cs) = none) : names (c :: cs) = names cs := by
  rw [names, namesFrom, h]
  rfl

end Steps

/-! ## Readings -/

/-- What a scan comes to. -/
inductive Piece where
  | char (c : Char)
  | reference (name : String)

namespace Piece

/-- The name that is looked up. -/
def name? : Piece → Option String
  | char _ => none
  | reference name => some name

/-- What a piece becomes: a reference becomes the value of its name, as it is, or else stays. -/
def filled (env : Environment) : Piece → List Char
  | char c => [c]
  | reference name =>
    match env name with
    | some value => value.toList
    | none => referenceTo name.toList

theorem filled_reference (env : Environment) (name : String) :
    (reference name).filled env = replacement env name.toList := by
  rw [filled, replacement, String.ofList_toList]
  rfl

end Piece

/-- The pieces that a text is read as. -/
inductive Reads : List Char → List Piece → Prop
  | nil : Reads [] []
  | reference {name : String} {rest : List Char} {pieces : List Piece} : IsName name →
      Reads rest pieces → Reads (referenceTo name.toList ++ rest) (.reference name :: pieces)
  | char {c : Char} {cs : List Char} {pieces : List Piece} :
      (∀ name, IsName name → ¬ referenceTo name.toList <+: c :: cs) →
      Reads cs pieces → Reads (c :: cs) (.char c :: pieces)

/-- Every text can be read. -/
theorem exists_reads (cs : List Char) : ∃ pieces, Reads cs pieces := by
  -- a reference takes many characters at once, so the induction is on the length of what is left
  induction hn : cs.length using Nat.strongRecOn generalizing cs with
  | ind n ih =>
    subst hn
    cases cs with
    | nil => exact ⟨[], .nil⟩
    | cons c cs =>
      cases hfound : reference? (c :: cs) with
      | none =>
        obtain ⟨pieces, hpieces⟩ := ih _ (Nat.lt_succ_self cs.length) cs rfl
        exact ⟨_, .char (reference?_eq_none_iff.mp hfound) hpieces⟩
      | some name =>
        obtain ⟨hname, rest, hrest⟩ := eq_of_reference? hfound
        have hlength : rest.length < (c :: cs).length := by
          rw [hrest, List.length_append, referenceTo, List.cons_append, List.length_cons]
          omega
        obtain ⟨pieces, hpieces⟩ := ih _ hlength rest rfl
        have hreads := Reads.reference hname hpieces
        rw [String.toList_ofList] at hreads
        exact ⟨_, hrest ▸ hreads⟩

namespace Reads

variable {cs : List Char} {pieces : List Piece}

/-- The names that are looked up are those of the references, in their order. -/
theorem names_eq (h : Reads cs pieces) : names cs = pieces.filterMap Piece.name? := by
  induction h with
  | nil => rfl
  | reference hname _ ih => rw [names_reference hname, ih]; rfl
  | char hchar _ ih => rw [names_char (reference?_eq_none_iff.mpr hchar), ih]; rfl

/-- Each piece is filled on its own, and what is put in is not read. -/
theorem substitute_eq (h : Reads cs pieces) (env : Environment) :
    env.substitute cs = pieces.flatMap (Piece.filled env) := by
  induction h with
  | nil => rfl
  | reference hname _ ih =>
    rw [substitute_reference env hname, ih, List.flatMap_cons, Piece.filled_reference]
  | char hchar _ ih =>
    rw [substitute_char env (reference?_eq_none_iff.mpr hchar), ih]
    rfl

/-- Filled by nothing, the pieces are the text. -/
theorem flatMap_filled_empty (h : Reads cs pieces) : pieces.flatMap (Piece.filled empty) = cs := by
  induction h with
  | nil => rfl
  | reference _ _ ih => rw [List.flatMap_cons, ih]; rfl
  | char _ _ ih => rw [List.flatMap_cons, ih]; rfl

end Reads

/-! ## Environments that agree -/

/-- Only the names of a text matter. -/
theorem substitute_congr {env env' : Environment} {cs : List Char}
    (h : ∀ name ∈ names cs, env name = env' name) : env.substitute cs = env'.substitute cs := by
  obtain ⟨pieces, hpieces⟩ := exists_reads cs
  rw [hpieces.names_eq] at h
  rw [hpieces.substitute_eq, hpieces.substitute_eq]
  refine List.flatMap_congr fun piece hpiece => ?_
  cases piece with
  | char c => rfl
  | reference name =>
    rw [Piece.filled, Piece.filled, h name (List.mem_filterMap.mpr ⟨_, hpiece, rfl⟩)]

/-- **Undefined names.**  A text that refers to no defined name is left as it is. -/
theorem substitute_eq_self {env : Environment} {cs : List Char}
    (h : ∀ name ∈ names cs, env name = none) : env.substitute cs = cs := by
  obtain ⟨pieces, hpieces⟩ := exists_reads cs
  calc env.substitute cs
    _ = empty.substitute cs := substitute_congr h
    _ = cs := by rw [hpieces.substitute_eq, hpieces.flatMap_filled_empty]

end Shorthand.Environment
