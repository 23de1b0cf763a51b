import Mathlib.Data.List.Forall2
import Shorthand.Proofs.Spelling
import Shorthand.Toml.Document

/-!
# Strings and keys of TOML

A character can be written in a string as itself, as a short escape or by its code point in two,
four or eight digits (`Spelled`).  The reader takes all of these:

    string (t ++ rest) = (s, rest)        where t spells s, with its quotes      (reads_string)

Two quotes in a row are an empty string only if no third one follows, so what stands behind a value
has to be said: a blank, a comma, a closing bracket or the end of the line (`Ends`).
-/

namespace Shorthand.Toml

open Text (HexDigit hexDigit_digitChar)

/-! ## Grammar -/

/-- The letters of short escapes, each with the character that it stands for. -/
def shortEscapes : List (Char × Char) :=
  [ ('"', '"'), ('\\', '\\'), ('b', '\x08'), ('t', '\t'), ('n', '\n'), ('f', '\x0C'), ('r', '\r'),
    ('e', '\x1B') ]

/-- The letters of escapes by code point, each with the number of digits behind it. -/
def codeMarks : List (Char × Nat) := [('x', 2), ('u', 4), ('U', 8)]

/-- The number that hexadecimal digits denote. -/
def ofHex (ns : List Nat) : Nat := ns.foldl (fun n d => n * 16 + d) 0

/-- The ways to write a character in a string. -/
inductive Spelled : Char → List Char → Prop
  | plain {c : Char} (quote : c ≠ '"') (backslash : c ≠ '\\') (text : isText c = true) :
      Spelled c [c]
  | short {letter c : Char} (h : (letter, c) ∈ shortEscapes) : Spelled c ['\\', letter]
  | code {mark c : Char} {ns : List Nat} {ds : List Char} (h : (mark, ns.length) ∈ codeMarks)
      (digits : List.Forall₂ HexDigit ns ds) (value : ofHex ns = c.toNat) :
      Spelled c ('\\' :: mark :: ds)

/-- The ways to write the characters of a string. -/
abbrev SpelledAll : List Char → List Char → Prop := Text.SpelledAll Spelled

/-- A string with its quotes. -/
abbrev StringText : String → List Char → Prop := Text.StringText Spelled

/-! ## Steps of a reader -/

section
variable {α β : Type}

theorem bind_some {r : Reader α} {f : α → Reader β} {c c' : Cursor} {x : α}
    (h : r c = some (x, c')) : (r >>= f) c = f x c' := by
  show (r c).bind (fun p => f p.1 p.2) = _
  rw [h]
  rfl

theorem taking_some {f : List Char → Option (α × List Char)} {cs rest : List Char} {x : α}
    (h : f cs = some (x, rest)) (b : Bool) : taking f ⟨cs, b⟩ = some (x, ⟨rest, b⟩) := by
  unfold taking
  rw [h]
  rfl

end

theorem peek_cons (c : Char) (cs : List Char) (b : Bool) :
    peek ⟨c :: cs, b⟩ = some (some c, ⟨c :: cs, b⟩) := rfl

theorem expect_eq (c : Char) (cs : List Char) (b : Bool) :
    expect c ⟨c :: cs, b⟩ = some ((), ⟨cs, b⟩) := by
  refine taking_some ?_ b
  dsimp only
  rw [if_pos rfl]

/-- A character that is no blank, no line end and no start of a comment. -/
def isSolid (c : Char) : Bool := !(c == '\n' || c == '\r' || c == '#' || isSpace c)

theorem isSpace_of_isSolid {c : Char} (h : isSolid c = true) : isSpace c = false := by
  simp only [isSolid, Bool.not_eq_true', Bool.or_eq_false_iff] at h
  exact h.2

theorem trivia_solid {c : Char} (hc : isSolid c = true) (cs : List Char) (b : Bool) :
    trivia ⟨c :: cs, b⟩ = some ((), ⟨c :: cs, b⟩) := by
  have hstay : triviaFrom false (c :: cs) = some (c :: cs) := by
    simp only [isSolid, Bool.not_eq_true', Bool.or_eq_false_iff, beq_eq_false_iff_ne] at hc
    obtain ⟨⟨⟨hfeed, hreturn⟩, hcomment⟩, hspace⟩ := hc
    unfold triviaFrom
    split
    · contradiction
    · rename_i heq
      exact absurd (List.cons.inj heq).1 hfeed
    · rename_i heq
      exact absurd (List.cons.inj heq).1 hreturn
    · contradiction
    · rename_i heq
      cases heq
      rw [if_neg hcomment, hspace, if_neg Bool.false_ne_true]
  refine taking_some ?_ b
  rw [hstay]
  rfl

theorem lineEnd_feed (cs : List Char) (b : Bool) :
    lineEnd ⟨'\n' :: cs, b⟩ = some ((), ⟨cs, b⟩) := rfl

/-- Blanks are passed over up to the next character. -/
theorem spaces_blank {c : Char} (hc : isSpace c = false) (cs : List Char) (b : Bool) :
    spaces ⟨' ' :: c :: cs, b⟩ = some ((), ⟨c :: cs, b⟩) := by
  refine taking_some ?_ b
  rw [List.dropWhile_cons_of_pos (by decide), List.dropWhile_cons_of_neg (by rw [hc]; decide)]

theorem spaces_none {c : Char} (hc : isSpace c = false) (cs : List Char) (b : Bool) :
    spaces ⟨c :: cs, b⟩ = some ((), ⟨c :: cs, b⟩) := by
  refine taking_some ?_ b
  rw [List.dropWhile_cons_of_neg (by rw [hc]; decide)]

/-! ## Strings -/

theorem hexDigit?_of_hexDigit {n : Nat} {d : Char} (h : HexDigit n d) : hexDigit? d = some n := by
  have hd := h.of_all (p := fun n d => hexDigit? d == some n) (by decide)
  exact beq_iff_eq.mp hd

theorem hexFrom_digits {ns : List Nat} {ds : List Char} (h : List.Forall₂ HexDigit ns ds) (n : Nat)
    (rest : List Char) :
    hexFrom ns.length n (ds ++ rest) = some (ns.foldl (fun n d => n * 16 + d) n, rest) := by
  induction h generalizing n with
  | nil => rfl
  | @cons m d ns ds hd _ ih =>
    rw [List.length_cons, List.cons_append, hexFrom, hexDigit?_of_hexDigit hd]
    exact ih (n * 16 + m)

theorem codePoint_digits {ns : List Nat} {ds : List Char} (h : List.Forall₂ HexDigit ns ds)
    {c : Char} (hc : ofHex ns = c.toNat) (rest : List Char) :
    codePoint ns.length (ds ++ rest) = some (c, rest) := by
  have hvalid : c.toNat.isValidChar := c.valid
  unfold codePoint
  rw [hexFrom_digits h]
  rw [ofHex] at hc
  simp only [hc, if_pos hvalid, Char.ofNat_toNat]

/-- What stands behind the backslash of an escape is read as its character. -/
theorem Spelled.cases {c : Char} {t : List Char} (h : Spelled c t) :
    (t = [c] ∧ c ≠ '"' ∧ c ≠ '\\' ∧ isText c = true) ∨
      ∃ u, t = '\\' :: u ∧ ∀ rest, escape (u ++ rest) = some (c, rest) := by
  cases h with
  | plain quote backslash text => exact .inl ⟨rfl, quote, backslash, text⟩
  | @short letter _ h =>
    refine .inr ⟨[letter], rfl, fun rest => ?_⟩
    simp only [shortEscapes, List.mem_cons, Prod.mk.injEq, List.not_mem_nil, or_false] at h
    rcases h with ⟨rfl, rfl⟩ | ⟨rfl, rfl⟩ | ⟨rfl, rfl⟩ | ⟨rfl, rfl⟩ | ⟨rfl, rfl⟩ | ⟨rfl, rfl⟩ |
      ⟨rfl, rfl⟩ | ⟨rfl, rfl⟩
    all_goals rfl
  | @code mark _ ns ds h digits value =>
    refine .inr ⟨mark :: ds, rfl, fun rest => ?_⟩
    have hread := codePoint_digits digits value rest
    simp only [codeMarks, List.mem_cons, Prod.mk.injEq, List.not_mem_nil, or_false] at h
    rcases h with ⟨rfl, hlen⟩ | ⟨rfl, hlen⟩ | ⟨rfl, hlen⟩
    all_goals
      rw [hlen] at hread
      exact hread

/-- The characters of a string are read up to and with the closing quote. -/
theorem basicFrom_spelledAll {cs u : List Char} (h : SpelledAll cs u) {fuel : Nat}
    (hf : u.length < fuel) (rest : List Char) :
    basicFrom fuel (u ++ '"' :: rest) = some (cs, rest) := by
  induction h generalizing fuel with
  | nil =>
    obtain ⟨n, rfl⟩ : ∃ n, fuel = n + 1 := ⟨fuel - 1, by omega⟩
    rfl
  | @cons c cs t u head tail ih =>
    obtain ⟨n, rfl⟩ : ∃ n, fuel = n + 1 := ⟨fuel - 1, by omega⟩
    rcases head.cases with ⟨rfl, hquote, hback, htext⟩ | ⟨v, rfl, hescape⟩
    · have hrest := @ih n (by simp at hf; omega)
      rw [List.append_assoc, List.singleton_append, basicFrom, if_neg hquote, if_neg hback,
        if_pos htext, hrest]
      rfl
    · have hrest := @ih n (by simp at hf; omega)
      rw [List.append_assoc, List.cons_append, basicFrom, if_neg (by decide), if_pos rfl, hescape]
      show (basicFrom n (u ++ '"' :: rest)).bind _ = _
      rw [hrest]
      rfl

/-- A string does not start with a quote of its own. -/
theorem SpelledAll.head_ne {cs u v : List Char} {c : Char} (h : SpelledAll cs u)
    (hu : u = c :: v) : c ≠ '"' := by
  cases h with
  | nil => cases hu
  | cons head tail =>
    rcases head.cases with ⟨rfl, hquote, -, -⟩ | ⟨w, rfl, -⟩
    · cases hu
      exact hquote
    · cases hu
      decide

/-! ## What follows a value -/

/-- The marks that may follow a value. -/
def closers : List Char := [' ', ',', ']', '\x7d', '\n']

/-- What may follow a value: nothing, a blank, a comma, a closing bracket or a line end. -/
def Ends (rest : List Char) : Prop := ∀ c ∈ rest.head?, c ∈ closers

theorem ends_cons {c : Char} (hc : c ∈ closers) (cs : List Char) : Ends (c :: cs) := by
  intro d hd
  cases hd
  exact hc

/-- The reader takes the text for `x` wherever a value may end behind it. -/
def ReadsValue {α : Type} (r : Reader α) (t : List Char) (x : α) : Prop :=
  ∀ rest b, Ends rest → r ⟨t ++ rest, b⟩ = some (x, ⟨rest, b⟩)

/-- A string in any spelling is read as the string. -/
theorem reads_string {s : String} {t : List Char} (h : StringText s t) : ReadsValue string t s := by
  obtain @⟨u, h⟩ := h
  intro rest b hrest
  have hbasic : ∀ fuel, u.length < fuel →
      basicFrom fuel (u ++ '"' :: rest) = some (s.toList, rest) :=
    fun fuel hf => basicFrom_spelledAll h hf rest
  have htext : '"' :: u ++ ['"'] ++ rest = '"' :: (u ++ '"' :: rest) := by simp
  rw [htext]
  refine taking_some ?_ b
  -- no three quotes stand at the start
  have hthree : ∀ cs, u ++ '"' :: rest ≠ '"' :: '"' :: cs := by
    intro cs hcs
    cases hu : u with
    | nil =>
      rw [hu, List.nil_append, List.cons.injEq] at hcs
      have := hrest '"' (by rw [hcs.2]; rfl)
      exact absurd this (by decide)
    | cons c v =>
      rw [hu, List.cons_append, List.cons.injEq] at hcs
      exact SpelledAll.head_ne h hu hcs.1
  have hlen : u.length < ('"' :: (u ++ '"' :: rest)).length + 1 := by
    simp only [List.length_cons, List.length_append]
    omega
  dsimp only
  split
  · rename_i heq
    exact absurd (List.cons.inj heq).2 (hthree _)
  · rename_i heq
    cases heq
  · rename_i heq
    cases heq
    rw [hbasic _ hlen]
    simp [String.ofList_toList]
  · rename_i heq
    cases heq
  · rename_i hno _
    exact absurd rfl (hno _)

/-! ## Printed strings -/

/-- A character as it is printed: quotes, backslashes and controls are escaped. -/
def escapeChar (c : Char) : List Char :=
  match shortEscapes.find? fun e => e.2 == c with
  | some e => ['\\', e.1]
  | none =>
    if isText c then [c]
    else ['\\', 'u', '0', '0', Nat.digitChar (c.toNat / 16), Nat.digitChar (c.toNat % 16)]

/-- A printed string, with its quotes. -/
def quote : String → List Char := Text.quotedBy escapeChar

/-- A printed character is one of its spellings. -/
theorem spelled_escapeChar (c : Char) : Spelled c (escapeChar c) := by
  unfold escapeChar
  split
  · rename_i e he
    have hc : e.2 = c := by simpa using List.find?_some he
    exact hc ▸ .short (List.mem_of_find?_eq_some he)
  · rename_i hnone
    have hne : ∀ e ∈ shortEscapes, e.2 ≠ c := by simpa using hnone
    split
    · rename_i htext
      exact .plain (hne ('"', '"') (by decide)).symm (hne ('\\', '\\') (by decide)).symm htext
    · rename_i htext
      have hcontrol : c.toNat < 0x80 := by
        simp only [isText, Bool.or_eq_true, Bool.and_eq_true, decide_eq_true_eq, not_or,
          not_and] at htext
        by_contra hlarge
        exact htext.2 (by omega) (by omega)
      have hzero : HexDigit 0 '0' := .inl rfl
      have hmark : ('u', 4) ∈ codeMarks := by decide
      refine @Spelled.code 'u' c [0, 0, c.toNat / 16, c.toNat % 16] _ hmark
        (.cons hzero (.cons hzero (.cons (hexDigit_digitChar (by omega))
          (.cons (hexDigit_digitChar (by omega)) .nil)))) ?_
      simp only [ofHex, List.foldl_cons, List.foldl_nil]
      omega

/-- A printed string is a text of that string. -/
theorem stringText_quote (s : String) : StringText s (quote s) :=
  Text.stringText_quotedBy spelled_escapeChar s

/-! ## Keys -/

/-- A key that needs no quotes. -/
structure IsBareKey (k : String) : Prop where
  filled : k.toList ≠ []
  bare : k.toList.all isBare = true

instance (k : String) : Decidable (IsBareKey k) :=
  decidable_of_iff (k.toList ≠ [] ∧ k.toList.all isBare = true)
    ⟨fun h => ⟨h.1, h.2⟩, fun h => ⟨h.filled, h.bare⟩⟩

theorem IsBareKey.head {k : String} (h : IsBareKey k) :
    ∃ c cs, k.toList = c :: cs ∧ isBare c = true := by
  obtain ⟨hfilled, hbare⟩ := h
  cases hk : k.toList with
  | nil => exact absurd hk hfilled
  | cons c cs =>
    rw [hk, List.all_cons, Bool.and_eq_true] at hbare
    exact ⟨c, cs, rfl, hbare.1⟩

/-- What a key without quotes is made of differs from every other mark. -/
theorem ne_of_isBare {c d : Char} (hc : isBare c = true) (hd : isBare d = false) : c ≠ d := by
  rintro rfl
  rw [hc] at hd
  cases hd

theorem isSolid_of_isBare {c : Char} (h : isBare c = true) : isSolid c = true := by
  have hfeed := ne_of_isBare h (by decide : isBare '\n' = false)
  have hreturn := ne_of_isBare h (by decide : isBare '\r' = false)
  have hcomment := ne_of_isBare h (by decide : isBare '#' = false)
  have hblank := ne_of_isBare h (by decide : isBare ' ' = false)
  have htab := ne_of_isBare h (by decide : isBare '\t' = false)
  simp [isSolid, isSpace, hfeed, hreturn, hcomment, hblank, htab]

theorem keyPart_bare {k : String} (h : IsBareKey k) {c : Char} (hc : isBare c = false)
    (cs : List Char) (b : Bool) :
    keyPart ⟨k.toList ++ c :: cs, b⟩ = some (k, ⟨c :: cs, b⟩) := by
  have hall : ∀ d ∈ k.toList, isBare d = true := List.all_eq_true.mp h.bare
  have htake : (k.toList ++ c :: cs).takeWhile isBare = k.toList := by
    rw [List.takeWhile_append_of_pos hall, List.takeWhile_cons_of_neg (by rw [hc]; decide),
      List.append_nil]
  have hdrop : (k.toList ++ c :: cs).dropWhile isBare = c :: cs := by
    rw [List.dropWhile_append_of_pos hall, List.dropWhile_cons_of_neg (by rw [hc]; decide)]
  obtain ⟨d, ds, hk, hd⟩ := h.head
  refine taking_some ?_ b
  dsimp only
  split
  · rename_i heq
    rw [hk] at heq
    exact absurd (List.cons.inj heq).1 (ne_of_isBare hd (by decide))
  · rename_i heq
    rw [hk] at heq
    exact absurd (List.cons.inj heq).1 (ne_of_isBare hd (by decide))
  · rw [htake, hdrop, if_neg (by simpa using h.filled), String.ofList_toList]

/-- The marks behind a key, with blanks before them or not. -/
inductive AfterKey : List Char → Char → List Char → Prop
  | equals (cs : List Char) : AfterKey (' ' :: '=' :: cs) '=' cs
  | bracket (cs : List Char) : AfterKey (']' :: cs) ']' cs

/-- A key without quotes is read up to the mark behind it. -/
theorem key_bare {k : String} (h : IsBareKey k) {gap cs : List Char} {c : Char}
    (hgap : AfterKey gap c cs) (b : Bool) :
    key ⟨k.toList ++ gap, b⟩ = some (⟨[], k⟩, ⟨c :: cs, b⟩) := by
  have hpart : keyPart ⟨k.toList ++ gap, b⟩ = some (k, ⟨gap, b⟩) := by
    cases hgap with
    | equals => exact keyPart_bare h (by decide) _ b
    | bracket => exact keyPart_bare h (by decide) _ b
  have hspaces : spaces ⟨gap, b⟩ = some ((), ⟨c :: cs, b⟩) := by
    cases hgap with
    | equals => exact spaces_blank (by decide) _ b
    | bracket => exact spaces_none (by decide) _ b
  have hdot : some c ≠ some '.' := by
    cases hgap with
    | equals => decide
    | bracket => decide
  have hfrom : keyFrom (gap.length + 1) k ⟨gap, b⟩ = some (⟨[], k⟩, ⟨c :: cs, b⟩) := by
    rw [keyFrom, bind_some hspaces, bind_some (peek_cons c cs b), if_neg hdot]
    rfl
  unfold key
  rw [bind_some hpart, bind_some (r := get) (x := ⟨gap, b⟩) rfl, bind_some hfrom]
  show some (_, Cursor.mk (c :: cs) (b || _)) = _
  rw [show Key.isOverlong ⟨[], k⟩ = false from rfl, Bool.or_false]

end Shorthand.Toml
