import Shorthand.Proofs.LineBreaks
import Shorthand.Proofs.TomlValues

/-!
# Documents of TOML

A document of headers and entries, each on a line of its own, denotes the tables that its headers
name, with the entries below them:

    parse (linesOf ts) = tableOf sections        where ts are the lines of the sections
                                                                                 (parse_linesOf)

The lines are read first (`statements?_linesOf`), and the tables are built from them one section
after another (`foldlM_sections`).
-/

namespace Shorthand.Toml

open Table (insertAll Fresh)

/-! ## Statements -/

/-- The line of a statement: a header, or an entry. -/
inductive StatementText : List Char → Statement → Prop
  | header {k : String} (bare : IsBareKey k) :
      StatementText ('[' :: k.toList ++ [']']) (.table ⟨[], k⟩)
  | entry {t : List Char} {e : String × Value} (h : EntryText (value maxDepth) t e) :
      StatementText t (.entry ⟨[], e.1⟩ e.2)

section
variable {t : List Char} {s : Statement}

theorem StatementText.head (h : StatementText t s) :
    ∃ c u, t = c :: u ∧ isSolid c = true ∧ c ≠ '\uFEFF' := by
  cases h with
  | header => exact ⟨'[', _, rfl, by decide, by decide⟩
  | entry h =>
    obtain ⟨c, u, rfl, hc⟩ := h.head
    exact ⟨c, u, rfl, isSolid_of_isBare hc, ne_of_isBare hc (by decide)⟩

theorem readsValue_statement (h : StatementText t s) : ReadsValue statement t s := by
  intro rest b hrest
  unfold statement
  cases h with
  | @header k bare =>
    have htext : '[' :: k.toList ++ [']'] ++ rest = '[' :: (k.toList ++ ']' :: rest) := by simp
    obtain ⟨c, cs, hk, hc⟩ := bare.head
    have hopen : some c ≠ some '[' := fun h => ne_of_isBare hc (by decide) (Option.some.inj h)
    have hspace := isSpace_of_isSolid (isSolid_of_isBare hc)
    have hkey : headerKey ⟨k.toList ++ ']' :: rest, b⟩ = some (⟨[], k⟩, ⟨']' :: rest, b⟩) := by
      have hspaces : spaces ⟨k.toList ++ ']' :: rest, b⟩ =
          some ((), ⟨k.toList ++ ']' :: rest, b⟩) := by
        rw [hk]
        exact spaces_none hspace _ b
      unfold headerKey
      rw [bind_some hspaces]
      exact key_bare bare (.bracket rest) b
    have hpeek : peek ⟨k.toList ++ ']' :: rest, b⟩ =
        some (some c, ⟨k.toList ++ ']' :: rest, b⟩) := by
      rw [hk]
      rfl
    rw [htext, bind_some (peek_cons _ _ b), if_pos rfl]
    unfold header
    rw [bind_some (expect_eq _ _ b), bind_some hpeek, if_neg hopen, bind_some hkey,
      bind_some (expect_eq _ _ b)]
    rfl
  | entry h =>
    have hread := readsValue_entry h rest b hrest
    obtain ⟨c, u, rfl, hc⟩ := h.head
    have hopen : some c ≠ some '[' := fun h => ne_of_isBare hc (by decide) (Option.some.inj h)
    rw [List.cons_append] at hread ⊢
    rw [bind_some (peek_cons _ _ b), if_neg hopen, bind_some hread]
    rfl

end

/-- Statements are read line by line. -/
theorem statementsFrom_linesOf {ts : List (List Char)} {ss : List Statement}
    (h : List.Forall₂ StatementText ts ss) {fuel : Nat} (hf : ts.length < fuel) (b : Bool) :
    statementsFrom fuel ⟨Text.linesOf ts, b⟩ = some (ss.map (·, b), ⟨[], b⟩) := by
  induction h generalizing fuel with
  | nil =>
    obtain ⟨n, rfl⟩ : ∃ n, fuel = n + 1 := ⟨fuel - 1, by omega⟩
    rfl
  | @cons t s ts ss hline htail ih =>
    obtain ⟨n, rfl⟩ : ∃ n, fuel = n + 1 := ⟨fuel - 1, by omega⟩
    have htext : Text.linesOf (t :: ts) = t ++ '\n' :: Text.linesOf ts := by
      simp [Text.linesOf]
    have hread := readsValue_statement hline ('\n' :: Text.linesOf ts) b (ends_cons (by decide) _)
    have hrest := @ih n (by rw [List.length_cons] at hf; omega)
    obtain ⟨c, u, rfl, hsolid, -⟩ := hline.head
    rw [List.cons_append] at htext hread
    rw [htext, statementsFrom, bind_some (trivia_solid hsolid _ b), bind_some (peek_cons c _ b),
      if_neg (by simp), bind_some hread, bind_some (lineEnd_feed _ b),
      bind_some (r := get) rfl, bind_some hrest]
    rfl

theorem statements?_linesOf {ts : List (List Char)} {ss : List Statement}
    (h : List.Forall₂ StatementText ts ss) :
    statements? (Text.linesOf ts) = some (ss.map (·, false)) := by
  have hlen : ts.length < (Text.linesOf ts).length + 1 := by
    have := Text.length_le_length_linesOf ts
    omega
  have hmark : ∀ rest, Text.linesOf ts ≠ '\uFEFF' :: rest := by
    intro rest heq
    cases h with
    | nil => cases heq
    | cons hline _ =>
      obtain ⟨c, u, rfl, -, hc⟩ := hline.head
      exact hc (List.cons.inj heq).1
  unfold statements?
  split
  · rename_i heq
    exact absurd heq (hmark _)
  · dsimp only
    rw [statementsFrom_linesOf h hlen]
    rfl

/-! ## Building -/

/-- A header with the entries below it. -/
abbrev Section := String × List (String × Value)

/-- The statements of a section. -/
def Section.statements (s : Section) : List Statement :=
  .table ⟨[], s.1⟩ :: s.2.map fun e => .entry ⟨[], e.1⟩ e.2

/-- The table that a header opens. -/
def Section.entry (s : Section) : String × Value := (s.1, .table .header (tableOf s.2))

/-- Entries go into the open table. -/
theorem foldlM_entries (b : Building) {es : List (String × Value)} (h : Fresh es b.current) :
    ((es.map fun e => Statement.entry ⟨[], e.1⟩ e.2).map (·, false)).foldlM Building.step b =
      .ok { b with current := insertAll es b.current } := by
  induction es generalizing b with
  | nil => rfl
  | cons e es ih =>
    have hstep : b.step (.entry ⟨[], e.1⟩ e.2, false) =
        .ok { b with current := b.current.insert e.1 e.2 } := by
      have hstep? : b.step? (.entry ⟨[], e.1⟩ e.2) =
          some { b with current := b.current.insert e.1 e.2 } := by
        rw [Building.step?, addEntry?_fresh h.head]
        rfl
      rw [Building.step, if_neg Bool.false_ne_true, hstep?]
    rw [List.map_cons, List.map_cons, List.foldlM_cons, hstep]
    exact ih { b with current := b.current.insert e.1 e.2 } (h.tail e.2)

/-- A section is put beside the finished tables. -/
theorem foldlM_section {b : Building} {root : Table} (hroot : b.finish? = some root) {s : Section}
    (hnew : root.lookup s.1 = none) (hnodup : (s.2.map Prod.fst).Nodup) :
    ∃ b', (s.statements.map (·, false)).foldlM Building.step b = .ok b' ∧
      b'.finish? = some (root.insert s.1 s.entry.2) := by
  have hopen : b.step (.table ⟨[], s.1⟩, false) = .ok ⟨root, some ⟨⟨[], s.1⟩, false⟩, []⟩ := by
    unfold Building.step Building.step?
    rw [hroot]
    simp [openTable?, lookUp?, hnew]
  refine ⟨⟨root, some ⟨⟨[], s.1⟩, false⟩, tableOf s.2⟩, ?_, rfl⟩
  rw [Section.statements, List.map_cons, List.foldlM_cons, hopen]
  exact foldlM_entries ⟨root, some ⟨⟨[], s.1⟩, false⟩, []⟩ (Table.fresh_nil hnodup)

theorem foldlM_sections {sections : List Section} {b : Building} {root : Table}
    (hroot : b.finish? = some root) (hnew : Fresh (sections.map Section.entry) root)
    (hnodup : ∀ s ∈ sections, (s.2.map Prod.fst).Nodup) :
    ∃ b', ((sections.flatMap Section.statements).map (·, false)).foldlM Building.step b = .ok b' ∧
      b'.finish? = some (insertAll (sections.map Section.entry) root) := by
  induction sections generalizing b root with
  | nil => exact ⟨b, rfl, hroot⟩
  | cons s sections ih =>
    obtain ⟨b₁, hfirst, hroot₁⟩ := foldlM_section hroot hnew.head (hnodup s List.mem_cons_self)
    obtain ⟨b₂, hrest, hroot₂⟩ := ih hroot₁ (hnew.tail s.entry.2)
      fun s hs => hnodup s (List.mem_cons_of_mem _ hs)
    refine ⟨b₂, ?_, hroot₂⟩
    rw [List.flatMap_cons, List.map_append, List.foldlM_append, hfirst]
    exact hrest

/-- **Documents.**  Lines that are the headers and entries of sections denote their tables. -/
theorem parse_linesOf {sections : List Section} {ts : List (List Char)}
    (h : List.Forall₂ StatementText ts (sections.flatMap Section.statements))
    (hnames : (sections.map Prod.fst).Nodup)
    (hnodup : ∀ s ∈ sections, (s.2.map Prod.fst).Nodup) :
    parse (Text.linesOf ts) = .ok (tableOf (sections.map Section.entry)) := by
  have hfresh : Fresh (sections.map Section.entry) [] := by
    refine Table.fresh_nil ?_
    rw [List.map_map]
    exact hnames
  obtain ⟨b, hfold, hroot⟩ := @foldlM_sections sections ⟨[], none, []⟩ [] rfl hfresh hnodup
  unfold parse
  rw [statements?_linesOf h]
  dsimp only [build]
  rw [hfold]
  dsimp only [bind, Except.bind]
  rw [hroot]
  rfl

end Shorthand.Toml
