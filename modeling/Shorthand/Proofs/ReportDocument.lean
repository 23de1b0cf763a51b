import Shorthand.Proofs.JsonBrackets
import Shorthand.Report.Render

/-!
# Report documents there and back

What is printed is one of the texts that the readers take: a printed string spells its string, and
printed arrays and objects are rows of items and members with blanks between them.  So a report is
read back from its document, whatever characters its texts are made of:

    ofDocument (r.render .json) = .ok r                                       (ofDocument_render)

The argument goes up from characters to strings, to the four members of a query, to the list of
queries and to the report; each step says what is read, with the rest of the text left open.
-/

namespace Shorthand

namespace Json

/-! ## Printed values -/

theorem blanks_newline (depth : Nat) : Blanks (newline depth) := by
  intro c hc
  rcases List.mem_cons.mp hc with rfl | hc
  · exact .inr (.inl rfl)
  · exact .inl (List.mem_replicate.mp hc).2

/-- Printed items are a row. -/
theorem row_pretty {α : Type} {Item : α → List Char → Prop} (toValue : α → Value) (depth : Nat)
    (h : ∀ x, Item x ((toValue x).pretty depth)) (x : α) (xs : List α) {vs : List Char}
    (hv : Blanks vs) :
    Row Item (x :: xs) (newline depth ++ (toValue x).pretty depth ++
      (prettyItems depth (xs.map toValue) ++ vs)) := by
  induction xs generalizing x with
  | nil => exact .last (blanks_newline depth) (h x) hv
  | cons y ys ih =>
    have := Row.more (blanks_newline depth) (h x) blanks_nil (ih y)
    rw [List.map_cons, prettyItems]
    simpa only [List.append_assoc, List.append_nil, List.cons_append] using this

/-- A printed array is an array of its items. -/
theorem arrayText_pretty {α : Type} {Item : α → List Char → Prop} (toValue : α → Value)
    (depth : Nat) (h : ∀ x, Item x ((toValue x).pretty (depth + 1))) (xs : List α) :
    ArrayText Item xs ((Value.array (xs.map toValue)).pretty depth) := by
  cases xs with
  | nil => exact .empty blanks_nil
  | cons x xs =>
    have := ArrayText.row (row_pretty toValue (depth + 1) h x xs (blanks_newline depth))
    rw [List.map_cons, Value.pretty]
    simpa only [List.append_assoc, List.cons_append] using this

section
variable {σ : Type} {step : σ → String → Reader σ}

/-- What `step` makes out of `a` on its way over printed members. -/
inductive Steps (step : σ → String → Reader σ) (depth : Nat) :
    σ → List (String × Value) → σ → Prop
  | nil (a : σ) : Steps step depth a [] a
  | cons {a b c : σ} {key : String} {v : Value} {ms : List (String × Value)}
      (head : Reads (step a key) (':' :: ' ' :: v.pretty depth) b)
      (tail : Steps step depth b ms c) :
      Steps step depth a ((key, v) :: ms) c

theorem memberRow_pretty {depth : Nat} {a b c : σ} {key : String} {v : Value}
    {ms : List (String × Value)} (head : Reads (step a key) (':' :: ' ' :: v.pretty depth) b)
    (tail : Steps step depth b ms c) {vs : List Char} (hv : Blanks vs) :
    MemberRow step a (newline depth ++ quote key ++ (':' :: ' ' :: v.pretty depth) ++
      (prettyMembers depth ms ++ vs)) c := by
  induction tail generalizing a key v with
  | nil b => exact .last (blanks_newline depth) (stringText_quote key) head.readsValue hv
  | cons next tail ih =>
    have := MemberRow.more (blanks_newline depth) (stringText_quote key) head.readsValue blanks_nil
      (ih next)
    rw [prettyMembers]
    simpa only [List.append_assoc, List.append_nil, List.cons_append, List.nil_append] using this

/-- A printed object is read, behind its brace, member by member. -/
theorem reads_members_pretty {depth : Nat} {a b : σ} {m : String × Value}
    {ms : List (String × Value)} (h : Steps step (depth + 1) a (m :: ms) b) :
    ∃ t, (Value.object (m :: ms)).pretty depth = '\x7b' :: t ∧ Reads (members step a) t b := by
  cases h with
  | cons head tail =>
    refine ⟨_, ?_, reads_members (memberRow_pretty head tail (blanks_newline depth))⟩
    rw [Value.pretty]
    simp only [List.append_assoc, List.cons_append, List.nil_append]

end

/-- A printed member whose field has not been read gives that field its value. -/
theorem reads_field {α β : Type} {r : Reader α} {t : List Char} {x : α} (h : Reads r (' ' :: t) x)
    (field : String) (set : Option α → β) :
    Reads (once field none r >>= fun y => pure (set y)) (':' :: ' ' :: t) (set (some x)) := by
  intro rest
  rw [bind_ok (reads_once h field rest)]
  rfl

theorem blanks_blank : Blanks [' '] := by
  intro c hc
  exact .inl (List.mem_singleton.mp hc)

end Json

/-! ## Queries and reports -/

open Json (Reads Steps Value)

theorem ExpandedQuery.reads_name (name : Option String) (depth : Nat) :
    Reads Json.text? (' ' :: (name.elim Value.null Value.string).pretty depth) name := by
  cases name with
  | none => exact Json.reads_text?_none Json.blanks_blank
  | some s => exact Json.reads_text?_some Json.blanks_blank (Json.stringText_quote s)

theorem reads_printed_string (s : String) (depth : Nat) :
    Reads Json.text (' ' :: (Value.string s).pretty depth) s :=
  Json.reads_text Json.blanks_blank (Json.stringText_quote s)

theorem ExpandedQuery.steps (q : ExpandedQuery) (depth : Nat) :
    Steps ExpandedQuery.member depth ⟨none, none, none, none⟩
      [ ("name", q.name.elim .null .string), ("original", .string q.text),
        ("expanded", .string q.expanded), ("changed", .boolean q.changed) ]
      ⟨some q.name, some q.text, some q.expanded, some q.changed⟩ := by
  refine .cons (Json.reads_field (reads_name q.name depth) "name" _) ?_
  refine .cons (Json.reads_field (reads_printed_string q.text depth) "original" _) ?_
  refine .cons (Json.reads_field (reads_printed_string q.expanded depth) "expanded" _) ?_
  refine .cons (Json.reads_field ?_ "changed" _) (.nil _)
  exact Json.reads_truth Json.blanks_blank q.changed

/-- A printed query is read as that query. -/
theorem ExpandedQuery.readsItem (q : ExpandedQuery) (depth : Nat) :
    Json.ReadsItem ExpandedQuery.reader (q.toValue.pretty depth) q := by
  obtain ⟨t, ht, hmembers⟩ := Json.reads_members_pretty (q.steps (depth + 1))
  have hobject : Reads ExpandedQuery.ofObject t q := by
    intro rest
    unfold ExpandedQuery.ofObject
    rw [Json.bind_ok (hmembers rest)]
    rfl
  refine ⟨?_, '\x7b', t, ht, by decide, by decide⟩
  rw [ExpandedQuery.toValue, ht]
  exact (Json.reads_record "ExpandedQuery" _ Json.blanks_nil hobject).readsValue

theorem Report.steps (r : Report) (depth : Nat) :
    Steps Report.member depth ⟨none, none⟩
      [ ("generated_at", .string r.generatedAt),
        ("queries", .array (r.queries.map (·.toValue))) ]
      ⟨some r.generatedAt, some r.queries⟩ := by
  have hqueries : Reads (Json.listOf ExpandedQuery.reader)
      (' ' :: (Value.array (r.queries.map (·.toValue))).pretty depth) r.queries :=
    Json.reads_listOf Json.blanks_blank
      (Json.arrayText_pretty (·.toValue) depth (fun q => q.readsItem (depth + 1)) r.queries)
  refine .cons (Json.reads_field (reads_printed_string r.generatedAt depth) "generated_at" _) ?_
  exact .cons (Json.reads_field hqueries "queries" _) (.nil _)

theorem Report.reads_document (r : Report) : Reads Report.reader r.toDocument r := by
  obtain ⟨t, ht, hmembers⟩ := Json.reads_members_pretty (r.steps 1)
  have hobject : Reads Report.ofObject t r := by
    intro rest
    unfold Report.ofObject
    rw [Json.bind_ok (hmembers rest)]
    rfl
  rw [Report.toDocument, Value.document, Report.toValue, ht]
  exact Json.reads_record "ExpansionResult" _ Json.blanks_nil hobject

/-! ## Top theorem -/

/-- A report is read back from its document as it was: its time, its queries in their order, and
which of them have no name; so as many of them count as changed. -/
theorem Report.ofDocument_render (r : Report) :
    Report.ofDocument (r.render .json) = .ok r ∧
      (Report.ofDocument (r.render .json)).map Report.changedCount = .ok r.changedCount := by
  have hread := Json.readAll_of_reads r.reads_document Json.blanks_nil
  rw [List.append_nil] at hread
  have hreport : Report.ofDocument (r.render .json) = .ok r := hread
  rw [hreport]
  exact ⟨rfl, rfl⟩

end Shorthand
