import Shorthand.Batch.File
import Shorthand.Proofs.References
import Shorthand.Proofs.TomlDocuments

/-!
# Batch documents there and back

A batch is written as the document of its sections: a header for each, and below it a line for each
field that is present.  Queries stand in an array, each a table in braces, and strings are quoted in
any of the ways in which they may be spelled.

    ofText env (document quote b) = b        where env defines no name that the document refers to
                                                                              (ofText_document)

A reference can begin in one string and end in another, so the environment is asked about the
document as a whole and not about its strings.
-/

namespace Shorthand

open Toml (Value Table StringText StatementText EntryText ReadsItem IsBareKey tableOf listed)

/-! ## Fields -/

/-- Fields in the order in which they are written; some may have no value. -/
abbrev Fields (α : Type) := List (String × Option α)

/-- The fields that are present. -/
def present {α : Type} (fields : Fields α) : List (String × α) :=
  fields.filterMap fun f => f.2.map (f.1, ·)

/-- The fields of a query. -/
def Query.fields (q : Query) : Fields String := [("name", q.name), ("query", some q.text)]

/-- What a field of a batch can hold. -/
inductive Datum where
  | text (s : String)
  | truth (b : Bool)
  | texts (ss : List String)
  | queries (qs : List Query)

def BatchInfo.fields (i : BatchInfo) : Fields Datum :=
  [("name", some (.text i.name)), ("description", i.description.map .text)]

def BatchInput.fields (i : BatchInput) : Fields Datum :=
  [("path", i.path.map .text), ("queries", some (.queries i.queries))]

def BatchOutput.fields (o : BatchOutput) : Fields Datum :=
  [ ("path", some (.text o.path)), ("formats", some (.texts o.formats)),
    ("basename", o.basename.map .text) ]

def BatchLogging.fields (l : BatchLogging) : Fields Datum :=
  [("level", l.level.map .text), ("json", l.json.map .truth)]

/-- The sections of a batch. -/
def Batch.sections (b : Batch) : Fields (Fields Datum) :=
  [ ("batch", some b.info.fields), ("input", some b.input.fields),
    ("output", some b.output.fields), ("logging", b.logging.map BatchLogging.fields) ]

/-! ## Text -/

section
variable (quote : String → List Char)

/-- The line of a field. -/
def fieldLine (key : String) (t : List Char) : List Char := key.toList ++ ' ' :: '=' :: ' ' :: t

/-- A query as a table in braces. -/
def Query.inline (q : Query) : List Char :=
  '\x7b' :: listed ((present q.fields).map fun f => fieldLine f.1 (quote f.2)) ++ ['\x7d']

/-- What a field holds, in characters. -/
def Datum.chars : Datum → List Char
  | .text s => quote s
  | .truth b => if b then "true".toList else "false".toList
  | .texts ss => '[' :: listed (ss.map quote) ++ [']']
  | .queries qs => '[' :: listed (qs.map (Query.inline quote)) ++ [']']

/-- The lines of a section. -/
def sectionLines (s : String × Fields Datum) : List (List Char) :=
  ('[' :: s.1.toList ++ [']']) :: (present s.2).map fun f => fieldLine f.1 (f.2.chars quote)

/-- The document of a batch. -/
def Batch.document (b : Batch) : List Char :=
  Text.linesOf ((present b.sections).flatMap (sectionLines quote))

end

/-! ## Keys -/

/-- Keys that differ from one another and need no quotes. -/
structure WellKeyed (keys : List String) : Prop where
  nodup : keys.Nodup
  bare : ∀ k ∈ keys, IsBareKey k

theorem WellKeyed.sublist {ks keys : List String} (h : WellKeyed keys) (hs : ks.Sublist keys) :
    WellKeyed ks := ⟨hs.nodup h.nodup, fun k hk => h.bare k (hs.subset hk)⟩

theorem keys_present_sublist {α : Type} (fields : Fields α) :
    ((present fields).map Prod.fst).Sublist (fields.map Prod.fst) := by
  induction fields with
  | nil => exact .slnil
  | cons f fields ih =>
    obtain ⟨k, x?⟩ := f
    cases x? with
    | none => exact ih.cons k
    | some x => exact ih.cons_cons k

theorem Query.wellKeyed (q : Query) : WellKeyed (q.fields.map Prod.fst) :=
  have h : WellKeyed ["name", "query"] := ⟨by decide, by decide⟩
  h

theorem Batch.wellKeyed_names (b : Batch) : WellKeyed (b.sections.map Prod.fst) :=
  have h : WellKeyed ["batch", "input", "output", "logging"] := ⟨by decide, by decide⟩
  h

theorem Batch.wellKeyed {b : Batch} {s : String × Fields Datum} (hs : s ∈ present b.sections) :
    WellKeyed (s.2.map Prod.fst) := by
  have hinfo : WellKeyed ["name", "description"] := ⟨by decide, by decide⟩
  have hinput : WellKeyed ["path", "queries"] := ⟨by decide, by decide⟩
  have houtput : WellKeyed ["path", "formats", "basename"] := ⟨by decide, by decide⟩
  have hlogging : WellKeyed ["level", "json"] := ⟨by decide, by decide⟩
  obtain ⟨f, hf, hfs⟩ := List.mem_filterMap.mp hs
  obtain ⟨fields, hfields, rfl⟩ := Option.map_eq_some_iff.mp hfs
  simp only [sections, List.mem_cons, List.not_mem_nil, or_false] at hf
  rcases hf with rfl | rfl | rfl | rfl
  · cases hfields
    exact hinfo
  · cases hfields
    exact hinput
  · cases hfields
    exact houtput
  · obtain ⟨l, -, rfl⟩ := Option.map_eq_some_iff.mp hfields
    exact hlogging

/-! ## Values -/

/-- The table of the fields that are present. -/
def fieldTable {α : Type} (encode : α → Value) (fields : Fields α) : Table :=
  tableOf ((present fields).map fun f => (f.1, encode f.2))

/-- A query as a value. -/
def Query.value (q : Query) : Value := .table .inline (fieldTable .string q.fields)

/-- What a field holds, as a value. -/
def Datum.value : Datum → Value
  | .text s => .string s
  | .truth b => .boolean b
  | .texts ss => .array false (ss.map .string)
  | .queries qs => .array false (qs.map Query.value)

/-- A section with the values of its fields. -/
def sectionValues (s : String × Fields Datum) : Toml.Section :=
  (s.1, (present s.2).map fun f => (f.1, f.2.value))

/-- A section as a value. -/
def sectionValue (fields : Fields Datum) : Value := .table .header (fieldTable Datum.value fields)

section
variable {quote : String → List Char} (hquote : ∀ s, StringText s (quote s))
include hquote

theorem readsItem_query (room : Nat) (q : Query) :
    ReadsItem (Toml.value (room + 1)) (q.inline quote) q.value := by
  have hkeys := q.wellKeyed.sublist (keys_present_sublist q.fields)
  have hstring : ∀ s, ReadsItem (Toml.value room) (quote s) (.string s) := by
    intro s
    cases room with
    | zero => exact Toml.readsItem_string none (hquote s)
    | succ room => exact Toml.readsItem_string _ (hquote s)
  refine @Toml.readsItem_table (Toml.value room) _ _ ?_ ?_
  · rw [List.forall₂_map_left_iff, List.forall₂_map_right_iff, List.forall₂_same]
    exact fun f hf => .pair (hkeys.bare _ (List.mem_map_of_mem hf)) (hstring f.2)
  · rw [List.map_map]
    exact hkeys.nodup

/-- What a field holds is read where two more brackets may be opened. -/
theorem readsItem_datum (room : Nat) (d : Datum) :
    ReadsItem (Toml.value (room + 2)) (d.chars quote) d.value := by
  cases d with
  | text s => exact Toml.readsItem_string _ (hquote s)
  | truth x => exact Toml.readsItem_boolean _ x
  | texts ss =>
    refine Toml.readsItem_array ?_
    rw [List.forall₂_map_left_iff, List.forall₂_map_right_iff, List.forall₂_same]
    exact fun s _ => Toml.readsItem_string _ (hquote s)
  | queries qs =>
    refine Toml.readsItem_array ?_
    rw [List.forall₂_map_left_iff, List.forall₂_map_right_iff, List.forall₂_same]
    exact fun q _ => readsItem_query hquote room q

/-- The lines of a section are its header and its entries. -/
theorem statementText_sectionLines {s : String × Fields Datum} (hname : IsBareKey s.1)
    (hkeys : WellKeyed (s.2.map Prod.fst)) :
    List.Forall₂ StatementText (sectionLines quote s) (sectionValues s).statements := by
  have hpresent := hkeys.sublist (keys_present_sublist s.2)
  refine .cons (.header hname) ?_
  rw [sectionValues, List.map_map, List.forall₂_map_left_iff, List.forall₂_map_right_iff,
    List.forall₂_same]
  intro f hf
  exact .entry (.pair (hpresent.bare _ (List.mem_map_of_mem hf)) (readsItem_datum hquote _ f.2))

theorem statementText_sections {sections : List (String × Fields Datum)}
    (h : ∀ s ∈ sections, IsBareKey s.1 ∧ WellKeyed (s.2.map Prod.fst)) :
    List.Forall₂ StatementText (sections.flatMap (sectionLines quote))
      ((sections.map sectionValues).flatMap Toml.Section.statements) := by
  induction sections with
  | nil => exact .nil
  | cons s sections ih =>
    obtain ⟨⟨hname, hkeys⟩, hrest⟩ := List.forall_mem_cons.mp h
    exact List.rel_append (statementText_sectionLines hquote hname hkeys) (ih hrest)

/-- The document of a batch denotes the tables of its sections. -/
theorem Batch.parse_document (b : Batch) :
    Toml.parse (b.document quote) = .ok (fieldTable sectionValue b.sections) := by
  have hnames := b.wellKeyed_names.sublist (keys_present_sublist b.sections)
  have hparse : Toml.parse (b.document quote) =
      .ok (tableOf (((present b.sections).map sectionValues).map Toml.Section.entry)) := by
    refine Toml.parse_linesOf (statementText_sections hquote fun s hs => ?_) ?_ fun s hs => ?_
    · exact ⟨hnames.bare _ (List.mem_map_of_mem hs), wellKeyed hs⟩
    · rw [List.map_map]
      exact hnames.nodup
    · obtain ⟨s', hs', rfl⟩ := List.mem_map.mp hs
      rw [sectionValues, List.map_map]
      exact ((wellKeyed hs').sublist (keys_present_sublist s'.2)).nodup
  rw [hparse, List.map_map]
  rfl

end

/-! ## Decoding -/

/-- Data that can be decoded is as expected. -/
theorem field_eq_ok {α : Type} (key : String) {decode : Toml.Decoder α} {v : Value} {x : α}
    (h : decode v = .ok x) : (Toml.field key decode).2 v = .ok () := by
  show (decode v).map _ = _
  rw [h]
  rfl

section
variable {α : Type} {t : Table} {key : String} {decode : Toml.Decoder α} {encode : α → Value}
  (hdecode : ∀ x, decode (encode x) = .ok x)
include hdecode

theorem required_eq {x : α} (h : t.lookup key = some (encode x)) :
    Toml.required t key decode = .ok x := by
  rw [Toml.required, h]
  exact hdecode x

theorem optional_eq {x? : Option α} (h : t.lookup key = x?.map encode) :
    Toml.optional t key decode = .ok x? := by
  rw [Toml.optional, h]
  cases x? with
  | none => rfl
  | some x =>
    show (decode (encode x)).map some = _
    rw [hdecode]
    rfl

theorem listOf_eq (xs : List α) : Toml.listOf decode (.array false (xs.map encode)) = .ok xs := by
  show (xs.map encode).mapM decode = _
  induction xs with
  | nil => rfl
  | cons x xs ih =>
    rw [List.map_cons, List.mapM_cons, hdecode, ih]
    rfl

end

section
variable {α : Type} (encode : α → Value)

/-- Under the key of a field stands its value, if it has one. -/
theorem lookup_fieldTable {fields : Fields α} (h : (fields.map Prod.fst).Nodup) (key : String) :
    (fieldTable encode fields).lookup key = ((fields.lookup key).join).map encode := by
  have hkeys : (((present fields).map fun f => (f.1, encode f.2)).map Prod.fst).Nodup := by
    rw [List.map_map]
    exact (keys_present_sublist fields).nodup h
  rw [fieldTable, Toml.lookup_tableOf hkeys]
  clear hkeys
  induction fields with
  | nil => rfl
  | cons f fields ih =>
    obtain ⟨k, x?⟩ := f
    obtain ⟨hnew, hnodup⟩ := List.nodup_cons.mp h
    have hrest := ih hnodup
    rw [List.lookup_cons]
    by_cases hk : key = k
    · subst hk
      have hbeq : (key == key) = true := by simp
      rw [Toml.lookup_eq_none hnew] at hrest
      rw [hbeq]
      cases x? with
      | none => exact hrest
      | some x =>
        show List.lookup key ((key, encode x) :: _) = _
        rw [List.lookup_cons, hbeq]
        rfl
    · have hbeq : (key == k) = false := by simpa using hk
      rw [hbeq, ← hrest]
      cases x? with
      | none => rfl
      | some x =>
        show List.lookup key ((k, encode x) :: _) = _
        rw [List.lookup_cons, hbeq]
        rfl

/-- A table is as expected where each of its fields is. -/
theorem visit_fieldTable {fields : Fields α} {expected : List Toml.Expectation}
    (h : ∀ f ∈ fields, ∀ x ∈ f.2, ∃ e, expected.find? (fun e => e.1 == f.1) = some e ∧
      e.2 (encode x) = .ok ()) :
    Toml.visit expected (fieldTable encode fields) = .ok () := by
  have hall : ∀ t : Table, (∀ e ∈ t, ∃ f ∈ fields, ∃ x ∈ f.2, e = (f.1, encode x)) →
      Toml.visit expected t = .ok () := by
    intro t ht
    induction t with
    | nil => rfl
    | cons e t ih =>
      obtain ⟨⟨f, hf, x, hx, rfl⟩, hrest⟩ := List.forall_mem_cons.mp ht
      obtain ⟨e, hfind, hok⟩ := h f hf x hx
      rw [Toml.visit, List.forM_eq_forM, List.forM_cons]
      dsimp only
      rw [hfind]
      dsimp only
      rw [hok]
      exact ih hrest
  refine hall _ fun e he => ?_
  obtain ⟨f, hf, rfl⟩ := List.mem_map.mp (Toml.mem_of_mem_tableOf he)
  obtain ⟨g, hg, hgf⟩ := List.mem_filterMap.mp hf
  obtain ⟨x, hx, rfl⟩ := Option.map_eq_some_iff.mp hgf
  exact ⟨g, hg, x, hx, rfl⟩

end

theorem Query.decode_value (q : Query) : Query.decode q.value = .ok q := by
  have hfind := lookup_fieldTable Value.string q.wellKeyed.nodup
  have hvisit : Toml.visit [Toml.field "name" Toml.text, Toml.field "query" Toml.text]
      (fieldTable Value.string q.fields) = .ok () := by
    refine visit_fieldTable _ fun f hf x hx => ?_
    simp only [fields, List.mem_cons, List.not_mem_nil, or_false] at hf
    rcases hf with rfl | rfl
    · exact ⟨_, rfl, rfl⟩
    · exact ⟨_, rfl, rfl⟩
  have hname := @optional_eq _ _ "name" Toml.text Value.string (fun _ => rfl) q.name (hfind "name")
  have hquery := @required_eq _ _ "query" Toml.text Value.string (fun _ => rfl) q.text
    (hfind "query")
  unfold Query.decode Query.value
  rw [Toml.record]
  rw [hvisit, hname, hquery]
  rfl

theorem BatchInfo.decode_fields (i : BatchInfo) :
    BatchInfo.decode (sectionValue i.fields) = .ok i := by
  have hfind := @lookup_fieldTable _ Datum.value i.fields (by simp [fields])
  have hvisit : Toml.visit [Toml.field "name" Toml.text, Toml.field "description" Toml.text]
      (fieldTable Datum.value i.fields) = .ok () := by
    refine visit_fieldTable _ fun f hf x hx => ?_
    simp only [fields, List.mem_cons, List.not_mem_nil, or_false] at hf
    rcases hf with rfl | rfl
    · cases hx
      exact ⟨_, rfl, rfl⟩
    · obtain ⟨s, -, rfl⟩ := Option.map_eq_some_iff.mp hx
      exact ⟨_, rfl, rfl⟩
  have hname := @required_eq _ _ "name" Toml.text Value.string (fun _ => rfl) i.name (hfind "name")
  have hdescription := @optional_eq _ _ "description" Toml.text Value.string (fun _ => rfl)
    i.description (by rw [hfind "description"]; exact Option.map_map _ _ _)
  unfold BatchInfo.decode sectionValue
  rw [Toml.record]
  rw [hvisit, hname, hdescription]
  rfl

theorem BatchInput.decode_fields (i : BatchInput) :
    BatchInput.decode (sectionValue i.fields) = .ok i := by
  have hlist : ∀ qs, Toml.listOf Query.decode (Datum.queries qs).value = .ok qs :=
    listOf_eq Query.decode_value
  have hfind := @lookup_fieldTable _ Datum.value i.fields (by simp [fields])
  have hvisit : Toml.visit
      [Toml.field "path" Toml.text, Toml.field "queries" (Toml.listOf Query.decode)]
      (fieldTable Datum.value i.fields) = .ok () := by
    refine visit_fieldTable _ fun f hf x hx => ?_
    simp only [fields, List.mem_cons, List.not_mem_nil, or_false] at hf
    rcases hf with rfl | rfl
    · obtain ⟨s, -, rfl⟩ := Option.map_eq_some_iff.mp hx
      exact ⟨_, rfl, rfl⟩
    · cases hx
      exact ⟨_, rfl, field_eq_ok _ (hlist _)⟩
  have hpath := @optional_eq _ _ "path" Toml.text Value.string (fun _ => rfl) i.path
    (by rw [hfind "path"]; exact Option.map_map _ _ _)
  have hqueries := @optional_eq _ _ "queries" (Toml.listOf Query.decode) _ hlist (some i.queries)
    (hfind "queries")
  unfold BatchInput.decode sectionValue
  rw [Toml.record]
  rw [hvisit, hpath, hqueries]
  rfl

theorem BatchOutput.decode_fields (o : BatchOutput) :
    BatchOutput.decode (sectionValue o.fields) = .ok o := by
  have hlist : ∀ ss, Toml.listOf Toml.text (Datum.texts ss).value = .ok ss :=
    listOf_eq fun _ => rfl
  have hfind := @lookup_fieldTable _ Datum.value o.fields (by simp [fields])
  have hvisit : Toml.visit
      [Toml.field "path" Toml.text, Toml.field "formats" (Toml.listOf Toml.text),
        Toml.field "basename" Toml.text]
      (fieldTable Datum.value o.fields) = .ok () := by
    refine visit_fieldTable _ fun f hf x hx => ?_
    simp only [fields, List.mem_cons, List.not_mem_nil, or_false] at hf
    rcases hf with rfl | rfl | rfl
    · cases hx
      exact ⟨_, rfl, rfl⟩
    · cases hx
      exact ⟨_, rfl, field_eq_ok _ (hlist _)⟩
    · obtain ⟨s, -, rfl⟩ := Option.map_eq_some_iff.mp hx
      exact ⟨_, rfl, rfl⟩
  have hpath := @required_eq _ _ "path" Toml.text Value.string (fun _ => rfl) o.path (hfind "path")
  have hformats := @required_eq _ _ "formats" (Toml.listOf Toml.text) _ hlist o.formats
    (hfind "formats")
  have hbasename := @optional_eq _ _ "basename" Toml.text Value.string (fun _ => rfl) o.basename
    (by rw [hfind "basename"]; exact Option.map_map _ _ _)
  unfold BatchOutput.decode sectionValue
  rw [Toml.record]
  rw [hvisit, hpath, hformats, hbasename]
  rfl

theorem BatchLogging.decode_fields (l : BatchLogging) :
    BatchLogging.decode (sectionValue l.fields) = .ok l := by
  have hfind := @lookup_fieldTable _ Datum.value l.fields (by simp [fields])
  have hvisit : Toml.visit [Toml.field "level" Toml.text, Toml.field "json" Toml.truth]
      (fieldTable Datum.value l.fields) = .ok () := by
    refine visit_fieldTable _ fun f hf x hx => ?_
    simp only [fields, List.mem_cons, List.not_mem_nil, or_false] at hf
    rcases hf with rfl | rfl
    · obtain ⟨s, -, rfl⟩ := Option.map_eq_some_iff.mp hx
      exact ⟨_, rfl, rfl⟩
    · obtain ⟨x, -, rfl⟩ := Option.map_eq_some_iff.mp hx
      exact ⟨_, rfl, rfl⟩
  have hlevel := @optional_eq _ _ "level" Toml.text Value.string (fun _ => rfl) l.level
    (by rw [hfind "level"]; exact Option.map_map _ _ _)
  have hjson := @optional_eq _ _ "json" Toml.truth Value.boolean (fun _ => rfl) l.json
    (by rw [hfind "json"]; exact Option.map_map _ _ _)
  unfold BatchLogging.decode sectionValue
  rw [Toml.record]
  rw [hvisit, hlevel, hjson]
  rfl

namespace Batch

/-- A batch is decoded from the tables of its sections. -/
theorem decode_sections (b : Batch) : decode (fieldTable sectionValue b.sections) = .ok b := by
  have hfind := lookup_fieldTable sectionValue b.wellKeyed_names.nodup
  have hvisit : Toml.visit
      [ Toml.field "batch" BatchInfo.decode, Toml.field "input" BatchInput.decode,
        Toml.field "output" BatchOutput.decode, Toml.field "logging" BatchLogging.decode ]
      (fieldTable sectionValue b.sections) = .ok () := by
    refine visit_fieldTable _ fun f hf x hx => ?_
    simp only [sections, List.mem_cons, List.not_mem_nil, or_false] at hf
    rcases hf with rfl | rfl | rfl | rfl
    · cases hx
      exact ⟨_, rfl, field_eq_ok _ b.info.decode_fields⟩
    · cases hx
      exact ⟨_, rfl, field_eq_ok _ b.input.decode_fields⟩
    · cases hx
      exact ⟨_, rfl, field_eq_ok _ b.output.decode_fields⟩
    · obtain ⟨l, -, rfl⟩ := Option.map_eq_some_iff.mp hx
      exact ⟨_, rfl, field_eq_ok _ l.decode_fields⟩
  have hinfo := @required_eq _ _ "batch" _ _ BatchInfo.decode_fields b.info (hfind "batch")
  have hinput := @optional_eq _ _ "input" _ _ BatchInput.decode_fields (some b.input)
    (hfind "input")
  have houtput := @required_eq _ _ "output" _ _ BatchOutput.decode_fields b.output (hfind "output")
  have hlogging := @optional_eq _ _ "logging" _ _ BatchLogging.decode_fields b.logging
    (by rw [hfind "logging"]; exact Option.map_map _ _ _)
  unfold decode
  rw [hvisit, hinfo, hinput, houtput, hlogging]
  rfl

/-- **Batch documents.**  A document is read as the batch that was written, unless the environment
defines a name that the document refers to; and a run is given the paths, queries and formats that
stand in it. -/
theorem ofText_document {quote : String → List Char} (hquote : ∀ s, StringText s (quote s))
    (b : Batch) {env : Environment}
    (henv : ∀ name ∈ Environment.names (b.document quote), env name = none) :
    ofText env (b.document quote) = .ok b ∧
      (ofText env (b.document quote)).map plan =
        .ok { inputPath := b.input.path
              queries := b.input.queries
              outputPath := b.output.path
              formats := b.output.formats
              basename := b.output.basename.getD "expanded" } := by
  have hread : ofText env (b.document quote) = .ok b := by
    rw [ofText, Environment.substitute_eq_self henv, ofDocument, b.parse_document hquote]
    dsimp only
    rw [b.decode_sections]
    rfl
  rw [hread]
  exact ⟨rfl, rfl⟩

/-- A batch in which a reference begins in a name and ends with the table of a query. -/
def astride : Batch where
  info := ⟨"a$\x7b", none⟩
  input := ⟨none, [⟨some "\"\\", "\n\x7f"⟩, ⟨none, ""⟩]⟩
  output := ⟨"out", ["txt", "json"], none⟩
  logging := some ⟨none, some true⟩

example : astride.document Toml.quote =
    ("[batch]\nname = \"a$\x7b\"\n[input]\nqueries = [\x7bname = \"\\\"\\\\\", " ++
      "query = \"\\n\\u007f\"\x7d, \x7bquery = \"\"\x7d]\n[output]\npath = \"out\"\n" ++
      "formats = [\"txt\", \"json\"]\n[logging]\njson = true\n").toList := by
  decide +kernel

theorem ofText_document_astride :
    ofText (Environment.ofList [("HOME", "/root")]) (astride.document Toml.quote) = .ok astride :=
  (ofText_document Toml.stringText_quote astride (by decide +kernel)).1

end Batch

end Shorthand
