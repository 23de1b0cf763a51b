import Shorthand.Proofs.Octets
import Shorthand.Report.Render

/-!
# Delimited text there and back

A reader of delimited text goes over the characters once.  It knows where in a field it stands
(`Place`) and keeps the records, the fields and the characters that it has read so far (`Reading`):

    a field that starts with a quote goes on up to the closing quote; two quotes in it are one
    outside quotes a delimiter ends the field, and a line feed ends the record

What is written is read as it was, by induction over the characters of a field (`foldl_field`), the
fields of a record (`foldl_record`) and the records of a table (`foldl_table`):

    read d (encode (table d records)) = .ok records                                   (read_table)
-/

namespace Shorthand

namespace Delimited

/-! ## Algorithm -/

/-- Where in a field a reader stands. -/
inductive Place where
  /-- Nothing of the field has been read. -/
  | start
  /-- Outside quotes. -/
  | bare
  /-- Between quotes. -/
  | quoted
  /-- Behind a quote inside a quoted field: the closing one, unless another one follows. -/
  | quote
  deriving DecidableEq, Repr

/-- What has been read of a text. -/
structure Reading where
  records : List (List String)
  /-- The fields of the record that has not ended. -/
  fields : List String
  /-- The characters of the field that has not ended. -/
  chars : List Char
  place : Place
  deriving DecidableEq, Repr

namespace Reading

/-- Nothing has been read. -/
def empty : Reading := ⟨[], [], [], .start⟩

/-- Takes a character into the field. -/
def push (r : Reading) (c : Char) (place : Place) : Reading :=
  { r with chars := r.chars ++ [c], place := place }

/-- Ends the field. -/
def endField (r : Reading) : Reading :=
  { r with fields := r.fields ++ [String.ofList r.chars], chars := [], place := .start }

/-- Ends the field and the record. -/
def endRecord (r : Reading) : Reading :=
  ⟨r.records ++ [r.fields ++ [String.ofList r.chars]], [], [], .start⟩

/-- Takes a character outside quotes. -/
def plain (delimiter : Char) (r : Reading) (c : Char) : Reading :=
  if c = delimiter then r.endField else if c = '\n' then r.endRecord else r.push c .bare

/-- Takes a character. -/
def step (delimiter : Char) (r : Reading) (c : Char) : Reading :=
  match r.place with
  | .start => if c = '"' then { r with place := .quoted } else r.plain delimiter c
  | .bare => r.plain delimiter c
  | .quoted => if c = '"' then { r with place := .quote } else r.push c .quoted
  | .quote => if c = '"' then r.push '"' .quoted else r.plain delimiter c

/-- The records at the end of the text, with the last one even if it has no line end. -/
def finish (r : Reading) : List (List String) :=
  if r.fields = [] ∧ r.place = .start then r.records else r.endRecord.records

end Reading

/-- The records of a delimited text. -/
def read (delimiter : Char) (data : List UInt8) : Except Text.Utf8.Breach (List (List String)) :=
  (Text.Utf8.decode data).map fun cs => (cs.foldl (Reading.step delimiter) .empty).finish

/-! ## Lemmas -/

section
variable {d : Char} (records : List (List String)) (fields : List String) (chars : List Char)

/-- A quoted field is taken up to its closing quote. -/
theorem foldl_doubled (cs : List Char) :
    (doubled cs).foldl (Reading.step d) ⟨records, fields, chars, .quoted⟩ =
      ⟨records, fields, chars ++ cs, .quote⟩ := by
  induction cs generalizing chars with
  | nil => simp [doubled, Reading.step]
  | cons c cs ih =>
    unfold doubled
    split
    · next h =>
      have hstep : Reading.step d (Reading.step d ⟨records, fields, chars, .quoted⟩ '"') '"' =
          ⟨records, fields, chars ++ ['"'], .quoted⟩ := rfl
      rw [List.foldl_cons, List.foldl_cons, hstep, ih, h, List.append_assoc]
      rfl
    · next h =>
      have hstep : Reading.step d ⟨records, fields, chars, .quoted⟩ c =
          ⟨records, fields, chars ++ [c], .quoted⟩ := if_neg h
      rw [List.foldl_cons, hstep, ih, List.append_assoc]
      rfl

theorem plain_of_not_isSpecial {c : Char} (hc : isSpecial d c = false) (place : Place) :
    Reading.plain d ⟨records, fields, chars, place⟩ c =
      ⟨records, fields, chars ++ [c], .bare⟩ := by
  simp only [isSpecial, Bool.or_eq_false_iff, beq_eq_false_iff_ne] at hc
  rw [Reading.plain, if_neg hc.1.1.1, if_neg hc.2]
  rfl

/-- Characters that need no quotes are taken as they are. -/
theorem foldl_bare {cs : List Char} (hcs : ∀ c ∈ cs, isSpecial d c = false) :
    cs.foldl (Reading.step d) ⟨records, fields, chars, .bare⟩ =
      ⟨records, fields, chars ++ cs, .bare⟩ := by
  induction cs generalizing chars with
  | nil => rw [List.foldl_nil, List.append_nil]
  | cons c cs ih =>
    have hstep : Reading.step d ⟨records, fields, chars, .bare⟩ c =
        ⟨records, fields, chars ++ [c], .bare⟩ :=
      plain_of_not_isSpecial records fields chars (hcs c List.mem_cons_self) .bare
    rw [List.foldl_cons, hstep, ih _ fun x hx => hcs x (List.mem_cons_of_mem c hx),
      List.append_assoc]
    rfl

/-- A written field is read as it was, and the reader then stands outside quotes. -/
theorem foldl_field (cs : List Char) :
    ∃ place ≠ Place.quoted, (field d cs).foldl (Reading.step d) ⟨records, fields, [], .start⟩ =
      ⟨records, fields, cs, place⟩ := by
  unfold field
  split
  · exact ⟨.quote, by decide, foldl_doubled records fields [] cs⟩
  · next h =>
    rw [Bool.not_eq_true, List.any_eq_false] at h
    have hcs : ∀ c ∈ cs, isSpecial d c = false := fun c hc => Bool.eq_false_iff.mpr (h c hc)
    -- the first character takes the reader from the start of the field into it
    cases cs with
    | nil => exact ⟨.start, by decide, rfl⟩
    | cons c cs =>
      have hc := hcs c List.mem_cons_self
      have hquote : c ≠ '"' := by
        simp only [isSpecial, Bool.or_eq_false_iff, beq_eq_false_iff_ne] at hc
        exact hc.1.1.2
      have hstep : Reading.step d ⟨records, fields, [], .start⟩ c =
          ⟨records, fields, [c], .bare⟩ :=
        (if_neg hquote).trans (plain_of_not_isSpecial records fields [] hc .start)
      refine ⟨.bare, by decide, ?_⟩
      rw [List.foldl_cons, hstep]
      exact foldl_bare records fields [c] fun x hx => hcs x (List.mem_cons_of_mem c hx)

/-- Outside quotes the reader sees every character but a quote as what it is. -/
theorem step_of_ne_quoted {place : Place} (hp : place ≠ .quoted) {c : Char} (hc : c ≠ '"') :
    Reading.step d ⟨records, fields, chars, place⟩ c =
      Reading.plain d ⟨records, fields, chars, place⟩ c := by
  cases place with
  | start => exact if_neg hc
  | bare => rfl
  | quoted => exact absurd rfl hp
  | quote => exact if_neg hc

/-- A delimiter is neither a quote nor a line feed. -/
structure IsDelimiter (d : Char) : Prop where
  quote : d ≠ '"'
  feed : d ≠ '\n'

/-- A written record is read as it was. -/
theorem foldl_record (hd : IsDelimiter d) (f : String) (fs : List String) :
    (record d ((f :: fs).map String.toList)).foldl (Reading.step d) ⟨records, fields, [], .start⟩ =
      ⟨records ++ [fields ++ f :: fs], [], [], .start⟩ := by
  induction fs generalizing f fields with
  | nil =>
    obtain ⟨place, hp, hfield⟩ := foldl_field (d := d) records fields f.toList
    show (field d f.toList ++ ['\n']).foldl _ _ = _
    rw [List.foldl_append, hfield, List.foldl_cons, step_of_ne_quoted _ _ _ hp (by decide),
      Reading.plain, if_neg hd.feed.symm, if_pos rfl, Reading.endRecord, String.ofList_toList]
    rfl
  | cons g gs ih =>
    obtain ⟨place, hp, hfield⟩ := foldl_field (d := d) records fields f.toList
    show (field d f.toList ++ d :: record d ((g :: gs).map String.toList)).foldl _ _ = _
    rw [List.foldl_append, hfield, List.foldl_cons, step_of_ne_quoted _ _ _ hp hd.quote,
      Reading.plain, if_pos rfl, Reading.endField, String.ofList_toList, ih, List.append_assoc]
    rfl

/-- Written records are read as they were. -/
theorem foldl_table (hd : IsDelimiter d) {rows : List (List String)}
    (hrows : ∀ row ∈ rows, row ≠ []) :
    (table d (rows.map fun row => row.map String.toList)).foldl (Reading.step d)
        ⟨records, [], [], .start⟩ =
      ⟨records ++ rows, [], [], .start⟩ := by
  induction rows generalizing records with
  | nil => rw [List.append_nil]; rfl
  | cons row rows ih =>
    cases row with
    | nil => exact absurd rfl (hrows [] List.mem_cons_self)
    | cons f fs =>
      show (record d ((f :: fs).map String.toList) ++ table d _).foldl _ _ = _
      rw [List.foldl_append, foldl_record records [] hd, ih _ fun x hx =>
        hrows x (List.mem_cons_of_mem _ hx), List.append_assoc]
      rfl

end

/-- Reading a written table gives its records, whatever characters stand in their fields. -/
theorem read_table {d : Char} (hd : IsDelimiter d) {rows : List (List String)}
    (hrows : ∀ row ∈ rows, row ≠ []) :
    read d (Text.Utf8.encode (table d (rows.map fun row => row.map String.toList))) = .ok rows := by
  have hfold := foldl_table [] hd hrows
  unfold read
  rw [Text.Utf8.decode_encode]
  show Except.ok (Reading.finish (List.foldl _ ⟨[], [], [], .start⟩ _)) = _
  rw [hfold]
  rfl

end Delimited

/-! ## Reports -/

/-- The query as a record; one without a name looks like one with an empty name. -/
def ExpandedQuery.row (q : ExpandedQuery) : List String :=
  [q.name.getD "", q.text, q.expanded, if q.changed then "true" else "false"]

/-- The records of a report. -/
def Report.rows (r : Report) : List (List String) :=
  ["name", "original", "expanded", "changed"] :: r.queries.map ExpandedQuery.row

/-- The query with an empty name instead of none. -/
def ExpandedQuery.withName (q : ExpandedQuery) : ExpandedQuery :=
  { q with name := some (q.name.getD "") }

theorem ExpandedQuery.row_eq_iff {q q' : ExpandedQuery} :
    q.row = q'.row ↔ q.withName = q'.withName := by
  have htruth : ((if q.changed then "true" else "false") = if q'.changed then "true" else "false") ↔
      q.changed = q'.changed := by
    cases q.changed <;> cases q'.changed <;> decide
  simp [row, withName, htruth]

theorem Report.rows_eq_iff {r r' : Report} :
    r.rows = r'.rows ↔
      r.queries.map ExpandedQuery.withName = r'.queries.map ExpandedQuery.withName := by
  have hmap : ∀ qs qs' : List ExpandedQuery, qs.map ExpandedQuery.row = qs'.map ExpandedQuery.row ↔
      qs.map ExpandedQuery.withName = qs'.map ExpandedQuery.withName := by
    intro qs
    induction qs with
    | nil => intro qs'; cases qs' <;> simp
    | cons q qs ih =>
      intro qs'
      cases qs' with
      | nil => simp
      | cons q' qs' =>
        simp only [List.map_cons, List.cons.injEq]
        rw [ExpandedQuery.row_eq_iff, ih]
  rw [rows, rows, List.cons_inj_right, hmap]

theorem Report.toDelimited_eq (d : Char) (r : Report) :
    r.toDelimited d = Delimited.table d (r.rows.map fun row => row.map String.toList) := by
  have hfields : ∀ q : ExpandedQuery, q.fields = q.row.map String.toList := by
    intro q
    simp only [ExpandedQuery.fields, ExpandedQuery.row, List.map_cons, List.map_nil]
    cases q.changed <;> rfl
  unfold toDelimited rows
  rw [List.map_cons, List.map_map, List.map_congr_left fun q _ => hfields q]
  rfl

/-- A report is read back from delimited text record by record. -/
theorem Report.read_toDelimited {d : Char} (hd : Delimited.IsDelimiter d) (r : Report) :
    Delimited.read d (Text.Utf8.encode (r.toDelimited d)) = .ok r.rows := by
  rw [toDelimited_eq]
  refine Delimited.read_table hd fun row hrow => ?_
  rcases List.mem_cons.mp hrow with rfl | hrow
  · exact List.cons_ne_nil _ _
  · obtain ⟨q, -, rfl⟩ := List.mem_map.mp hrow
    exact List.cons_ne_nil _ _

/-- Reports have the same delimited text just when their queries agree up to missing names. -/
theorem Report.encode_toDelimited_eq_iff {d : Char} (hd : Delimited.IsDelimiter d) (r r' : Report) :
    Text.Utf8.encode (r.toDelimited d) = Text.Utf8.encode (r'.toDelimited d) ↔
      r.queries.map ExpandedQuery.withName = r'.queries.map ExpandedQuery.withName := by
  rw [← rows_eq_iff]
  refine ⟨fun h => ?_, fun h => ?_⟩
  · have hok : Except.ok (ε := Text.Utf8.Breach) r.rows = .ok r'.rows := by
      rw [← read_toDelimited hd r, h, read_toDelimited hd r']
    exact Except.ok.inj hok
  · rw [toDelimited_eq, toDelimited_eq, h]

/-! ## Top theorem -/

/-- A reader of delimited text finds in a report the names of the fields and then one record for
each query, character for character; so two reports with the same text differ at most in their
times and in which of the empty names are missing. -/
theorem Report.read_render (r : Report) :
    (Delimited.read ',' (r.render .csv) = .ok r.rows ∧
      Delimited.read '\t' (r.render .tsv) = .ok r.rows) ∧
    ∀ r' : Report,
      (r.render .csv = r'.render .csv ↔
        r.queries.map ExpandedQuery.withName = r'.queries.map ExpandedQuery.withName) ∧
      (r.render .tsv = r'.render .tsv ↔
        r.queries.map ExpandedQuery.withName = r'.queries.map ExpandedQuery.withName) := by
  have hcomma : Delimited.IsDelimiter ',' := ⟨by decide, by decide⟩
  have htab : Delimited.IsDelimiter '\t' := ⟨by decide, by decide⟩
  exact ⟨⟨r.read_toDelimited hcomma, r.read_toDelimited htab⟩, fun r' =>
    ⟨r.encode_toDelimited_eq_iff hcomma r', r.encode_toDelimited_eq_iff htab r'⟩⟩

end Shorthand
