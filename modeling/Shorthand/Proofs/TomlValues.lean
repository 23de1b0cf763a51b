import Shorthand.Proofs.TomlStrings

/-!
# Values of TOML

Arrays and tables in braces, whose items stand with a comma and a blank between them, are read as
the values that their items are read as (`readsItem_array`, `readsItem_table`), whatever reader
the items are read by.

Tables keep their keys in order, so what is said about them is what is found under a key
(`lookup_tableOf`) and which entries there are (`mem_of_mem_tableOf`).
-/

namespace Shorthand.Toml

/-! ## Tables -/

namespace Table

@[simp]
theorem lookup_insert_self (key : String) (v : Value) (t : Table) :
    (t.insert key v).lookup key = some v := by
  induction t with
  | nil => simp [insert]
  | cons e t ih =>
    obtain ⟨k, w⟩ := e
    unfold insert
    split
    · rename_i h
      simp [h]
    split
    · simp
    · rename_i h _
      rw [List.lookup_cons, beq_false_of_ne h, ih]

theorem lookup_insert_of_ne {key other : String} (h : key ≠ other) (v : Value) (t : Table) :
    (t.insert key v).lookup other = t.lookup other := by
  have hother : (other == key) = false := by simpa using h.symm
  induction t with
  | nil => simp [insert, List.lookup_cons, hother]
  | cons e t ih =>
    obtain ⟨k, w⟩ := e
    unfold insert
    split
    · rename_i hk
      subst hk
      simp [List.lookup_cons, hother]
    split
    · simp [List.lookup_cons, hother]
    · simp [List.lookup_cons, ih]

theorem mem_of_mem_insert {key : String} {v : Value} {t : Table} {e : String × Value}
    (h : e ∈ t.insert key v) : e = (key, v) ∨ e ∈ t := by
  induction t with
  | nil => exact .inl (List.mem_singleton.mp h)
  | cons e' t ih =>
    obtain ⟨k, w⟩ := e'
    unfold insert at h
    split at h
    · rename_i hk
      rcases List.mem_cons.mp h with rfl | h
      · exact .inl (by rw [hk])
      · exact .inr (List.mem_cons_of_mem _ h)
    split at h
    · rcases List.mem_cons.mp h with rfl | h
      · exact .inl rfl
      · exact .inr h
    · rcases List.mem_cons.mp h with rfl | h
      · exact .inr List.mem_cons_self
      · exact (ih h).imp_right (List.mem_cons_of_mem _)

/-- A table with entries put into it. -/
def insertAll (es : List (String × Value)) (t : Table) : Table :=
  es.foldl (fun t e => t.insert e.1 e.2) t

/-- Keys that differ from one another and are not in the table yet. -/
structure Fresh (es : List (String × Value)) (t : Table) : Prop where
  nodup : (es.map Prod.fst).Nodup
  absent : ∀ e ∈ es, t.lookup e.1 = none

theorem Fresh.head {e : String × Value} {es : List (String × Value)} {t : Table}
    (h : Fresh (e :: es) t) : t.lookup e.1 = none := h.absent e List.mem_cons_self

theorem Fresh.tail {e : String × Value} {es : List (String × Value)} {t : Table}
    (h : Fresh (e :: es) t) (v : Value) : Fresh es (t.insert e.1 v) := by
  have hnodup := List.nodup_cons.mp h.nodup
  refine ⟨hnodup.2, fun e' he' => ?_⟩
  have hne : e.1 ≠ e'.1 := by
    intro heq
    exact hnodup.1 (heq ▸ List.mem_map_of_mem he')
  rw [lookup_insert_of_ne hne]
  exact h.absent e' (List.mem_cons_of_mem _ he')

theorem fresh_nil {es : List (String × Value)} (h : (es.map Prod.fst).Nodup) : Fresh es [] :=
  ⟨h, fun _ _ => rfl⟩

end Table

open Table (insertAll Fresh)

/-- The table of entries. -/
def tableOf (es : List (String × Value)) : Table := insertAll es []

theorem lookup_eq_none {β : Type} {es : List (String × β)} {key : String}
    (h : key ∉ es.map Prod.fst) : es.lookup key = none := by
  rw [List.lookup_eq_none_iff]
  intro e he
  have hne : key ≠ e.1 := by
    rintro rfl
    exact h (List.mem_map.mpr ⟨e, he, rfl⟩)
  simpa using hne

/-- Under a key stands the value that its entry gives it. -/
theorem lookup_tableOf {es : List (String × Value)} (h : (es.map Prod.fst).Nodup) (key : String) :
    (tableOf es).lookup key = es.lookup key := by
  have hfrom : ∀ t : Table, (insertAll es t).lookup key = (es.lookup key).or (t.lookup key) := by
    induction es with
    | nil => exact fun t => rfl
    | cons e es ih =>
      intro t
      obtain ⟨k, v⟩ := e
      obtain ⟨hnew, hnodup⟩ := List.nodup_cons.mp h
      show (insertAll es (t.insert k v)).lookup key = _
      rw [ih hnodup, List.lookup_cons]
      by_cases hk : key = k
      · subst hk
        simp [lookup_eq_none hnew]
      · have hbeq : (key == k) = false := by simpa using hk
        rw [Table.lookup_insert_of_ne (Ne.symm hk), hbeq]
  have := hfrom []
  rwa [List.lookup_nil, Option.or_none] at this

theorem mem_of_mem_tableOf {es : List (String × Value)} {e : String × Value}
    (h : e ∈ tableOf es) : e ∈ es := by
  have hfrom : ∀ (es : List (String × Value)) (t : Table), e ∈ insertAll es t → e ∈ es ∨ e ∈ t := by
    intro es
    induction es with
    | nil => exact fun t h => .inr h
    | cons e' es ih =>
      intro t h
      rcases ih _ h with h | h
      · exact .inl (List.mem_cons_of_mem _ h)
      · rcases Table.mem_of_mem_insert h with rfl | h
        · exact .inl List.mem_cons_self
        · exact .inr h
  rcases hfrom es [] h with h | h
  · exact h
  · cases h

/-- An entry with a new key is put into the table. -/
theorem addEntry?_fresh {t : Table} {key : String} (h : t.lookup key = none) (v : Value) :
    t.addEntry? ⟨[], key⟩ v = some (t.insert key v) := by
  show Table.insertNew? key v t = _
  unfold Table.insertNew?
  rw [h]

/-! ## Values -/

/-- A text that a reader takes for an item: no blank stands at its start. -/
def ReadsItem {α : Type} (r : Reader α) (t : List Char) (x : α) : Prop :=
  ReadsValue r t x ∧ ∃ c u, t = c :: u ∧ isSolid c = true ∧ c ≠ ']'

theorem readsItem_string (inner? : Option (Reader Value)) {s : String} {t : List Char}
    (h : StringText s t) : ReadsItem (valueWith inner?) t (.string s) := by
  have hread := reads_string h
  obtain @⟨u, h⟩ := h
  refine ⟨fun rest b hrest => ?_, '"', _, rfl, by decide, by decide⟩
  have hstring := hread rest b hrest
  unfold valueWith
  rw [List.cons_append, List.cons_append] at hstring ⊢
  rw [bind_some (peek_cons _ _ b)]
  show (string >>= fun s => pure (Value.string s)) _ = _
  rw [bind_some hstring]
  rfl

theorem isScalarChar_of_mem_closers {c : Char} (h : c ∈ closers) : isScalarChar c = false := by
  have hall : (closers.all fun c => !isScalarChar c) = true := by decide
  simpa using List.all_eq_true.mp hall c h

/-- A word of scalar characters is a run up to where it ends. -/
theorem scalarRun_append {w rest : List Char} (hw : w.all isScalarChar = true)
    (hdate : isDate w = false) (hrest : Ends rest) : scalarRun (w ++ rest) = (w, rest) := by
  have hall : ∀ c ∈ w, isScalarChar c = true := List.all_eq_true.mp hw
  have hstop : rest.takeWhile isScalarChar = [] ∧ rest.dropWhile isScalarChar = rest := by
    cases rest with
    | nil => exact ⟨rfl, rfl⟩
    | cons c cs =>
      have hc : ¬ isScalarChar c = true := by
        rw [isScalarChar_of_mem_closers (hrest c rfl)]
        exact Bool.false_ne_true
      exact ⟨List.takeWhile_cons_of_neg hc, List.dropWhile_cons_of_neg hc⟩
  unfold scalarRun
  rw [List.takeWhile_append_of_pos hall, List.dropWhile_append_of_pos hall, hstop.1, hstop.2,
    List.append_nil]
  split
  · dsimp only
    rw [hdate]
    rfl
  · rfl

theorem readsItem_boolean (inner? : Option (Reader Value)) (x : Bool) :
    ReadsItem (valueWith inner?) (if x then "true".toList else "false".toList) (.boolean x) := by
  cases x with
  | true =>
    refine ⟨fun rest b hrest => ?_, 't', _, rfl, by decide, by decide⟩
    have hscalar : scalar ⟨"true".toList ++ rest, b⟩ = some (.boolean true, ⟨rest, b⟩) := by
      refine taking_some ?_ b
      rw [scalarRun_append (by decide) (by decide) hrest]
      rfl
    exact hscalar
  | false =>
    refine ⟨fun rest b hrest => ?_, 'f', _, rfl, by decide, by decide⟩
    have hscalar : scalar ⟨"false".toList ++ rest, b⟩ = some (.boolean false, ⟨rest, b⟩) := by
      refine taking_some ?_ b
      rw [scalarRun_append (by decide) (by decide) hrest]
      rfl
    exact hscalar

/-- Texts with a comma and a blank between them. -/
def listed : List (List Char) → List Char
  | [] => []
  | [t] => t
  | t :: ts => t ++ ',' :: ' ' :: listed ts

theorem itemsFrom_blank (item : Reader Value) (fuel : Nat) (cs : List Char) (b : Bool) :
    itemsFrom item fuel ⟨' ' :: cs, b⟩ = itemsFrom item fuel ⟨cs, b⟩ := by
  cases fuel with
  | zero => rfl
  | succ fuel => rfl

/-- Items are read up to and with the bracket behind them. -/
theorem itemsFrom_listed {item : Reader Value} {ts : List (List Char)} {vs : List Value}
    (h : List.Forall₂ (ReadsItem item) ts vs) {fuel : Nat} (hf : ts.length < fuel)
    (rest : List Char) (b : Bool) :
    itemsFrom item fuel ⟨listed ts ++ ']' :: rest, b⟩ = some (vs, ⟨rest, b⟩) := by
  induction h generalizing fuel with
  | nil =>
    obtain ⟨n, rfl⟩ : ∃ n, fuel = n + 1 := ⟨fuel - 1, by omega⟩
    rfl
  | @cons t v ts vs hitem htail ih =>
    obtain ⟨n, rfl⟩ : ∃ n, fuel = n + 1 := ⟨fuel - 1, by omega⟩
    obtain ⟨hread, c, u, rfl, hsolid, hclose⟩ := hitem
    have hopen : some c ≠ some ']' := fun h => hclose (Option.some.inj h)
    cases htail with
    | nil =>
      have hitem := hread (']' :: rest) b (ends_cons (by decide) _)
      show itemsFrom item (n + 1) ⟨c :: (u ++ ']' :: rest), b⟩ = _
      rw [List.cons_append] at hitem
      rw [itemsFrom, bind_some (trivia_solid hsolid _ b), bind_some (peek_cons c _ b),
        if_neg hopen, bind_some hitem, bind_some (trivia_solid (by decide) _ b),
        bind_some (peek_cons _ _ b), if_neg (by decide), bind_some (expect_eq _ _ b)]
      rfl
    | @cons t' v' ts vs _ _ =>
      have hitem := hread (',' :: ' ' :: (listed (t' :: ts) ++ ']' :: rest)) b
        (ends_cons (by decide) _)
      have htext : listed ((c :: u) :: t' :: ts) ++ ']' :: rest =
          c :: (u ++ (',' :: ' ' :: (listed (t' :: ts) ++ ']' :: rest))) := by
        simp [listed]
      rw [List.cons_append] at hitem
      rw [htext, itemsFrom, bind_some (trivia_solid hsolid _ b), bind_some (peek_cons c _ b),
        if_neg hopen, bind_some hitem, bind_some (trivia_solid (by decide) _ b),
        bind_some (peek_cons _ _ b), if_pos rfl, bind_some (expect_eq _ _ b), bind_some
        (by rw [itemsFrom_blank]; exact ih (by simp at hf ⊢; omega))]
      rfl

/-- There are no more texts than characters, since no text is empty. -/
theorem length_le_length_listed {α : Type} {R : List Char → α → Prop}
    (hR : ∀ t x, R t x → t ≠ []) {ts : List (List Char)} {xs : List α}
    (h : List.Forall₂ R ts xs) : ts.length ≤ (listed ts).length := by
  induction h with
  | nil => exact Nat.le_refl 0
  | @cons t x ts xs ht htail ih =>
    have hpos : 0 < t.length := List.length_pos_of_ne_nil (hR t x ht)
    cases htail with
    | nil => exact hpos
    | cons =>
      rw [listed]
      · simp only [List.length_append, List.length_cons] at ih ⊢
        omega
      · exact List.cons_ne_nil _ _

theorem ReadsItem.ne_nil {α : Type} {r : Reader α} (t : List Char) (x : α) (h : ReadsItem r t x) :
    t ≠ [] := by
  obtain ⟨-, c, u, rfl, -⟩ := h
  exact List.cons_ne_nil c u

/-- An array is read as the list of its items. -/
theorem readsItem_array {item : Reader Value} {ts : List (List Char)} {vs : List Value}
    (h : List.Forall₂ (ReadsItem item) ts vs) :
    ReadsItem (valueWith (some item)) ('[' :: listed ts ++ [']']) (.array false vs) := by
  refine ⟨fun rest b hrest => ?_, '[', _, rfl, by decide, by decide⟩
  have htext : '[' :: listed ts ++ [']'] ++ rest = '[' :: (listed ts ++ ']' :: rest) := by simp
  have hfuel : ts.length < (listed ts ++ ']' :: rest).length + 1 := by
    have := length_le_length_listed ReadsItem.ne_nil h
    rw [List.length_append]
    omega
  rw [htext]
  unfold valueWith
  rw [bind_some (peek_cons _ _ b)]
  show (expect '[' >>= fun _ => get >>= fun c => itemsFrom item (c.rest.length + 1) >>=
    fun vs => pure (Value.array false vs)) _ = _
  rw [bind_some (expect_eq _ _ b), bind_some (r := get) rfl,
    bind_some (itemsFrom_listed h hfuel rest b)]
  rfl

/-! ## Entries -/

/-- The text of an entry whose value is read by `item`. -/
inductive EntryText (item : Reader Value) : List Char → String × Value → Prop
  | pair {k : String} {v : Value} {t : List Char} (bare : IsBareKey k)
      (value : ReadsItem item t v) : EntryText item (k.toList ++ ' ' :: '=' :: ' ' :: t) (k, v)

section
variable {item : Reader Value} {t : List Char} {e : String × Value}

theorem EntryText.head (h : EntryText item t e) : ∃ c u, t = c :: u ∧ isBare c = true := by
  obtain ⟨bare, -⟩ := h
  obtain ⟨c, cs, hk, hc⟩ := bare.head
  exact ⟨c, _, by rw [hk]; rfl, hc⟩

theorem EntryText.ne_nil (t : List Char) (e : String × Value) (h : EntryText item t e) :
    t ≠ [] := by
  obtain ⟨c, u, rfl, -⟩ := h.head
  exact List.cons_ne_nil c u

theorem readsValue_entry (h : EntryText item t e) :
    ReadsValue (entryWith item) t (⟨[], e.1⟩, e.2) := by
  intro rest b hrest
  obtain @⟨k, v, u, bare, hread, c, w, rfl, hsolid, -⟩ := h
  have htext : k.toList ++ ' ' :: '=' :: ' ' :: (c :: w) ++ rest =
      k.toList ++ ' ' :: '=' :: ' ' :: (c :: (w ++ rest)) := by simp
  have hvalue := hread rest b hrest
  rw [List.cons_append] at hvalue
  rw [htext]
  unfold entryWith
  rw [bind_some (key_bare bare (.equals _) b), bind_some (expect_eq _ _ b),
    bind_some (spaces_blank (isSpace_of_isSolid hsolid) _ b), bind_some hvalue]
  rfl

end

theorem added_fresh {t : Table} {key : String} (h : t.lookup key = none) (v : Value) (c : Cursor) :
    added t ⟨[], key⟩ v c = some (t.insert key v, c) := by
  unfold added
  rw [addEntry?_fresh h]
  rfl

theorem entriesFrom_blank (item : Reader Value) (fuel : Nat) (t : Table) (cs : List Char)
    (b : Bool) : entriesFrom item fuel t ⟨' ' :: cs, b⟩ = entriesFrom item fuel t ⟨cs, b⟩ := by
  cases fuel with
  | zero => rfl
  | succ fuel => rfl

/-- Entries are read up to and with the brace behind them. -/
theorem entriesFrom_listed {item : Reader Value} {ts : List (List Char)}
    {es : List (String × Value)} (h : List.Forall₂ (EntryText item) ts es) {fuel : Nat}
    (hf : ts.length < fuel) {t : Table} (hfresh : Fresh es t) (rest : List Char) (b : Bool) :
    entriesFrom item fuel t ⟨listed ts ++ '\x7d' :: rest, b⟩ =
      some (insertAll es t, ⟨rest, b⟩) := by
  induction h generalizing fuel t with
  | nil =>
    obtain ⟨n, rfl⟩ : ∃ n, fuel = n + 1 := ⟨fuel - 1, by omega⟩
    rfl
  | @cons u e us es hentry htail ih =>
    obtain ⟨n, rfl⟩ : ∃ n, fuel = n + 1 := ⟨fuel - 1, by omega⟩
    have hread := readsValue_entry hentry
    have hadd := fun c => added_fresh hfresh.head e.2 c
    obtain ⟨c, w, rfl, hbare⟩ := hentry.head
    have hsolid := isSolid_of_isBare hbare
    have hopen : some c ≠ some '\x7d' :=
      fun h => ne_of_isBare hbare (by decide) (Option.some.inj h)
    cases htail with
    | nil =>
      have hentry := hread ('\x7d' :: rest) b (ends_cons (by decide) _)
      show entriesFrom item (n + 1) t ⟨c :: (w ++ '\x7d' :: rest), b⟩ = _
      rw [List.cons_append] at hentry
      rw [entriesFrom, bind_some (trivia_solid hsolid _ b), bind_some (peek_cons c _ b),
        if_neg hopen, bind_some hentry]
      dsimp only
      rw [bind_some (hadd _), bind_some (trivia_solid (by decide) _ b),
        bind_some (peek_cons _ _ b), if_neg (by decide), bind_some (expect_eq _ _ b)]
      rfl
    | @cons u' e' us es _ _ =>
      have hentry := hread (',' :: ' ' :: (listed (u' :: us) ++ '\x7d' :: rest)) b
        (ends_cons (by decide) _)
      have htext : listed ((c :: w) :: u' :: us) ++ '\x7d' :: rest =
          c :: (w ++ (',' :: ' ' :: (listed (u' :: us) ++ '\x7d' :: rest))) := by
        simp [listed]
      rw [List.cons_append] at hentry
      rw [htext, entriesFrom, bind_some (trivia_solid hsolid _ b), bind_some (peek_cons c _ b),
        if_neg hopen, bind_some hentry]
      dsimp only
      rw [bind_some (hadd _), bind_some (trivia_solid (by decide) _ b),
        bind_some (peek_cons _ _ b), if_pos rfl, bind_some (expect_eq _ _ b), entriesFrom_blank]
      exact ih (by simp at hf ⊢; omega) (hfresh.tail e.2)

/-- A table in braces is read as the table of its entries. -/
theorem readsItem_table {item : Reader Value} {ts : List (List Char)} {es : List (String × Value)}
    (h : List.Forall₂ (EntryText item) ts es) (hnodup : (es.map Prod.fst).Nodup) :
    ReadsItem (valueWith (some item)) ('\x7b' :: listed ts ++ ['\x7d'])
      (.table .inline (tableOf es)) := by
  refine ⟨fun rest b hrest => ?_, '\x7b', _, rfl, by decide, by decide⟩
  have htext : '\x7b' :: listed ts ++ ['\x7d'] ++ rest =
      '\x7b' :: (listed ts ++ '\x7d' :: rest) := by simp
  have hfuel : ts.length < (listed ts ++ '\x7d' :: rest).length + 1 := by
    have := length_le_length_listed EntryText.ne_nil h
    rw [List.length_append]
    omega
  rw [htext]
  unfold valueWith
  rw [bind_some (peek_cons _ _ b)]
  show (expect '\x7b' >>= fun _ => get >>= fun c => entriesFrom item (c.rest.length + 1) [] >>=
    fun t => pure (Value.table .inline t)) _ = _
  rw [bind_some (expect_eq _ _ b), bind_some (r := get) rfl,
    bind_some (entriesFrom_listed h hfuel (Table.fresh_nil hnodup) rest b)]
  rfl

end Shorthand.Toml
