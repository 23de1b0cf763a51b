import Shorthand.Json.Value
import Shorthand.Proofs.JsonStrings

/-!
# Arrays and objects of JSON

Items stand between brackets with commas between them and blanks around them (`ArrayText`).  A list
is read from any such text whose items are read, and the members of an object one after the other,
each making a new state out of the one before:

    listOf item reads '[' t₁ ',' … ',' tₙ ']' as [x₁, …, xₙ]                       (reads_listOf)
    members step reads m₁ ',' … ',' mₙ '}' from a₀ to aₙ                           (reads_members)

The fuel of both loops is the length of the text, and every item takes at least one character.
-/

namespace Shorthand.Json

open Text.Utf8 (encode encode_append encode_cons encodeChar_ascii)

/-! ## Grammar -/

/-- Items with commas between them and blanks around them. -/
inductive Row {α : Type} (Item : α → List Char → Prop) : List α → List Char → Prop
  | last {x : α} {ws t vs : List Char} (before : Blanks ws) (item : Item x t) (after : Blanks vs) :
      Row Item [x] (ws ++ t ++ vs)
  | more {x : α} {xs : List α} {ws t vs u : List Char} (before : Blanks ws) (item : Item x t)
      (after : Blanks vs) (row : Row Item xs u) : Row Item (x :: xs) (ws ++ t ++ vs ++ ',' :: u)

/-- An array of items. -/
inductive ArrayText {α : Type} (Item : α → List Char → Prop) : List α → List Char → Prop
  | empty {ws : List Char} (blanks : Blanks ws) : ArrayText Item [] ('[' :: ws ++ [']'])
  | row {xs : List α} {u : List Char} (row : Row Item xs u) : ArrayText Item xs ('[' :: u ++ [']'])

section
variable {α β : Type} {P : α → List Char → Prop} {Q : β → List Char → Prop} {f : α → β}

theorem Row.map {xs : List α} {u : List Char} (hrow : Row P xs u)
    (h : ∀ x ∈ xs, ∀ t, P x t → Q (f x) t) : Row Q (xs.map f) u := by
  induction hrow with
  | last before item after => exact .last before (h _ List.mem_cons_self _ item) after
  | more before item after _ ih =>
    exact .more before (h _ List.mem_cons_self _ item) after
      (ih fun x hx => h x (List.mem_cons_of_mem _ hx))

theorem ArrayText.map {xs : List α} {t : List Char} (ht : ArrayText P xs t)
    (h : ∀ x ∈ xs, ∀ t, P x t → Q (f x) t) : ArrayText Q (xs.map f) t := by
  cases ht with
  | empty blanks => exact .empty blanks
  | row hrow => exact .row (hrow.map h)

end

/-! ## What follows a value -/

/-- The marks that may follow a value. -/
def closers : List Char := [',', ']', '\x7d']

/-- What may follow a value: nothing, or a blank, a comma or a closing bracket. -/
def Ends (rest : List UInt8) : Prop := ∀ b ∈ rest.head?, isSpace b = true ∨ charOf b ∈ closers

theorem ends_closer {vs : List Char} (hv : Blanks vs) {c : Char} (hc : c ∈ closers)
    (t : List Char) (rest : List UInt8) : Ends (encode (vs ++ c :: t) ++ rest) := by
  intro b hb
  cases vs with
  | nil =>
    have hall : closers.all isMark = true := by decide
    have hmark := List.all_eq_true.mp hall c hc
    rw [List.nil_append, encode_mark hmark, List.head?_cons] at hb
    cases hb
    rw [charOf_toUInt8 (isMark_iff.mp hmark).1]
    exact .inr hc
  | cons w ws =>
    have hw := hv w List.mem_cons_self
    have hlt : w.toNat < 0x80 := by rcases hw with rfl | rfl | rfl | rfl <;> decide
    rw [List.cons_append, encode_cons, encodeChar_ascii hlt] at hb
    cases hb
    left
    rw [isSpace_toUInt8 hlt]
    simpa [or_assoc] using hw

/-- The reader takes the text for `x` wherever a value may end behind it. -/
def ReadsValue {α : Type} (r : Reader α) (text : List Char) (x : α) : Prop :=
  ∀ rest, Ends rest → r (encode text ++ rest) = .ok (x, rest)

theorem Reads.readsValue {α : Type} {r : Reader α} {t : List Char} {x : α} (h : Reads r t x) :
    ReadsValue r t x := fun rest _ => h rest

/-! ## Values -/

/-- A text is read, behind blanks, as the string it spells. -/
theorem reads_text {ws : List Char} (hw : Blanks ws) {s : String} {t : List Char}
    (ht : StringText s t) : Reads text (ws ++ t) s := by
  obtain ⟨hu⟩ := ht
  intro rest
  unfold text
  rw [List.cons_append, bind_ok (look_mark hw (by decide) _ rest)]
  show (advance >>= fun _ => string) _ = _
  rw [bind_ok (advance_mark (by decide) _ rest)]
  exact reads_string hu rest

theorem reads_text?_some {ws : List Char} (hw : Blanks ws) {s : String} {t : List Char}
    (ht : StringText s t) : Reads text? (ws ++ t) (some s) := by
  have hread := (reads_text blanks_nil ht).map some
  obtain ⟨hu⟩ := ht
  intro rest
  unfold text?
  rw [List.cons_append, bind_ok (look_mark hw (by decide) _ rest)]
  exact hread rest

theorem reads_word {cs : List Char} (h : cs.all isMark = true) : Reads (word cs) cs () := by
  intro rest
  induction cs with
  | nil => rfl
  | cons c cs ih =>
    rw [List.all_cons, Bool.and_eq_true] at h
    obtain ⟨hc, hcs⟩ := h
    have hpeek : peek (encode (c :: cs) ++ rest) = .ok (some c, encode (c :: cs) ++ rest) := by
      rw [encode_mark hc]
      show Except.ok (some (charOf c.toNat.toUInt8), _) = _
      rw [charOf_toUInt8 (isMark_iff.mp hc).1]
    rw [word, bind_ok hpeek]
    dsimp only
    rw [if_pos rfl, bind_ok (advance_mark hc cs rest)]
    exact ih hcs

theorem reads_wordValue {α : Type} {w : String} (h : w.toList.all isMark = true) (x : α) :
    Reads (wordValue w x) w.toList x := by
  intro rest
  unfold wordValue
  rw [bind_ok (reads_word h rest)]
  rfl

theorem reads_text?_none {ws : List Char} (hw : Blanks ws) :
    Reads text? (ws ++ "null".toList) none := by
  intro rest
  unfold text?
  rw [show "null".toList = 'n' :: ['u', 'l', 'l'] from rfl,
    bind_ok (look_mark hw (by decide) _ rest)]
  exact reads_wordValue (by decide) none rest

theorem reads_truth {ws : List Char} (hw : Blanks ws) (b : Bool) :
    Reads truth (ws ++ if b then "true".toList else "false".toList) b := by
  intro rest
  unfold truth
  cases b with
  | true =>
    rw [if_pos rfl, show "true".toList = 't' :: ['r', 'u', 'e'] from rfl,
      bind_ok (look_mark hw (by decide) _ rest)]
    exact reads_wordValue (by decide) true rest
  | false =>
    rw [if_neg (by decide), show "false".toList = 'f' :: ['a', 'l', 's', 'e'] from rfl,
      bind_ok (look_mark hw (by decide) _ rest)]
    exact reads_wordValue (by decide) false rest

/-! ## Arrays -/

/-- What stands before an item: nothing before the first, a comma before the others. -/
inductive Lead : (first : Bool) → List Char → Prop
  | first : Lead true []
  | comma {vs : List Char} (blanks : Blanks vs) : Lead false (vs ++ [','])

theorem nextElement_lead {first : Bool} {lead ws : List Char} (hl : Lead first lead)
    (hw : Blanks ws) {c : Char} (hc : isMark c = true) (hclose : c ≠ ']') (t : List Char)
    (rest : List UInt8) :
    nextElement first (encode (lead ++ ws ++ c :: t) ++ rest) =
      .ok (true, encode (c :: t) ++ rest) := by
  unfold nextElement
  cases hl with
  | first =>
    rw [List.nil_append, bind_ok (look_mark hw hc t rest)]
    simp only [↓reduceIte]
    rfl
  | comma hv =>
    rw [List.append_assoc, List.append_assoc, List.singleton_append,
      bind_ok (look_mark hv (by decide) _ rest)]
    simp only [↓Char.isValue, Char.reduceEq, imp_self, Bool.false_eq_true, ↓reduceIte]
    rw [bind_ok (advance_mark (by decide) _ rest), bind_ok (look_mark hw hc t rest)]
    simp only
    rfl

theorem nextElement_close {vs : List Char} (hv : Blanks vs) (first : Bool) (rest : List UInt8) :
    nextElement first (encode (vs ++ [']']) ++ rest) = .ok (false, encode [']'] ++ rest) := by
  unfold nextElement
  rw [bind_ok (look_mark hv (by decide) _ rest)]
  rfl

/-- A text that a reader takes for an item of an array: a mark opens it. -/
def ReadsItem {α : Type} (r : Reader α) (t : List Char) (x : α) : Prop :=
  ReadsValue r t x ∧ ∃ c u, t = c :: u ∧ isMark c = true ∧ c ≠ ']'

theorem elementsFrom_close {α : Type} (item : Reader α) (fuel : Nat) (first : Bool)
    {vs : List Char} (hv : Blanks vs) (rest : List UInt8) :
    elementsFrom item (fuel + 1) first (encode (vs ++ [']']) ++ rest) =
      .ok ([], encode [']'] ++ rest) := by
  rw [elementsFrom, bind_ok (nextElement_close hv first rest)]
  rfl

theorem elementsFrom_item {α : Type} {item : Reader α} {first : Bool} {lead ws t u : List Char}
    (hl : Lead first lead) (hw : Blanks ws) {x : α} (hx : ReadsItem item t x) {fuel : Nat}
    {xs : List α} {rest rest' : List UInt8} (hend : Ends (encode u ++ rest))
    (h : elementsFrom item fuel false (encode u ++ rest) = .ok (xs, rest')) :
    elementsFrom item (fuel + 1) first (encode (lead ++ ws ++ (t ++ u)) ++ rest) =
      .ok (x :: xs, rest') := by
  obtain ⟨hread, c, v, rfl, hc, hclose⟩ := hx
  rw [elementsFrom, List.cons_append, bind_ok (nextElement_lead hl hw hc hclose (v ++ u) rest)]
  show (item >>= fun x => elementsFrom item fuel false >>= fun xs => pure (x :: xs)) _ = _
  rw [← List.cons_append, encode_append, List.append_assoc, bind_ok (hread _ hend), bind_ok h]
  rfl

/-- A row of items is read up to the bracket behind it. -/
theorem elementsFrom_row {α : Type} {item : Reader α} {xs : List α} {u : List Char}
    (h : Row (fun x t => ReadsItem item t x) xs u) {first : Bool} {lead : List Char}
    (hl : Lead first lead) {fuel : Nat} (hf : u.length + 1 < fuel) (rest : List UInt8) :
    elementsFrom item fuel first (encode (lead ++ (u ++ [']'])) ++ rest) =
      .ok (xs, encode [']'] ++ rest) := by
  induction h generalizing first lead fuel with
  | @last x ws t vs before hx after =>
    -- one round for the item and one for the bracket
    obtain ⟨n, rfl⟩ : ∃ n, fuel = n + 1 + 1 := ⟨fuel - 2, by omega⟩
    have := elementsFrom_item hl before hx (ends_closer after (by decide) [] rest)
      (elementsFrom_close item n false after rest)
    simpa only [List.append_assoc] using this
  | @more x xs ws t vs u before hx after row ih =>
    obtain ⟨n, rfl⟩ : ∃ n, fuel = n + 1 := ⟨fuel - 1, by omega⟩
    have hn : u.length + 1 < n := by
      simp only [List.length_append, List.length_cons] at hf
      omega
    have hnext := ih (Lead.comma after) hn
    rw [List.append_assoc, List.singleton_append] at hnext
    have := elementsFrom_item hl before hx (ends_closer after (by decide) _ rest) hnext
    simpa only [List.append_assoc, List.cons_append, List.nil_append] using this

theorem closeArray_close (rest : List UInt8) :
    closeArray (encode [']'] ++ rest) = .ok ((), rest) := by
  unfold closeArray
  have hlook : look (encode [']'] ++ rest) = .ok (some ']', encode [']'] ++ rest) :=
    look_mark blanks_nil (by decide) [] rest
  rw [bind_ok hlook]
  exact advance_mark (by decide) [] rest

/-- Behind its opening bracket an array is read as the list of its items. -/
theorem reads_elements {α : Type} {item : Reader α} {xs : List α} {t : List Char}
    (ht : ArrayText (fun x t => ReadsItem item t x) xs t) :
    ∃ u, t = '[' :: u ∧ Reads (elements item) u xs := by
  have hbody : ∃ u, t = '[' :: u ∧ ∀ rest fuel, u.length < fuel →
      elementsFrom item fuel true (encode u ++ rest) = .ok (xs, encode [']'] ++ rest) := by
    cases ht with
    | @empty vs hv =>
      refine ⟨vs ++ [']'], rfl, fun rest fuel hf => ?_⟩
      obtain ⟨n, rfl⟩ : ∃ n, fuel = n + 1 := ⟨fuel - 1, by omega⟩
      exact elementsFrom_close item n true hv rest
    | @row _ u hrow =>
      refine ⟨u ++ [']'], rfl, fun rest fuel hf => ?_⟩
      rw [List.length_append] at hf
      exact elementsFrom_row hrow Lead.first hf rest
  obtain ⟨u, rfl, hu⟩ := hbody
  refine ⟨u, rfl, fun rest => ?_⟩
  have hlen := Text.Utf8.length_le_length_encode u
  unfold elements
  rw [bind_ok (r := get) rfl, bind_ok (hu rest _ (by rw [List.length_append]; omega)),
    bind_ok (closeArray_close rest)]
  rfl

/-- An array is read as the list of its items. -/
theorem reads_listOf {α : Type} {item : Reader α} {ws : List Char} (hw : Blanks ws) {xs : List α}
    {t : List Char} (ht : ArrayText (fun x t => ReadsItem item t x) xs t) :
    Reads (listOf item) (ws ++ t) xs := by
  obtain ⟨u, rfl, hread⟩ := reads_elements ht
  intro rest
  unfold listOf
  rw [bind_ok (look_mark hw (by decide) u rest)]
  show (advance >>= fun _ => elements item) _ = _
  rw [bind_ok (advance_mark (by decide) u rest)]
  exact hread rest

/-! ## Objects -/

theorem reads_colon {ws : List Char} (hw : Blanks ws) : Reads colon (ws ++ [':']) () := by
  intro rest
  unfold colon
  rw [bind_ok (look_mark hw (by decide) [] rest)]
  exact advance_mark (by decide) [] rest

/-- The value of a field that has not been read stands behind a colon. -/
theorem reads_once {α : Type} {r : Reader α} {t : List Char} {x : α} (hr : Reads r t x)
    (field : String) : Reads (once field none r) (':' :: t) (some x) := by
  have hcolon : Reads colon [':'] () := reads_colon blanks_nil
  intro rest
  unfold once
  rw [if_neg (by simp), ← List.singleton_append, hcolon.bind_append, bind_ok (hr rest)]
  rfl

theorem nextMember_lead {first : Bool} {lead ws : List Char} (hl : Lead first lead)
    (hw : Blanks ws) (t : List Char) (rest : List UInt8) :
    nextMember first (encode (lead ++ ws ++ '"' :: t) ++ rest) =
      .ok (true, encode ('"' :: t) ++ rest) := by
  unfold nextMember
  cases hl with
  | first =>
    rw [List.nil_append, bind_ok (look_mark hw (by decide) t rest)]
    rfl
  | comma hv =>
    rw [List.append_assoc, List.append_assoc, List.singleton_append,
      bind_ok (look_mark hv (by decide) _ rest)]
    simp only [↓Char.isValue, Char.reduceEq, imp_self, Bool.false_eq_true, ↓reduceIte]
    rw [bind_ok (advance_mark (by decide) _ rest), bind_ok (look_mark hw (by decide) t rest)]
    rfl

theorem nextMember_close {vs : List Char} (hv : Blanks vs) (first : Bool) (rest : List UInt8) :
    nextMember first (encode (vs ++ ['\x7d']) ++ rest) = .ok (false, encode ['\x7d'] ++ rest) := by
  unfold nextMember
  rw [bind_ok (look_mark hv (by decide) _ rest)]
  rfl

section
variable {σ : Type} {step : σ → String → Reader σ}

/-- Members with commas between them, of which `step` makes `b` out of `a`. -/
inductive MemberRow (step : σ → String → Reader σ) : σ → List Char → σ → Prop
  | last {a b : σ} {key : String} {ws k t vs : List Char} (before : Blanks ws)
      (name : StringText key k) (value : ReadsValue (step a key) t b) (after : Blanks vs) :
      MemberRow step a (ws ++ k ++ t ++ vs) b
  | more {a b c : σ} {key : String} {ws k t vs u : List Char} (before : Blanks ws)
      (name : StringText key k) (value : ReadsValue (step a key) t b) (after : Blanks vs)
      (row : MemberRow step b u c) : MemberRow step a (ws ++ k ++ t ++ vs ++ ',' :: u) c

theorem membersFrom_close (fuel : Nat) (first : Bool) (a : σ) {vs : List Char} (hv : Blanks vs)
    (rest : List UInt8) :
    membersFrom step (fuel + 1) first a (encode (vs ++ ['\x7d']) ++ rest) =
      .ok (a, encode ['\x7d'] ++ rest) := by
  rw [membersFrom, bind_ok (nextMember_close hv first rest)]
  rfl

theorem membersFrom_member {first : Bool} {lead ws k t u : List Char} (hl : Lead first lead)
    (hw : Blanks ws) {key : String} (hk : StringText key k) {a b c : σ}
    (hs : ReadsValue (step a key) t b) {fuel : Nat} {rest rest' : List UInt8}
    (hend : Ends (encode u ++ rest))
    (h : membersFrom step fuel false b (encode u ++ rest) = .ok (c, rest')) :
    membersFrom step (fuel + 1) first a (encode (lead ++ ws ++ (k ++ (t ++ u))) ++ rest) =
      .ok (c, rest') := by
  obtain ⟨hkey⟩ := hk
  rw [membersFrom, List.cons_append, List.cons_append, bind_ok (nextMember_lead hl hw _ rest)]
  show (advance >>= fun _ => string >>= fun key => step a key >>= membersFrom step fuel false) _ = _
  rw [bind_ok (advance_mark (by decide) _ rest), (reads_string hkey).bind_append, encode_append,
    List.append_assoc, bind_ok (hs _ hend)]
  exact h

theorem membersFrom_row {a b : σ} {u : List Char} (h : MemberRow step a u b) {first : Bool}
    {lead : List Char} (hl : Lead first lead) {fuel : Nat} (hf : u.length + 1 < fuel)
    (rest : List UInt8) :
    membersFrom step fuel first a (encode (lead ++ (u ++ ['\x7d'])) ++ rest) =
      .ok (b, encode ['\x7d'] ++ rest) := by
  induction h generalizing first lead fuel with
  | @last a b key ws k t vs before name value after =>
    obtain ⟨n, rfl⟩ : ∃ n, fuel = n + 1 + 1 := ⟨fuel - 2, by omega⟩
    have := membersFrom_member hl before name value (ends_closer after (by decide) [] rest)
      (membersFrom_close n false b after rest)
    simpa only [List.append_assoc] using this
  | @more a b c key ws k t vs u before name value after row ih =>
    obtain ⟨n, rfl⟩ : ∃ n, fuel = n + 1 := ⟨fuel - 1, by omega⟩
    have hn : u.length + 1 < n := by
      simp only [List.length_append, List.length_cons] at hf
      omega
    have hnext := ih (Lead.comma after) hn
    rw [List.append_assoc, List.singleton_append] at hnext
    have := membersFrom_member hl before name value (ends_closer after (by decide) _ rest) hnext
    simpa only [List.append_assoc, List.cons_append, List.nil_append] using this

/-- The members of an object are read one after the other, up to and with the closing brace. -/
theorem reads_members {a b : σ} {u : List Char} (h : MemberRow step a u b) :
    Reads (members step a) (u ++ ['\x7d']) b := by
  intro rest
  have hfuel : u.length + 1 < (encode (u ++ ['\x7d']) ++ rest).length + 1 := by
    have := Text.Utf8.length_le_length_encode (u ++ ['\x7d'])
    rw [List.length_append, List.length_singleton] at this
    rw [List.length_append]
    omega
  have hrow := membersFrom_row h Lead.first hfuel rest
  rw [List.nil_append] at hrow
  unfold members
  rw [bind_ok (r := get) rfl, bind_ok hrow, bind_ok (advance_mark (by decide) [] rest)]
  rfl

/-- An object without members leaves the state as it is. -/
theorem reads_members_empty (a : σ) {vs : List Char} (hv : Blanks vs) :
    Reads (members step a) (vs ++ ['\x7d']) a := by
  intro rest
  unfold members
  rw [bind_ok (r := get) rfl, bind_ok (membersFrom_close _ true a hv rest),
    bind_ok (advance_mark (by decide) [] rest)]
  rfl

end

/-- A record is read from an object as its reader reads the members. -/
theorem reads_record {α : Type} (name : String) {ofObject : Reader α} (ofArray : Reader α)
    {ws t : List Char} (hw : Blanks ws) {x : α} (h : Reads ofObject t x) :
    Reads (record name ofObject ofArray) (ws ++ '\x7b' :: t) x := by
  intro rest
  unfold record
  rw [bind_ok (look_mark hw (by decide) t rest)]
  show (advance >>= fun _ => ofObject) _ = _
  rw [bind_ok (advance_mark (by decide) t rest)]
  exact h rest

/-! ## Whole texts -/

theorem dropWhile_encode_blanks {vs : List Char} (hv : Blanks vs) :
    (encode vs).dropWhile isSpace = [] := by
  have := dropWhile_blanks hv []
  rwa [List.append_nil] at this

/-- A whole text is read where a reader leaves nothing but blanks. -/
theorem readAll_eq_ok_iff {α : Type} {r : Reader α} {bs : List UInt8} {x : α} :
    readAll r bs = .ok x ↔ ∃ rest, r bs = .ok (x, rest) ∧ rest.dropWhile isSpace = [] := by
  unfold readAll
  constructor
  · intro h
    cases hr : r bs with
    | error f =>
      rw [hr] at h
      cases h
    | ok p =>
      rw [hr] at h
      dsimp only [bind, Except.bind] at h
      split at h
      · rename_i hrest
        cases h
        exact ⟨p.2, rfl, List.isEmpty_iff.mp hrest⟩
      · cases h
  · rintro ⟨rest, hr, hrest⟩
    rw [hr]
    simp [bind, Except.bind, hrest]

/-- A reader that takes a text reads the whole of it, with blanks behind it. -/
theorem readAll_of_reads {α : Type} {r : Reader α} {t vs : List Char} {x : α} (h : Reads r t x)
    (hv : Blanks vs) : readAll r (encode (t ++ vs)) = .ok x := by
  rw [readAll_eq_ok_iff, encode_append]
  exact ⟨encode vs, h _, dropWhile_encode_blanks hv⟩

end Shorthand.Json
