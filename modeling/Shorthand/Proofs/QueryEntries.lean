import Mathlib.Data.List.Forall2
import Shorthand.Proofs.JsonValues
import Shorthand.Proofs.NumberRange
import Shorthand.QueryList

/-!
# Entries of a list of queries

An entry is a string, an object with a query and perhaps a name, or a pair of a name and a query
(`IsEntry`).  Reading a file of entries is reading an array of values and then asking each of them
for its query:

    entryOf? v = some q  ↔  IsEntry v q                                   (entryOf?_eq_some_iff)
    ofFile path t = qs   ↔  t writes an array whose items are the entries of qs     (ofFile_json)
-/

namespace Shorthand.QueryList

open Json (Value Blanks ValueText blanks_nil)
open Text.Utf8 (encode)

/-! ## Entries -/

/-- The name that a value gives: a string gives one, null gives none. -/
inductive NameValue : Value → Option String → Prop
  | null : NameValue .null none
  | string (s : String) : NameValue (.string s) (some s)

/-- How often a key occurs. -/
def occurrences (key : String) (members : List (String × Value)) : Nat :=
  (members.map Prod.fst).count key

/-- The entries of queries.  Keys of an object other than `query` and `name` say nothing. -/
inductive IsEntry : Value → Query → Prop
  | text (s : String) : IsEntry (.string s) ⟨none, s⟩
  | unnamed {members : List (String × Value)} {s : String}
      (once : occurrences "query" members = 1) (query : ("query", .string s) ∈ members)
      (absent : occurrences "name" members = 0) : IsEntry (.object members) ⟨none, s⟩
  | named {members : List (String × Value)} {s : String} {v : Value} {n : Option String}
      (once : occurrences "query" members = 1) (query : ("query", .string s) ∈ members)
      (atMostOnce : occurrences "name" members = 1) (name : ("name", v) ∈ members)
      (h : NameValue v n) : IsEntry (.object members) ⟨n, s⟩
  | pair {v : Value} {n : Option String} (h : NameValue v n) (s : String) :
      IsEntry (.array [v, .string s]) ⟨n, s⟩

theorem nameOf?_eq_some_iff {v : Value} {n : Option String} :
    nameOf? v = some n ↔ NameValue v n := by
  constructor
  · intro h
    unfold nameOf? at h
    split at h
    · cases h
      exact .null
    · cases h
      exact .string _
    · cases h
  · rintro (_ | _)
    · rfl
    · rfl

theorem length_valuesOf (key : String) (members : List (String × Value)) :
    (valuesOf key members).length = occurrences key members := by
  unfold valuesOf occurrences
  rw [List.length_map, List.count, List.countP_map, List.countP_eq_length_filter]
  rfl

theorem mem_valuesOf {key : String} {members : List (String × Value)} {v : Value} :
    v ∈ valuesOf key members ↔ (key, v) ∈ members := by
  simp [valuesOf]

/-- A key has no value where it does not occur. -/
theorem valuesOf_eq_nil_iff {key : String} {members : List (String × Value)} :
    valuesOf key members = [] ↔ occurrences key members = 0 := by
  rw [← length_valuesOf, List.length_eq_zero_iff]

/-- A key has one value where it occurs once. -/
theorem valuesOf_eq_singleton_iff {key : String} {members : List (String × Value)} {v : Value} :
    valuesOf key members = [v] ↔ occurrences key members = 1 ∧ (key, v) ∈ members := by
  rw [← length_valuesOf, ← mem_valuesOf]
  constructor
  · intro h
    rw [h]
    exact ⟨rfl, List.mem_singleton_self v⟩
  · rintro ⟨hlen, hmem⟩
    obtain ⟨w, hw⟩ := List.length_eq_one_iff.mp hlen
    rw [hw] at hmem ⊢
    rw [List.mem_singleton.mp hmem]

theorem isEntry_of_entryOf? {v : Value} {q : Query} (h : entryOf? v = some q) : IsEntry v q := by
  unfold entryOf? at h
  split at h
  · cases h
    exact .text _
  · obtain ⟨n, hn, rfl⟩ := Option.map_eq_some_iff.mp h
    exact .pair (nameOf?_eq_some_iff.mp hn) _
  · split at h
    · rename_i hquery hname
      cases h
      obtain ⟨hone, hmem⟩ := valuesOf_eq_singleton_iff.mp hquery
      exact .unnamed hone hmem (valuesOf_eq_nil_iff.mp hname)
    · rename_i hquery hname
      obtain ⟨n, hn, rfl⟩ := Option.map_eq_some_iff.mp h
      obtain ⟨hone, hmem⟩ := valuesOf_eq_singleton_iff.mp hquery
      obtain ⟨hname, hvalue⟩ := valuesOf_eq_singleton_iff.mp hname
      exact .named hone hmem hname hvalue (nameOf?_eq_some_iff.mp hn)
    · cases h
  · cases h

theorem entryOf?_of_isEntry {v : Value} {q : Query} (h : IsEntry v q) : entryOf? v = some q := by
  unfold entryOf?
  cases h with
  | text s => rfl
  | unnamed once query absent =>
    have hquery := valuesOf_eq_singleton_iff.mpr ⟨once, query⟩
    have hname := valuesOf_eq_nil_iff.mpr absent
    simp only [hquery, hname]
    rfl
  | named once query atMostOnce name h =>
    have hquery := valuesOf_eq_singleton_iff.mpr ⟨once, query⟩
    have hname := valuesOf_eq_singleton_iff.mpr ⟨atMostOnce, name⟩
    simp only [hquery, hname, nameOf?_eq_some_iff.mpr h]
    rfl
  | pair h s =>
    simp only [nameOf?_eq_some_iff.mpr h]
    rfl

/-- The values that give a query are the entries of that query. -/
theorem entryOf?_eq_some_iff {v : Value} {q : Query} : entryOf? v = some q ↔ IsEntry v q :=
  ⟨isEntry_of_entryOf?, entryOf?_of_isEntry⟩

/-! ## Reading entries -/

section
variable {bs rest : List UInt8}

/-- An entry is read as a value, and is the entry of the query that is given. -/
theorem entry_eq_ok_iff {q : Query} :
    entry bs = .ok (q, rest) ↔
      ∃ v, Json.value (Json.maxDepth - 1) bs = .ok (v, rest) ∧ IsEntry v q := by
  unfold entry
  rw [Json.bind_eq_ok_iff]
  constructor
  · rintro ⟨v, mid, hv, hentry⟩
    cases hq : entryOf? v with
    | none =>
      rw [hq] at hentry
      cases hentry
    | some q' =>
      rw [hq] at hentry
      cases hentry
      exact ⟨v, hv, entryOf?_eq_some_iff.mp hq⟩
  · rintro ⟨v, hv, hentry⟩
    refine ⟨v, rest, hv, ?_⟩
    rw [entryOf?_eq_some_iff.mpr hentry]
    rfl

/-- Entries are read as values, each of them the entry of a query. -/
theorem elementsFrom_entry_iff {fuel : Nat} {first : Bool} {qs : List Query} :
    Json.elementsFrom entry fuel first bs = .ok (qs, rest) ↔
      ∃ items, Json.elementsFrom (Json.value (Json.maxDepth - 1)) fuel first bs =
        .ok (items, rest) ∧ List.Forall₂ IsEntry items qs := by
  induction fuel generalizing first bs qs with
  | zero => exact ⟨fun h => (nomatch h), fun ⟨_, h, _⟩ => (nomatch h)⟩
  | succ fuel ih =>
    rw [Json.elementsFrom, Json.elementsFrom, Json.bind_eq_ok_iff]
    constructor
    · rintro ⟨more, mid, hmore, h⟩
      cases more with
      | false =>
        cases h
        exact ⟨[], by rw [Json.bind_ok hmore]; rfl, .nil⟩
      | true =>
        obtain ⟨q, mid', hq, h⟩ := Json.bind_eq_ok_iff.mp h
        obtain ⟨qs', mid'', hqs, h⟩ := Json.bind_eq_ok_iff.mp h
        cases h
        obtain ⟨v, hv, hentry⟩ := entry_eq_ok_iff.mp hq
        obtain ⟨items, hitems, hall⟩ := ih.mp hqs
        refine ⟨v :: items, ?_, .cons hentry hall⟩
        rw [Json.bind_ok hmore, if_pos rfl, Json.bind_ok hv, Json.bind_ok hitems]
        rfl
    · rintro ⟨items, h, hall⟩
      obtain ⟨more, mid, hmore, h⟩ := Json.bind_eq_ok_iff.mp h
      refine ⟨more, mid, hmore, ?_⟩
      cases more with
      | false =>
        cases h
        cases hall
        rfl
      | true =>
        obtain ⟨v, mid', hv, h⟩ := Json.bind_eq_ok_iff.mp h
        obtain ⟨items', mid'', hitems, h⟩ := Json.bind_eq_ok_iff.mp h
        cases h
        cases hall with
        | cons hentry hall =>
          rw [if_pos rfl, Json.bind_ok (entry_eq_ok_iff.mpr ⟨v, hv, hentry⟩),
            Json.bind_ok (ih.mpr ⟨items', hitems, hall⟩)]
          rfl

theorem elements_entry_iff {qs : List Query} :
    Json.elements entry bs = .ok (qs, rest) ↔
      ∃ items, Json.elements (Json.value (Json.maxDepth - 1)) bs = .ok (items, rest) ∧
        List.Forall₂ IsEntry items qs := by
  unfold Json.elements
  constructor
  · intro h
    obtain ⟨bs', mid, hget, h⟩ := Json.bind_eq_ok_iff.mp h
    obtain ⟨qs', mid', hqs, h⟩ := Json.bind_eq_ok_iff.mp h
    obtain ⟨u, mid'', hclose, h⟩ := Json.bind_eq_ok_iff.mp h
    cases h
    obtain ⟨items, hitems, hall⟩ := elementsFrom_entry_iff.mp hqs
    refine ⟨items, ?_, hall⟩
    rw [Json.bind_ok hget, Json.bind_ok hitems, Json.bind_ok hclose]
    rfl
  · rintro ⟨items, h, hall⟩
    obtain ⟨bs', mid, hget, h⟩ := Json.bind_eq_ok_iff.mp h
    obtain ⟨items', mid', hitems, h⟩ := Json.bind_eq_ok_iff.mp h
    obtain ⟨u, mid'', hclose, h⟩ := Json.bind_eq_ok_iff.mp h
    cases h
    rw [Json.bind_ok hget, Json.bind_ok (elementsFrom_entry_iff.mpr ⟨items, hitems, hall⟩),
      Json.bind_ok hclose]
    rfl

end

/-! ## Files of entries -/

/-- A value that lists the entries of queries. -/
def IsEntryList (v : Value) (qs : List Query) : Prop :=
  ∃ items, v = .array items ∧ List.Forall₂ IsEntry items qs

section
variable {v : Value} {t ws vs : List Char} (ht : ValueText v t) (hdepth : v.depth ≤ Json.maxDepth)
  (hw : Blanks ws) (hv : Blanks vs)
include ht hw

/-- Only an array is read as a list. -/
theorem listOf_ne_ok {α : Type} {item : Json.Reader α} (h : ¬ ∃ items, v = .array items)
    {xs : List α} {rest rest' : List UInt8} :
    Json.listOf item (encode (ws ++ t) ++ rest) ≠ .ok (xs, rest') := by
  obtain ⟨c, u, rfl, hmark, -, harray⟩ := ht.head
  unfold Json.listOf
  rw [Json.bind_ok (Json.look_mark hw hmark u rest)]
  generalize hnext : some c = next
  split
  · cases hnext
  · cases hnext
    exact absurd (harray rfl) h
  · exact Json.refuses_mismatch _ _ xs rest'

include hdepth hv

/-- What is read from the text of a value are the queries that the value lists. -/
theorem ofJson_eq_ok_iff {qs : List Query} :
    ofJson (encode (ws ++ t ++ vs)) = .ok qs ↔ IsEntryList v qs := by
  unfold ofJson
  rw [Json.readAll_eq_ok_iff, Text.Utf8.encode_append]
  by_cases harray : ∃ items, v = .array items
  · obtain ⟨items, rfl⟩ := harray
    cases ht with
    | array h =>
      have hitems : Json.ArrayText
          (fun v t => Json.ReadsItem (Json.value (Json.maxDepth - 1)) t v) (items.map id) t := by
        refine h.map fun v hv t ht => Json.readsItem_value ht ?_
        have := Json.depth_le_itemsDepth hv
        rw [Value.depth] at hdepth
        omega
      rw [List.map_id] at hitems
      obtain ⟨u, rfl, hread⟩ := Json.reads_elements hitems
      have hlist : Json.listOf entry (encode (ws ++ '[' :: u) ++ encode vs) =
          Json.elements entry (encode u ++ encode vs) := by
        unfold Json.listOf
        rw [Json.bind_ok (Json.look_mark hw (by decide) u _)]
        show (Json.advance >>= fun _ => Json.elements entry) _ = _
        rw [Json.bind_ok (Json.advance_mark (by decide) u _)]
      rw [hlist]
      constructor
      · rintro ⟨rest, h, -⟩
        obtain ⟨items', hitems', hall⟩ := elements_entry_iff.mp h
        rw [hread] at hitems'
        cases hitems'
        exact ⟨items, rfl, hall⟩
      · rintro ⟨items', hsame, hall⟩
        cases hsame
        exact ⟨encode vs, elements_entry_iff.mpr ⟨items, hread _, hall⟩,
          Json.dropWhile_encode_blanks hv⟩
  · constructor
    · rintro ⟨rest, hread, -⟩
      exact absurd hread (listOf_ne_ok ht hw harray)
    · rintro ⟨items, rfl, -⟩
      exact absurd ⟨items, rfl⟩ harray

end

/-- **Files of entries.**  A file whose extension is `json`, in any case, gives queries where it
holds an array of their entries, and is refused otherwise.  Its numbers are such as the reader finds
in range. -/
theorem ofFile_json {path : String} {extension : List Char}
    (hpath : Path.extension? path = some extension)
    (hjson : extension.map Char.toLower = "json".toList) {v : Value} {t ws vs : List Char}
    (ht : ValueText v t) (hdepth : v.depth ≤ Json.maxDepth) (hw : Blanks ws) (hv : Blanks vs) :
    (∀ qs, ofFile path (encode (ws ++ t ++ vs)) = .ok qs ↔ IsEntryList v qs) ∧
      ((¬ ∃ qs, IsEntryList v qs) →
        ∃ f, ofFile path (encode (ws ++ t ++ vs)) = .error (.serialization f)) := by
  have hisJson : isJsonPath path = true := by
    rw [isJsonPath, hpath]
    simp [hjson]
  unfold ofFile
  rw [if_pos hisJson]
  simp only [← ofJson_eq_ok_iff ht hdepth hw hv]
  cases hread : ofJson (encode (ws ++ t ++ vs)) with
  | ok qs =>
    exact ⟨fun qs' => by simp [Except.mapError], fun h => absurd ⟨qs, rfl⟩ h⟩
  | error f => exact ⟨fun qs' => by simp [Except.mapError], fun _ => ⟨f, rfl⟩⟩

/-- An object with a key that says nothing and occurs twice, and a pair. -/
theorem ofFile_json_twoEntries :
    ofFile "list.JSON"
      (encode "[\x7b\"n\":1e308,\"query\":\"a\",\"n\":null\x7d, [\"b\",\"\"]]".toList) =
      .ok [⟨none, "a"⟩, ⟨some "b", ""⟩] := by
  have hnumeral : Json.NumeralText ⟨false, [1], [], some (false, [3, 0, 8])⟩ "1e308".toList :=
    @Json.NumeralText.parts false [1] [] _ ['1'] [] "e308".toList (.digits (by decide) (by decide))
      .absent (@Json.ExponentText.present 'e' false [3, 0, 8] [] "308".toList (.inl rfl) .absent
        (by decide) (by decide))
  have hrange : (Json.Numeral.mk false [1] [] (some (false, [3, 0, 8]))).magnitude ≤
      Json.thirdLargest := by
    have hnat : 1 * 10 ^ 308 ≤ Json.thirdLargest := by decide +kernel
    show ((1 : ℕ) : ℚ) * 10 ^ ((308 : ℕ) : ℤ) ≤ _
    rw [zpow_natCast]
    exact_mod_cast hnat
  obtain ⟨x, hx⟩ := Json.Numeral.exists_value (by simp; decide) hrange
  have hnumber : ValueText (.number x) "1e308".toList := .number hnumeral hx
  have hmember : ∀ (key : String) (v : Value) (t : List Char), ValueText v t →
      Json.MemberText ValueText (key, v) (Json.quote key ++ ([] ++ ':' :: ([] ++ t))) :=
    fun key _ _ h => .pair (Json.stringText_quote key) blanks_nil blanks_nil h
  have hstring : ∀ s : String, ValueText (.string s) (Json.quote s) :=
    fun s => .string (Json.stringText_quote s)
  have hobject := ValueText.object
    (.more blanks_nil (hmember "n" _ _ hnumber) blanks_nil
      (.more blanks_nil (hmember "query" _ _ (hstring "a")) blanks_nil
        (.last blanks_nil (hmember "n" _ _ .null) blanks_nil)))
  have hpair := ValueText.array
    (.row (.more blanks_nil (hstring "b") blanks_nil (.last blanks_nil (hstring "") blanks_nil)))
  have hspace : Blanks [' '] := by simp [Blanks]
  have htext := ValueText.array
    (.row (.more blanks_nil hobject blanks_nil (.last hspace hpair blanks_nil)))
  have hdepth : 2 ≤ Json.maxDepth := by decide
  refine ((@ofFile_json "list.JSON" "JSON".toList (by decide) (by decide) _ _ [] [] htext hdepth
    blanks_nil blanks_nil).1 _).mpr ⟨_, rfl, .cons ?_ (.cons ?_ .nil)⟩
  · exact .unnamed (by simp [occurrences]) (by simp) (by simp [occurrences])
  · exact .pair (.string "b") ""

/-- A number within the range of 64-bit floating point numbers that the reader finds out of
range: it takes the first nineteen digits for an integer, and rounding their product with a power of
ten goes beyond the largest number. -/
theorem ofFile_nearLargest :
    Json.NumeralText ⟨false, [1], [7, 9, 7, 6, 9, 3, 1, 3, 4, 8, 6, 2, 3, 1, 5, 7, 0, 0],
        some (false, [3, 0, 8])⟩ "1.797693134862315700e308".toList ∧
      1797693134862315700 * 10 ^ 290 ≤ (2 ^ 53 - 1) * 2 ^ 971 ∧
      ofFile "list.json"
        (encode "[\x7b\"query\":\"q\",\"n\":1.797693134862315700e308\x7d]".toList) =
        .error (.serialization .numberOutOfRange) := by
  refine ⟨?_, by decide +kernel, by decide +kernel⟩
  exact @Json.NumeralText.parts false [1] _ _ ['1'] ".797693134862315700".toList "e308".toList
    (.digits (by decide) (by decide)) (.present (by decide) (by decide))
    (@Json.ExponentText.present 'e' false [3, 0, 8] [] "308".toList (.inl rfl) .absent (by decide)
      (by decide))

end Shorthand.QueryList
