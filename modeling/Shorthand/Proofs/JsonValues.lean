import Shorthand.Proofs.JsonNumbers

/-!
# Values of JSON

A value is a word, a number, a string, an array or an object, with blanks between its marks
(`ValueText`).  Every such text is read as the value that it writes, as long as the reader has room
for the brackets that are open at once:

    value room (t ++ rest) = (v, rest)      where t writes v, v.depth ≤ room and a value may end
                                            before rest                         (readsItem_value)
-/

namespace Shorthand.Json

open Text.Utf8 (encode)

/-! ## Nesting -/

mutual

/-- How many brackets of a value are open at once. -/
def Value.depth : Value → Nat
  | .array items => itemsDepth items + 1
  | .object members => membersDepth members + 1
  | _ => 0

/-- The depth of the deepest item. -/
def itemsDepth : List Value → Nat
  | [] => 0
  | v :: vs => max v.depth (itemsDepth vs)

/-- The depth of the deepest value of a member. -/
def membersDepth : List (String × Value) → Nat
  | [] => 0
  | (_, v) :: ms => max v.depth (membersDepth ms)

end

theorem depth_le_itemsDepth {v : Value} {vs : List Value} (h : v ∈ vs) :
    v.depth ≤ itemsDepth vs := by
  induction vs with
  | nil => cases h
  | cons w vs ih =>
    rw [itemsDepth]
    cases h with
    | head => exact Nat.le_max_left _ _
    | tail _ h => exact Nat.le_trans (ih h) (Nat.le_max_right _ _)

theorem depth_le_membersDepth {m : String × Value} {ms : List (String × Value)} (h : m ∈ ms) :
    m.2.depth ≤ membersDepth ms := by
  induction ms with
  | nil => cases h
  | cons m' ms ih =>
    rw [membersDepth]
    cases h with
    | head => exact Nat.le_max_left _ _
    | tail _ h => exact Nat.le_trans (ih h) (Nat.le_max_right _ _)

/-! ## Grammar -/

/-- A key and a value with a colon between them. -/
inductive MemberText (Item : Value → List Char → Prop) : String × Value → List Char → Prop
  | pair {key : String} {v : Value} {k ws vs t : List Char} (name : StringText key k)
      (before : Blanks ws) (after : Blanks vs) (value : Item v t) :
      MemberText Item (key, v) (k ++ (ws ++ ':' :: (vs ++ t)))

/-- The text of a value.  A numeral has to be one that the reader finds in range. -/
inductive ValueText : Value → List Char → Prop
  | null : ValueText .null "null".toList
  | boolean (b : Bool) : ValueText (.boolean b) (if b then "true".toList else "false".toList)
  | number {n : Numeral} {x : Number} {t : List Char} (h : NumeralText n t)
      (range : n.value = .ok x) : ValueText (.number x) t
  | string {s : String} {t : List Char} (h : StringText s t) : ValueText (.string s) t
  | array {items : List Value} {t : List Char} (h : ArrayText ValueText items t) :
      ValueText (.array items) t
  | empty {ws : List Char} (blanks : Blanks ws) : ValueText (.object []) ('\x7b' :: ws ++ ['\x7d'])
  | object {ms : List (String × Value)} {u : List Char} (row : Row (MemberText ValueText) ms u) :
      ValueText (.object ms) ('\x7b' :: u ++ ['\x7d'])

/-- What opens a number differs from every other mark. -/
theorem ne_of_opens {c d : Char} (hc : (c = '-' || c.isDigit) = true)
    (hd : (d = '-' || d.isDigit) = false) : c ≠ d := by
  rintro rfl
  rw [hd] at hc
  cases hc

/-- A value starts with a mark, which opens an array only where the value is one. -/
theorem ValueText.head {v : Value} {t : List Char} (h : ValueText v t) :
    ∃ c u, t = c :: u ∧ isMark c = true ∧ c ≠ ']' ∧ (c = '[' → ∃ items, v = .array items) := by
  cases h with
  | null => exact ⟨'n', _, rfl, by decide, by decide, fun h => absurd h (by decide)⟩
  | boolean b =>
    cases b with
    | true => exact ⟨'t', _, rfl, by decide, by decide, fun h => absurd h (by decide)⟩
    | false => exact ⟨'f', _, rfl, by decide, by decide, fun h => absurd h (by decide)⟩
  | number h range =>
    obtain ⟨c, u, rfl, hmark, hc⟩ := h.head
    exact ⟨c, u, rfl, hmark, ne_of_opens hc (by decide),
      fun h => absurd h (ne_of_opens hc (by decide))⟩
  | string h =>
    obtain ⟨hu⟩ := h
    exact ⟨'"', _, rfl, by decide, by decide, fun h => absurd h (by decide)⟩
  | array h =>
    cases h with
    | empty => exact ⟨'[', _, rfl, by decide, by decide, fun _ => ⟨_, rfl⟩⟩
    | row => exact ⟨'[', _, rfl, by decide, by decide, fun _ => ⟨_, rfl⟩⟩
  | empty => exact ⟨'\x7b', _, rfl, by decide, by decide, fun h => absurd h (by decide)⟩
  | object => exact ⟨'\x7b', _, rfl, by decide, by decide, fun h => absurd h (by decide)⟩

/-! ## One value -/

section
variable {ws : List Char} (hw : Blanks ws) (inner? : Option (Reader Value))
include hw

theorem readsValue_null : ReadsValue (valueWith inner?) (ws ++ "null".toList) .null := by
  intro rest _
  unfold valueWith
  rw [show "null".toList = 'n' :: ['u', 'l', 'l'] from rfl,
    bind_ok (look_mark hw (by decide) _ rest)]
  exact reads_wordValue (by decide) Value.null rest

theorem readsValue_boolean (b : Bool) :
    ReadsValue (valueWith inner?) (ws ++ if b then "true".toList else "false".toList)
      (.boolean b) := by
  intro rest _
  unfold valueWith
  cases b with
  | true =>
    rw [if_pos rfl, show "true".toList = 't' :: ['r', 'u', 'e'] from rfl,
      bind_ok (look_mark hw (by decide) _ rest)]
    exact reads_wordValue (by decide) (Value.boolean true) rest
  | false =>
    rw [if_neg (by decide), show "false".toList = 'f' :: ['a', 'l', 's', 'e'] from rfl,
      bind_ok (look_mark hw (by decide) _ rest)]
    exact reads_wordValue (by decide) (Value.boolean false) rest

theorem readsValue_string {s : String} {t : List Char} (ht : StringText s t) :
    ReadsValue (valueWith inner?) (ws ++ t) (.string s) := by
  intro rest _
  obtain ⟨hu⟩ := ht
  unfold valueWith
  rw [List.cons_append, bind_ok (look_mark hw (by decide) _ rest)]
  show (advance >>= fun _ => string >>= fun s => pure (Value.string s)) _ = _
  rw [bind_ok (advance_mark (by decide) _ rest), bind_ok (reads_string hu rest)]
  rfl

theorem readsValue_numberValue {n : Numeral} {x : Number} {t : List Char} (ht : NumeralText n t)
    (hx : n.value = .ok x) : ReadsValue (valueWith inner?) (ws ++ t) (.number x) := by
  intro rest hrest
  have hnumber := readsValue_number ht hx rest hrest
  obtain ⟨c, u, rfl, hmark, hc⟩ := ht.head
  unfold valueWith
  rw [bind_ok (look_mark hw hmark u rest)]
  -- every other kind of value has a mark of its own
  have hnull : c ≠ 'n' := ne_of_opens hc (by decide)
  have htrue : c ≠ 't' := ne_of_opens hc (by decide)
  have hfalse : c ≠ 'f' := ne_of_opens hc (by decide)
  have hstring : c ≠ '"' := ne_of_opens hc (by decide)
  have harray : c ≠ '[' := ne_of_opens hc (by decide)
  have hobject : c ≠ '\x7b' := ne_of_opens hc (by decide)
  simp only
  rw [if_pos hc, bind_ok hnumber]
  rfl

theorem readsValue_array {inner : Reader Value} {items : List Value} {t : List Char}
    (ht : ArrayText (fun v t => ReadsItem inner t v) items t) :
    ReadsValue (valueWith (some inner)) (ws ++ t) (.array items) := by
  intro rest _
  obtain ⟨u, rfl, hread⟩ := reads_elements ht
  unfold valueWith
  rw [bind_ok (look_mark hw (by decide) u rest)]
  show (advance >>= fun _ => elements inner >>= fun items => pure (Value.array items)) _ = _
  rw [bind_ok (advance_mark (by decide) u rest), bind_ok (hread rest)]
  rfl

theorem readsValue_object {inner : Reader Value} {ms : List (String × Value)} {u : List Char}
    (hu : Reads (members (memberStep inner) []) u ms) :
    ReadsValue (valueWith (some inner)) (ws ++ '\x7b' :: u) (.object ms) := by
  intro rest _
  unfold valueWith
  rw [bind_ok (look_mark hw (by decide) u rest)]
  show (advance >>= fun _ => members (memberStep inner) [] >>= fun ms => pure (Value.object ms)) _ =
      _
  rw [bind_ok (advance_mark (by decide) u rest), bind_ok (hu rest)]
  rfl

end

/-! ## Nested values -/

/-- Members are put one behind the other. -/
theorem memberRow_append {inner : Reader Value} {ms : List (String × Value)} {u : List Char}
    (h : Row (MemberText fun v t => ∀ ws, Blanks ws → ReadsValue inner (ws ++ t) v) ms u)
    (acc : List (String × Value)) : MemberRow (memberStep inner) acc u (acc ++ ms) := by
  have hstep : ∀ (acc : List (String × Value)) (key : String) (v : Value) (ws vs t : List Char),
      Blanks ws → ReadsValue inner (vs ++ t) v →
      ReadsValue (memberStep inner acc key) (ws ++ ':' :: (vs ++ t)) (acc ++ [(key, v)]) := by
    intro acc key v ws vs t hw hv rest hrest
    unfold memberStep
    rw [← List.singleton_append, ← List.append_assoc, (reads_colon hw).bind_append,
      bind_ok (hv rest hrest)]
    rfl
  induction h generalizing acc with
  | @last m ws t vs before item after =>
    obtain @⟨key, v, k, ws', vs', t', name, hbefore, hafter, hv⟩ := item
    have := MemberRow.last before name (hstep acc key v ws' vs' t' hbefore (hv vs' hafter)) after
    simpa only [List.append_assoc] using this
  | @more m ms ws t vs u before item after row ih =>
    obtain @⟨key, v, k, ws', vs', t', name, hbefore, hafter, hv⟩ := item
    have hrow := ih (acc ++ [(key, v)])
    have := MemberRow.more before name (hstep acc key v ws' vs' t' hbefore (hv vs' hafter)) after
      hrow
    simpa only [List.append_assoc, List.singleton_append] using this

/-- A value is read, behind blanks, where there is room for its brackets. -/
theorem readsValue_value {v : Value} {t : List Char} (h : ValueText v t) {room : Nat}
    (hroom : v.depth ≤ room) {ws : List Char} (hw : Blanks ws) :
    ReadsValue (value room) (ws ++ t) v := by
  -- over the room that is left: what stands between brackets has less of it
  induction room generalizing v t ws with
  | zero =>
    rw [value]
    cases h with
    | null => exact readsValue_null hw none
    | boolean b => exact readsValue_boolean hw none b
    | number h range => exact readsValue_numberValue hw none h range
    | string h => exact readsValue_string hw none h
    | array => simp [Value.depth] at hroom
    | empty => simp [Value.depth] at hroom
    | object => simp [Value.depth] at hroom
  | succ room ih =>
    rw [value]
    cases h with
    | null => exact readsValue_null hw _
    | boolean b => exact readsValue_boolean hw _ b
    | number h range => exact readsValue_numberValue hw _ h range
    | string h => exact readsValue_string hw _ h
    | @array items t h =>
      rw [Value.depth] at hroom
      have hitems : ArrayText (fun v t => ReadsItem (value room) t v) (items.map id) t := by
        refine h.map fun v hv t ht => ?_
        have hdepth : v.depth ≤ room :=
          Nat.le_trans (depth_le_itemsDepth hv) (Nat.le_of_succ_le_succ hroom)
        obtain ⟨c, u, hcu, hmark, hclose, -⟩ := ht.head
        exact ⟨ih ht hdepth blanks_nil, c, u, hcu, hmark, hclose⟩
      rw [List.map_id] at hitems
      exact readsValue_array hw hitems
    | empty blanks => exact readsValue_object hw (reads_members_empty [] blanks)
    | @object ms u row =>
      rw [Value.depth] at hroom
      have hmembers : Row (MemberText fun v t => ∀ ws, Blanks ws →
          ReadsValue (value room) (ws ++ t) v) (ms.map id) u := by
        refine row.map fun m hm t ht => ?_
        have hdepth : m.2.depth ≤ room :=
          Nat.le_trans (depth_le_membersDepth hm) (Nat.le_of_succ_le_succ hroom)
        obtain ⟨name, before, after, hv⟩ := ht
        exact .pair name before after fun ws hws => ih hv hdepth hws
      rw [List.map_id] at hmembers
      exact readsValue_object hw (reads_members (memberRow_append hmembers []))

theorem readsItem_value {v : Value} {t : List Char} (h : ValueText v t) {room : Nat}
    (hroom : v.depth ≤ room) : ReadsItem (value room) t v := by
  obtain ⟨c, u, hcu, hmark, hclose, -⟩ := h.head
  exact ⟨readsValue_value h hroom blanks_nil, c, u, hcu, hmark, hclose⟩

/-! ## Values of the wrong kind -/

/-- A reader that reads nothing. -/
def Refuses {α : Type} (r : Reader α) : Prop := ∀ bs x rest, r bs ≠ .ok (x, rest)

theorem refuses_throw {α : Type} (f : Fault) : Refuses (throw f : Reader α) := by
  intro bs x rest h
  cases h

theorem refuses_bind {α β : Type} (r : Reader α) {f : α → Reader β} (h : ∀ x, Refuses (f x)) :
    Refuses (r >>= f) := by
  intro bs y rest hread
  obtain ⟨x, mid, -, hf⟩ := bind_eq_ok_iff.mp hread
  exact h x mid y rest hf

/-- A value of the wrong kind is refused, whatever it is. -/
theorem refuses_mismatch {α : Type} (expected : String) :
    Refuses (mismatch expected : Reader α) := by
  refine refuses_bind peek fun c? => ?_
  split
  · exact refuses_bind _ fun _ => refuses_throw _
  · exact refuses_bind _ fun _ => refuses_throw _
  · exact refuses_bind _ fun _ => refuses_throw _
  · exact refuses_bind _ fun _ => refuses_bind _ fun _ => refuses_throw _
  · exact refuses_throw _
  · exact refuses_throw _
  · split
    · exact refuses_bind _ fun _ => refuses_throw _
    · exact refuses_throw _
  · exact refuses_throw _

end Shorthand.Json
