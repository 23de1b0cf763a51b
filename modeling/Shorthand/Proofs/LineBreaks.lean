import Shorthand.Proofs.Simultaneous
import Shorthand.Proofs.Margins
import Shorthand.QueryList
import Shorthand.Report.Lines

/-!
# Line breaks

Lines that are written one after the other are read as those lines (`lines_linesOf`).  Symbols and
what they expand to have no line breaks, so an expansion has just those that stand inside its query:

    c ∈ expandText q ↔ c ∈ trimText q        for c a line feed or a carriage return
                                                                        (mem_expandText_iff)
-/

namespace Shorthand

namespace Text

/-! ## Lines -/

/-- True of the characters that break lines. -/
def IsLineBreak (c : Char) : Prop := c = '\r' ∨ c = '\n'

instance (c : Char) : Decidable (IsLineBreak c) := inferInstanceAs (Decidable (_ ∨ _))

theorem not_isLineBreak_of_all {cs : List Char}
    (h : cs.all (fun c => !decide (IsLineBreak c)) = true) :
    ∀ c ∈ cs, ¬ IsLineBreak c := by
  simpa using h

/-- A character that begins no line break belongs to the line. -/
theorem lines_cons {c : Char} {cs : List Char} (hc : c ≠ '\n')
    (hnext : c = '\r' → cs.head? ≠ some '\n') :
    lines (c :: cs) =
      match lines cs with
      | [] => [[c]]
      | line :: rest => (c :: line) :: rest := by
  have hpair : ∀ ds, c = '\r' → cs = '\n' :: ds → False := by
    intro ds hr hds
    exact hnext hr (by rw [hds]; rfl)
  exact lines.eq_4 c cs hpair hc

/-- A line without a feed in it is read up to the line break behind it, with which a return at its
end must not pair. -/
theorem lines_ended {line tail rest : List Char} (hfeed : '\n' ∉ line)
    (htail : lines tail = [] :: lines rest)
    (hreturn : tail.head? = some '\n' → line.getLast? ≠ some '\r') :
    lines (line ++ tail) = line :: lines rest := by
  induction line with
  | nil => exact htail
  | cons c line ih =>
    have hc : c ≠ '\n' := fun h => hfeed (h ▸ List.mem_cons_self)
    have hline : '\n' ∉ line := fun h => hfeed (List.mem_cons_of_mem c h)
    have hnext : c = '\r' → (line ++ tail).head? ≠ some '\n' := by
      rintro rfl hhead
      cases line with
      | nil => exact hreturn hhead rfl
      | cons d line => exact hline (Option.some.inj hhead ▸ List.mem_cons_self)
    have hlast : tail.head? = some '\n' → line.getLast? ≠ some '\r' := by
      intro ht h
      exact hreturn ht (by rw [List.getLast?_cons, h]; rfl)
    rw [List.cons_append, lines_cons hc hnext, ih hline hlast]

/-- A line without a feed in it and without a return at its end is read up to the feed behind it. -/
theorem lines_line {line : List Char} (hfeed : '\n' ∉ line) (hreturn : line.getLast? ≠ some '\r')
    (rest : List Char) : lines (line ++ '\n' :: rest) = line :: lines rest :=
  lines_ended hfeed (lines_feed rest) fun _ => hreturn

/-- A text without a feed in it is one line, if it is not empty. -/
theorem lines_of_not_mem {line : List Char} (hne : line ≠ []) (hfeed : '\n' ∉ line) :
    lines line = [line] := by
  induction line with
  | nil => exact absurd rfl hne
  | cons c line ih =>
    have hc : c ≠ '\n' := fun h => hfeed (h ▸ List.mem_cons_self)
    have hline : '\n' ∉ line := fun h => hfeed (List.mem_cons_of_mem c h)
    rw [lines_cons hc fun _ h => hline (List.mem_of_mem_head? h)]
    cases line with
    | nil => rfl
    | cons d line => rw [ih (List.cons_ne_nil d line) hline]

/-- Texts one after the other, each with a line feed. -/
def linesOf (texts : List (List Char)) : List Char := texts.flatMap fun text => text ++ ['\n']

theorem length_le_length_linesOf (texts : List (List Char)) :
    texts.length ≤ (linesOf texts).length := by
  induction texts with
  | nil => exact Nat.le_refl 0
  | cons t ts ih =>
    simp only [linesOf, List.flatMap_cons, List.length_append, List.length_cons] at ih ⊢
    omega

/-- Texts without line breaks are the lines that are read. -/
theorem lines_linesOf {texts : List (List Char)} (h : ∀ text ∈ texts, ∀ c ∈ text, ¬ IsLineBreak c) :
    lines (linesOf texts) = texts := by
  induction texts with
  | nil => rfl
  | cons text texts ih =>
    have htext := h text List.mem_cons_self
    have hfeed : '\n' ∉ text := fun hc => htext _ hc (.inr rfl)
    have hreturn : text.getLast? ≠ some '\r' := fun hc =>
      htext _ (List.mem_of_getLast? hc) (.inl rfl)
    show lines ((text ++ ['\n']) ++ linesOf texts) = _
    rw [List.append_assoc, List.singleton_append, lines_line hfeed hreturn,
      ih fun t ht => h t (List.mem_cons_of_mem text ht)]

/-! ## Escapes -/

theorem not_mem_escapeBreaks_return (cs : List Char) : '\r' ∉ escapeBreaks cs := by
  induction cs with
  | nil => exact List.not_mem_nil
  | cons c cs ih =>
    by_cases hr : c = '\r'
    · simp [escapeBreaks, hr, ih]
    · by_cases hn : c = '\n'
      · simp [escapeBreaks, hn, ih]
      · simp [escapeBreaks, hr, hn, ih, Ne.symm hr]

theorem not_mem_escapeBreaks {c : Char} (hc : IsLineBreak c) (cs : List Char) :
    c ∉ escapeBreaks cs := by
  rcases hc with rfl | rfl
  · exact not_mem_escapeBreaks_return cs
  · exact not_mem_escapeBreaks_feed cs

/-- A text without line breaks is not changed by escaping, and no other is left as it is. -/
theorem escapeBreaks_eq_self_iff {cs : List Char} :
    escapeBreaks cs = cs ↔ ∀ c ∈ cs, ¬ IsLineBreak c := by
  constructor
  · intro h c hc hbreak
    exact not_mem_escapeBreaks hbreak cs (h.symm ▸ hc)
  · intro h
    induction cs with
    | nil => rfl
    | cons c cs ih =>
      have hc := h c List.mem_cons_self
      rw [escapeBreaks, if_neg fun e => hc (.inl e), if_neg fun e => hc (.inr e),
        ih fun d hd => h d (List.mem_cons_of_mem c hd)]

/-- Escaping makes a text longer by one character for each line break. -/
theorem length_escapeBreaks (cs : List Char) :
    (escapeBreaks cs).length = cs.length + cs.countP (IsLineBreak ·) := by
  induction cs with
  | nil => rfl
  | cons c cs ih =>
    by_cases hr : c = '\r'
    · simp [escapeBreaks, IsLineBreak, hr, ih]
      omega
    · by_cases hn : c = '\n'
      · simp [escapeBreaks, IsLineBreak, hn, ih]
        omega
      · simp [escapeBreaks, IsLineBreak, hr, hn, ih]
        omega

end Text

/-! ## Expansions -/

open Text (IsLineBreak)

/-- Neither a symbol nor what it expands to has a line break. -/
theorem Expands.not_isLineBreak {before : Option Char} {token rest out : List Char}
    (h : Expands before token rest out) {c : Char} (hc : c ∈ token ∨ c ∈ out) :
    ¬ IsLineBreak c := by
  have hall : ∀ r ∈ passes.flatten, ∀ b ∈ [none, some '.'],
      (r.token ++ r.output b).all (fun c => !decide (IsLineBreak c)) = true := by decide
  obtain ⟨r, hr, rfl, -, rfl⟩ := expands_iff.mp h
  obtain ⟨b, hb, hout⟩ := exists_neighbour before
  rw [(lexical_of_mem hr).output_congr hout] at hc
  exact Text.not_isLineBreak_of_all (hall r hr b hb) c (List.mem_append.mpr hc)

theorem Rewritten.mem_iff {before : Option Char} {cs out : List Char} (h : Rewritten before cs out)
    {c : Char} (hc : IsLineBreak c) : c ∈ out ↔ c ∈ cs := by
  induction h with
  | done => exact Iff.rfl
  | symbol hx _ ih =>
    have hout := fun hmem => hx.not_isLineBreak (.inr hmem) hc
    have htoken := fun hmem => hx.not_isLineBreak (.inl hmem) hc
    rw [List.mem_append, List.mem_append, or_iff_right hout, or_iff_right htoken, ih]
  | copy _ _ ih => rw [List.mem_cons, List.mem_cons, ih]

/-- The line breaks of an expansion are those inside its query. -/
theorem mem_expandText_iff (query : String) {c : Char} (hc : IsLineBreak c) :
    c ∈ (expandText query).toList ↔ c ∈ (trimText query).toList := by
  have hrewritten := (rewritten_iff_eq_replaceTokensFrom none (trimQuery query.toList) _).mpr rfl
  rw [toList_expandText, toList_trimText, expandChars_eq]
  exact hrewritten.mem_iff hc

theorem mem_of_mem_trimText {query : String} {c : Char} (h : c ∈ (trimText query).toList) :
    c ∈ query.toList := by
  obtain ⟨pre, post, he, -, -⟩ := Text.trimBy_split isMargin query.toList
  rw [toList_trimText] at h
  rw [he]
  exact List.mem_append_left post (List.mem_append_right pre h)

end Shorthand
