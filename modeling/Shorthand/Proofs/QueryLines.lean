import Shorthand.Proofs.Margins
import Shorthand.Proofs.QueryTexts

/-!
# Queries line by line

A text of lines may end them with a line feed or with a carriage return and a line feed, each as it
likes, and may leave the last line open (`LinesText`).  It is read as the queries on its lines, the
blank ones apart, whether it comes as a text, a stream or a file (`ofText_linesText`).

Blank lines are those of blanks only, while expansion also trims byte order marks.  So a line that
has a mark but otherwise blanks is read as a query and expands to nothing (`empty_expansion_iff`),
and a mark in front of a text whose first line is blank adds such a query:

    expansions (mark :: cs) = "" :: expansions cs      if cs is empty or its first line is blank
    expansions (mark :: cs) = expansions cs            otherwise
-/

namespace Shorthand

namespace Text

/-! ## Texts of lines -/

/-- What can stand on a line by itself: no line feed, and no carriage return at the end. -/
structure IsLine (line : List Char) : Prop where
  unfed : '\n' ∉ line
  open_end : line.getLast? ≠ some '\r'

/-- The text spells the lines: each is ended by either line break, the last one possibly by none. -/
inductive LinesText : List (List Char) → List Char → Prop
  | none : LinesText [] []
  | last {line : List Char} : IsLine line → LinesText [line] line
  | feed {line rest : List Char} {more : List (List Char)} :
      IsLine line → LinesText more rest → LinesText (line :: more) (line ++ '\n' :: rest)
  | returnFeed {line rest : List Char} {more : List (List Char)} :
      IsLine line → LinesText more rest → LinesText (line :: more) (line ++ '\r' :: '\n' :: rest)

/-- The lines are read as they were spelled.  Only an empty last line without an end cannot be
seen, so any choice of lines without that one is the same. -/
theorem LinesText.filter_lines {ls : List (List Char)} {cs : List Char} (h : LinesText ls cs)
    {p : List Char → Bool} (hp : p [] = false) : (lines cs).filter p = ls.filter p := by
  induction h with
  | none => rfl
  | @last line hline =>
    by_cases hne : line = []
    · subst hne
      simp [lines, hp]
    · rw [lines_of_not_mem hne hline.unfed]
  | @feed line rest more hline _ ih =>
    rw [lines_line hline.unfed hline.open_end, List.filter_cons, List.filter_cons, ih]
  | @returnFeed line rest more hline _ ih =>
    have hbreak : lines ('\r' :: '\n' :: rest) = [] :: lines rest := by simp [lines]
    rw [lines_ended hline.unfed hbreak (by simp), List.filter_cons, List.filter_cons, ih]

/-- A character that begins no line break goes in front of the first line. -/
theorem lines_cons_mark (cs : List Char) :
    lines (byteOrderMark :: cs) =
      match lines cs with
      | [] => [[byteOrderMark]]
      | line :: rest => (byteOrderMark :: line) :: rest :=
  lines_cons (by decide) fun h => absurd h (by decide)

theorem allBlank_eq_false_iff {line : List Char} :
    allBlank line = false ↔ ∃ c ∈ line, isBlank c = false := by
  simp [allBlank]

/-- A byte order mark is no blank. -/
theorem allBlank_eq_false_of_mem {line : List Char} (h : byteOrderMark ∈ line) :
    allBlank line = false :=
  allBlank_eq_false_iff.mpr ⟨byteOrderMark, h, by decide⟩

theorem trimBy_eq_nil_iff {p : Char → Bool} {cs : List Char} :
    trimBy p cs = [] ↔ ∀ c ∈ cs, p c = true := by
  constructor
  · intro h
    obtain ⟨pre, post, he, hpre, hpost⟩ := trimBy_split p cs
    intro c hc
    rw [he, h, List.append_nil] at hc
    exact (List.mem_append.mp hc).elim (hpre c) (hpost c)
  · intro h
    rw [trimBy, List.dropWhile_eq_nil_iff.mpr h]
    rfl

end Text

/-! ## Expansions that are empty -/

/-- Every rule writes something, so that something is left of every text. -/
theorem replaceTokens_eq_nil_iff (cs : List Char) :
    replaceTokens passes.flatten cs = [] ↔ cs = [] := by
  constructor
  · intro h
    cases cs with
    | nil => rfl
    | cons c cs =>
      exfalso
      unfold replaceTokens at h
      rw [replaceTokensFrom] at h
      cases hf : Rule.first? passes.flatten none (c :: cs) with
      | none => simp [hf] at h
      | some p =>
        obtain ⟨r, hr, -, hout, -⟩ := Rule.first?_eq_some hf
        rw [hf] at h
        exact (neat_of_mem hr).ne_nil none (hout ▸ (List.append_eq_nil_iff.mp h).1)
  · rintro rfl
    rfl

/-- An expansion is empty if and only if trimming leaves nothing, which is where there is nothing
but margins. -/
theorem expandText_eq_empty_iff (s : String) :
    (expandText s = "" ↔ trimText s = "") ∧
      (trimText s = "" ↔ ∀ c ∈ s.toList, isMargin c = true) := by
  rw [← String.toList_eq_nil_iff, ← String.toList_eq_nil_iff, toList_expandText, toList_trimText,
    expandChars_eq, replaceTokens_eq_nil_iff]
  exact ⟨Iff.rfl, Text.trimBy_eq_nil_iff⟩

/-- A byte order mark in front of a query does not change its expansion. -/
theorem expandText_mark (line : List Char) :
    expandText (String.ofList (Text.byteOrderMark :: line)) = expandText (String.ofList line) := by
  have htrim : trimQuery (Text.byteOrderMark :: line) = trimQuery line := by
    unfold trimQuery Text.trimBy
    rw [List.dropWhile_cons_of_pos (by decide)]
  simp [← String.toList_inj, expandChars, htrim]

/-- A line that is no blank line although only margins stand on it: blanks, and a byte order mark
at least. -/
def IsMarkedBlank (line : List Char) : Prop :=
  (∀ c ∈ line, isMargin c = true) ∧ Text.byteOrderMark ∈ line

theorem isMarkedBlank_iff {line : List Char} (h : Text.allBlank line = false) :
    IsMarkedBlank line ↔ ∀ c ∈ line, isMargin c = true := by
  refine ⟨And.left, fun hall => ⟨hall, ?_⟩⟩
  obtain ⟨c, hc, hblank⟩ := Text.allBlank_eq_false_iff.mp h
  have hmargin := hall c hc
  rw [isMargin, hblank, Bool.false_or, beq_iff_eq] at hmargin
  exact hmargin ▸ hc

namespace QueryList

open Text (LinesText allBlank isBlank)
open Text.Utf8 (encode)

/-! ## Queries of a text -/

/-- The query of a line. -/
def ofLine (line : List Char) : Query := Query.unnamed (String.ofList line)

/-- The queries on lines: those of the lines with a character that is no blank. -/
def queriesOn (ls : List (List Char)) : List Query :=
  (ls.filter fun line => line.any fun c => !isBlank c).map ofLine

/-- The expansions of the queries of a text. -/
def expansions (cs : List Char) : List String := (ofText cs).map fun q => expandText q.text

theorem ofText_eq (cs : List Char) : ofText cs = queriesOn (Text.lines cs) := by
  have hcontent (line : List Char) : (!allBlank line) = line.any fun c => !isBlank c :=
    List.not_all_eq_any_not
  exact congrArg (List.map ofLine) (List.filter_congr fun line _ => hcontent line)

theorem mem_ofText_iff {q : Query} {cs : List Char} :
    q ∈ ofText cs ↔ ∃ line ∈ Text.lines cs, allBlank line = false ∧ q = ofLine line := by
  simp only [ofText, List.mem_map, List.mem_filter, Bool.not_eq_true', ofLine, and_assoc,
    eq_comm (a := q)]

theorem empty_expansion_iff (cs : List Char) :
    (∃ q ∈ ofText cs, expandText q.text = "") ↔ ∃ line ∈ Text.lines cs, IsMarkedBlank line := by
  have hempty : ∀ line : List Char, allBlank line = false →
      (expandText (ofLine line).text = "" ↔ IsMarkedBlank line) := by
    intro line hline
    obtain ⟨h1, h2⟩ := expandText_eq_empty_iff (ofLine line).text
    rw [h1, h2, isMarkedBlank_iff hline, ofLine, Query.unnamed, String.toList_ofList]
  constructor
  · rintro ⟨q, hq, he⟩
    obtain ⟨line, hmem, hline, rfl⟩ := mem_ofText_iff.mp hq
    exact ⟨line, hmem, (hempty line hline).mp he⟩
  · rintro ⟨line, hmem, hmarked⟩
    have hline := Text.allBlank_eq_false_of_mem hmarked.2
    exact ⟨ofLine line, mem_ofText_iff.mpr ⟨line, hmem, hline, rfl⟩, (hempty line hline).mpr hmarked⟩

theorem expandText_of_allBlank {line : List Char} (h : allBlank line = true) :
    expandText (String.ofList line) = "" := by
  obtain ⟨h1, h2⟩ := expandText_eq_empty_iff (String.ofList line)
  rw [h1, h2, String.toList_ofList]
  intro c hc
  rw [isMargin, List.all_eq_true.mp h c hc, Bool.true_or]

/-- The expansions of lines, the blank ones apart. -/
def expansionsOf (ls : List (List Char)) : List String :=
  (ls.filter fun line => !allBlank line).map fun line => expandText (String.ofList line)

theorem expansions_eq (cs : List Char) : expansions cs = expansionsOf (Text.lines cs) :=
  List.map_map

theorem expansionsOf_cons (line : List Char) (rest : List (List Char)) :
    expansionsOf (line :: rest) =
      if allBlank line then expansionsOf rest
      else expandText (String.ofList line) :: expansionsOf rest := by
  unfold expansionsOf
  cases h : allBlank line <;> simp [h]

/-- With a byte order mark in front, a line is no blank line, and expands as before. -/
theorem expansionsOf_mark (line : List Char) (rest : List (List Char)) :
    expansionsOf ((Text.byteOrderMark :: line) :: rest) =
      expandText (String.ofList line) :: expansionsOf rest := by
  rw [expansionsOf_cons, Text.allBlank_eq_false_of_mem List.mem_cons_self,
    if_neg Bool.false_ne_true, expandText_mark]

/-- A byte order mark in front of a text goes to its first line. -/
theorem expansions_mark (cs : List Char) :
    expansions (Text.byteOrderMark :: cs) =
      if (Text.lines cs).head?.all allBlank then "" :: expansions cs else expansions cs := by
  rw [expansions_eq, expansions_eq, Text.lines_cons_mark]
  cases Text.lines cs with
  | nil => exact (expansionsOf_mark [] []).trans (by rw [expandText_of_allBlank rfl]; rfl)
  | cons line rest =>
    have hhead : (line :: rest).head?.all allBlank = allBlank line := rfl
    refine (expansionsOf_mark line rest).trans ?_
    rw [hhead, expansionsOf_cons]
    by_cases hline : allBlank line = true
    · rw [if_pos hline, if_pos hline, expandText_of_allBlank hline]
    · rw [if_neg hline, if_neg hline]

/-! ## Top theorems -/

/-- However its lines end, a text is read as the queries on its lines, from a stream and from a
file as from the text itself. -/
theorem ofText_linesText {ls : List (List Char)} {cs : List Char} (h : LinesText ls cs) :
    ofText cs = queriesOn ls ∧ ofStream (encode cs) = .ok (queriesOn ls) ∧
      ∀ path, isJsonPath path = false → ofFile path (encode cs) = .ok (queriesOn ls) := by
  have htext : ofText cs = queriesOn ls := by
    rw [ofText_eq]
    exact congrArg (List.map ofLine) (h.filter_lines rfl)
  rw [ofStream_encode, htext]
  refine ⟨rfl, rfl, fun path hpath => ?_⟩
  rw [ofFile_encode hpath, htext]

/-- Both line breaks, a return inside a line, blank lines, and a last line that is left open. -/
theorem ofText_linesText_mixed :
    ofFile "lists/json" (encode " a\r\n\nb\rc\n\u3000\t\r\n:key ".toList) =
      .ok [.unnamed " a", .unnamed "b\rc", .unnamed ":key "] := by
  have h : LinesText [" a".toList, "".toList, "b\rc".toList, "\u3000\t".toList, ":key ".toList]
      " a\r\n\nb\rc\n\u3000\t\r\n:key ".toList :=
    .returnFeed ⟨by decide, by decide⟩ (.feed ⟨by decide, by decide⟩ (.feed ⟨by decide, by decide⟩
      (.returnFeed ⟨by decide, by decide⟩ (.last ⟨by decide, by decide⟩))))
  exact (ofText_linesText h).2.2 "lists/json" (by decide)

/-- Queries of a text are empty, trimmed or expanded, just where a line has a byte order mark and
otherwise blanks; and a mark in front of a text adds an empty query if its first line is blank or
missing, and changes nothing otherwise. -/
theorem expansions_of_marks (cs : List Char) :
    (∀ q ∈ ofText cs, (expandText q.text = "" ↔ trimText q.text = "")) ∧
      ((∀ q ∈ ofText cs, trimText q.text ≠ "") ↔ ∀ line ∈ Text.lines cs, ¬ IsMarkedBlank line) ∧
      expansions (Text.byteOrderMark :: cs) =
        if (Text.lines cs).head?.all allBlank then "" :: expansions cs else expansions cs := by
  refine ⟨fun q _ => (expandText_eq_empty_iff q.text).1, ?_, expansions_mark cs⟩
  have h := not_congr (empty_expansion_iff cs)
  simp only [not_exists, not_and] at h
  rw [← h]
  exact forall₂_congr fun q _ => not_congr (expandText_eq_empty_iff q.text).1.symm

/-- A line with a byte order mark only is a query that expands to nothing, also where the mark was
put in front of a text without such a query. -/
theorem expansions_markedLine :
    (∃ q ∈ ofText "\uFEFF\na".toList, trimText q.text = "" ∧ expandText q.text = "") ∧
      expansions "\na".toList = ["a"] ∧ expansions "\uFEFF\na".toList = ["", "a"] := by
  decide

end QueryList

end Shorthand
