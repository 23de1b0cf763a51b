import Shorthand.Proofs.QueryLines
import Shorthand.Report.Render

/-!
# Lines of reports and listings

A text report escapes the line breaks inside an expansion, as by a pass for carriage returns and one
for line feeds (`escapePasses`), so it has a line for each query and can be read as a list of
queries again (`ofFile_render_txt`).

A listing escapes those of a query and of its expansion, but not those of a name: it has a line for
each query just where no name has a line break (`listing_lines_iff`).

    feeds of listing qs   = number of qs + feeds in their names
    returns of listing qs = returns in their names
-/

namespace Shorthand

namespace Text

/-! ## Line breaks -/

/-- Each text adds what it has, and a feed. -/
theorem count_linesOf (c : Char) (texts : List (List Char)) :
    (linesOf texts).count c = texts.length * ['\n'].count c + texts.flatten.count c := by
  induction texts with
  | nil => simp [linesOf]
  | cons text texts ih =>
    show ((text ++ ['\n']) ++ linesOf texts).count c =
      (texts.length + 1) * ['\n'].count c + (text ++ texts.flatten).count c
    rw [List.count_append, List.count_append, List.count_append, ih, Nat.add_mul, Nat.one_mul]
    omega

end Text

open Text (IsLineBreak linesOf)

/-! ## Escapes as passes -/

/-- A token of one character is replaced wherever it stands. -/
theorem replaceTokensFrom_single {token : String} {c : Char} (htoken : token.toList = [c])
    (canonical : String) (b : Option Char) (cs : List Char) :
    replaceTokensFrom [.literal token canonical] 0 b cs =
      cs.flatMap fun d => if d = c then canonical.toList else [d] := by
  induction cs generalizing b with
  | nil => rfl
  | cons d cs ih =>
    rw [List.flatMap_cons]
    by_cases hd : d = c
    · have hfirst : Rule.first? [.literal token canonical] b ([c] ++ cs) =
          some (canonical.toList, [c].length) := by
        simp [Rule.first?, Rule.output?, Rule.literal, htoken]
      rw [if_pos hd, hd, ← ih (some c)]
      exact replaceTokensFrom_token (List.cons_ne_nil c []) hfirst
    · rw [if_neg hd, replaceTokensFrom_copy, ih]
      · rfl
      · intro r hr ha
        rw [List.mem_singleton.mp hr] at ha
        obtain ⟨rest, hrest, -⟩ := ha
        rw [show (Rule.literal token canonical).token = [c] from htoken] at hrest
        exact hd (List.cons.inj hrest).1

/-- The passes that escape line breaks: carriage returns first, then line feeds. -/
def escapePasses : List (List Rule) := [[.literal "\r" "\\r"], [.literal "\n" "\\n"]]

/-- Nothing that the first pass writes is found by the second, so that one reading does for both. -/
theorem applyPasses_escapePasses (cs : List Char) :
    applyPasses escapePasses cs = Text.escapeBreaks cs := by
  show replaceTokensFrom _ 0 none (replaceTokensFrom _ 0 none cs) = _
  rw [replaceTokensFrom_single (c := '\n') rfl, replaceTokensFrom_single (c := '\r') rfl,
    List.flatMap_assoc]
  induction cs with
  | nil => rfl
  | cons c cs ih =>
    rw [Text.escapeBreaks, List.flatMap_cons, ih]
    by_cases hr : c = '\r'
    · rw [if_pos hr, if_pos hr]
      rfl
    · by_cases hn : c = '\n'
      · rw [if_neg hr, if_neg hr, if_pos hn, hn]
        rfl
      · rw [if_neg hr, if_neg hr, if_neg hn]
        simp [hn]

/-! ## Reports -/

theorem Report.toText_eq (r : Report) :
    r.toText = linesOf (r.queries.map fun q => oneLine q.expanded) := by
  unfold Report.toText linesOf
  rw [List.flatMap_map]

theorem Report.unbroken_lines (r : Report) :
    ∀ line ∈ r.queries.map fun q => oneLine q.expanded, ∀ c ∈ line, ¬ IsLineBreak c :=
  List.forall_mem_map.mpr fun q _ _ hmem hc =>
    Text.not_mem_escapeBreaks hc q.expanded.toList hmem

/-- The only line breaks of a text report are the feeds behind its queries. -/
theorem Report.count_toText (r : Report) {c : Char} (hc : IsLineBreak c) :
    r.toText.count c = r.queries.length * ['\n'].count c := by
  have hnone : (r.queries.map fun q => oneLine q.expanded).flatten.count c = 0 := by
    rw [List.count_eq_zero, List.mem_flatten]
    rintro ⟨line, hline, hmem⟩
    exact r.unbroken_lines line hline c hmem hc
  rw [r.toText_eq, Text.count_linesOf, hnone, List.length_map, Nat.add_zero]

theorem Report.ofText_toText (r : Report) :
    QueryList.ofText r.toText =
      QueryList.queriesOn (r.queries.map fun q => oneLine q.expanded) := by
  rw [QueryList.ofText_eq, r.toText_eq, Text.lines_linesOf r.unbroken_lines]

/-! ## Listings -/

/-- The columns of a query in a listing: the name, the query, and what it expands to. -/
def ExpandedQuery.columns (q : ExpandedQuery) : List Char :=
  (q.name.getD "-").toList ++ '\t' :: oneLine q.text ++ "\t=> ".toList ++ oneLine q.expanded

/-- The names of queries, one after the other. -/
def namesOf (qs : List ExpandedQuery) : List Char := qs.flatMap fun q => (q.name.getD "").toList

theorem listing_eq (qs : List ExpandedQuery) : listing qs = linesOf (qs.map (·.columns)) := by
  unfold listing linesOf
  rw [List.flatMap_map]
  rfl

/-- The line breaks of a query's columns are those of its name. -/
theorem ExpandedQuery.count_columns (q : ExpandedQuery) {c : Char} (hc : IsLineBreak c) :
    q.columns.count c = (q.name.getD "").toList.count c := by
  have hplain : ∀ c, IsLineBreak c → "-".toList.count c = 0 ∧ "\t".toList.count c = 0 ∧
      "\t=> ".toList.count c = 0 := by
    rintro c (rfl | rfl) <;> decide
  obtain ⟨hdash, htab, harrow⟩ := hplain c hc
  have hname : (q.name.getD "-").toList.count c = (q.name.getD "").toList.count c := by
    cases q.name with
    | none => exact hdash
    | some name => rfl
  have hline : ∀ s : String, (oneLine s).count c = 0 :=
    fun s => List.count_eq_zero.mpr (Text.not_mem_escapeBreaks hc s.toList)
  show ((q.name.getD "-").toList ++ ("\t".toList ++ oneLine q.text) ++ "\t=> ".toList ++
    oneLine q.expanded).count c = _
  simp only [List.count_append, hname, htab, harrow, hline, Nat.add_zero]

theorem count_listing (qs : List ExpandedQuery) {c : Char} (hc : IsLineBreak c) :
    (listing qs).count c = qs.length * ['\n'].count c + (namesOf qs).count c := by
  have hnames : (qs.map (·.columns)).flatten.count c = (namesOf qs).count c := by
    unfold namesOf
    rw [List.count_flatten, List.count_flatMap, List.map_map]
    exact congrArg List.sum (List.map_congr_left fun q _ => q.count_columns hc)
  rw [listing_eq, Text.count_linesOf, hnames, List.length_map]

theorem mem_namesOf_iff {qs : List ExpandedQuery} {c : Char} :
    c ∈ namesOf qs ↔ ∃ q ∈ qs, ∃ name ∈ q.name, c ∈ name.toList := by
  unfold namesOf
  rw [List.mem_flatMap]
  refine exists_congr fun q => and_congr_right fun _ => ?_
  cases q.name <;> simp

/-- Where no name has a line break, each query has the line with its columns. -/
theorem lines_listing {qs : List ExpandedQuery} (h : ∀ c ∈ namesOf qs, ¬ IsLineBreak c) :
    Text.lines (listing qs) = qs.map (·.columns) := by
  rw [listing_eq]
  refine Text.lines_linesOf (List.forall_mem_map.mpr fun q hq c hmem hc => ?_)
  have hname : 0 < (q.name.getD "").toList.count c := by
    rw [← q.count_columns hc]
    exact List.count_pos_iff.mpr hmem
  exact h c (List.mem_flatMap.mpr ⟨q, hq, List.count_pos_iff.mp hname⟩) hc

/-! ## Top theorems -/

/-- A text report has one feed for each query and no return.  It is read as a list of the expansions
with their line breaks escaped, the blank ones apart, and those without a line break stand in it as
they are. -/
theorem ofFile_render_txt (r : Report) :
    (r.render .txt).count 0x0A = r.queries.length ∧ 0x0D ∉ r.render .txt ∧
      (∀ path, QueryList.isJsonPath path = false →
        QueryList.ofFile path (r.render .txt) =
          .ok (QueryList.queriesOn
            (r.queries.map fun q => applyPasses escapePasses q.expanded.toList))) ∧
      ∀ q ∈ r.queries, applyPasses escapePasses q.expanded.toList = q.expanded.toList ↔
        ∀ c ∈ q.expanded.toList, ¬ IsLineBreak c := by
  have hrender : r.render .txt = Text.Utf8.encode r.toText := rfl
  simp only [hrender, applyPasses_escapePasses]
  refine ⟨?_, ?_, fun path hpath => ?_, fun q _ => Text.escapeBreaks_eq_self_iff⟩
  · have hfeed := Text.Utf8.count_encode (show '\n'.toNat < 0x80 by decide) r.toText
    rw [r.count_toText (.inr rfl)] at hfeed
    exact hfeed.trans (Nat.mul_one _)
  · have hreturn := Text.Utf8.count_encode (show '\r'.toNat < 0x80 by decide) r.toText
    rw [r.count_toText (.inl rfl)] at hreturn
    exact List.count_eq_zero.mp (hreturn.trans (Nat.mul_zero _))
  · rw [QueryList.ofFile_encode hpath, r.ofText_toText]
    rfl

/-- Both line breaks inside an expansion, one that is blank, and one that ends with a blank. -/
theorem ofFile_render_txt_broken :
    QueryList.ofFile "out/expanded.txt"
        (Report.render ⟨"", [⟨none, "", "a\r\n\\n", true⟩, ⟨some "b", "", " \t", false⟩,
          ⟨none, "this", " $ ", true⟩]⟩ .txt) =
      .ok [.unnamed "a\\r\\n\\n", .unnamed " $ "] :=
  (ofFile_render_txt _).2.2.1 "out/expanded.txt" (by decide)

/-- A listing has the line breaks of the names besides one feed for each query.  So it has one line
for each query, with the query's columns, if and only if no name has a line break. -/
theorem listing_lines_iff (qs : List ExpandedQuery) :
    (listing qs).count '\n' = qs.length + (namesOf qs).count '\n' ∧
      (listing qs).count '\r' = (namesOf qs).count '\r' ∧
      ((listing qs).count '\n' = qs.length ∧ '\r' ∉ listing qs ∧
          Text.lines (listing qs) = qs.map (·.columns) ↔
        ∀ q ∈ qs, ∀ name ∈ q.name, ∀ c ∈ name.toList, ¬ IsLineBreak c) := by
  have hfeeds : (listing qs).count '\n' = qs.length + (namesOf qs).count '\n' := by
    rw [count_listing qs (.inr rfl)]
    exact congrArg (· + _) (Nat.mul_one _)
  have hreturns : (listing qs).count '\r' = (namesOf qs).count '\r' := by
    rw [count_listing qs (.inl rfl)]
    exact Nat.zero_add _
  have hnames : (∀ q ∈ qs, ∀ name ∈ q.name, ∀ c ∈ name.toList, ¬ IsLineBreak c) ↔
      ∀ c ∈ namesOf qs, ¬ IsLineBreak c := by
    constructor
    · intro h c hc
      obtain ⟨q, hq, name, hname, hmem⟩ := mem_namesOf_iff.mp hc
      exact h q hq name hname c hmem
    · exact fun h q hq name hname c hc => h c (mem_namesOf_iff.mpr ⟨q, hq, name, hname, hc⟩)
  refine ⟨hfeeds, hreturns, ?_⟩
  rw [hnames]
  constructor
  · rintro ⟨hcount, hreturn, -⟩ c hc (rfl | rfl)
    · rw [← List.count_eq_zero, hreturns, List.count_eq_zero] at hreturn
      exact hreturn hc
    · have := List.count_pos_iff.mpr hc
      omega
  · intro h
    refine ⟨?_, ?_, lines_listing h⟩
    · have : (namesOf qs).count '\n' = 0 := List.count_eq_zero.mpr fun hc => h _ hc (.inr rfl)
      omega
    · rw [← List.count_eq_zero, hreturns]
      exact List.count_eq_zero.mpr fun hc => h _ hc (.inl rfl)

/-- A feed in the name of the only query gives two lines, and a return stays in the listing. -/
theorem listing_brokenName :
    (listing [Query.expand ⟨some "a\nb", "x"⟩]).count '\n' = 2 ∧
      Text.lines (listing [Query.expand ⟨some "a\nb", "x"⟩]) =
        ["a".toList, "b\tx\t=> x".toList] ∧
      '\r' ∈ listing [Query.expand ⟨some "a\rb", "x"⟩] := by
  decide

end Shorthand
