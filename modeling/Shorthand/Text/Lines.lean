/-!
# Lines

A line ends with a line feed, or with a carriage return and a line feed; the last line may have
no end. A carriage return anywhere else is a character of its line.

    lines "a\r\nb\rc\n" = ["a", "b\rc"]

`escapeBreaks` puts a text on one line: it writes carriage returns and line feeds as a backslash
and a letter.
-/

namespace Shorthand.Text

/-! ## Algorithm -/

/-- The lines of a text, without their ends. -/
def lines : List Char → List (List Char)
  | [] => []
  | '\r' :: '\n' :: cs => [] :: lines cs
  | '\n' :: cs => [] :: lines cs
  | c :: cs =>
    match lines cs with
    | [] => [[c]]
    | line :: rest => (c :: line) :: rest

/-- Writes a carriage return as `\r` and a line feed as `\n`. -/
def escapeBreaks : List Char → List Char
  | [] => []
  | c :: cs =>
    if c = '\r' then '\\' :: 'r' :: escapeBreaks cs
    else if c = '\n' then '\\' :: 'n' :: escapeBreaks cs
    else c :: escapeBreaks cs

/-! ## Lemmas -/

@[simp]
theorem lines_feed (cs : List Char) : lines ('\n' :: cs) = [] :: lines cs := by
  simp [lines]

/-- No line feed is left in an escaped text. -/
theorem not_mem_escapeBreaks_feed (cs : List Char) : '\n' ∉ escapeBreaks cs := by
  induction cs with
  | nil => simp [escapeBreaks]
  | cons c cs ih =>
    by_cases hr : c = '\r'
    · simp [escapeBreaks, hr, ih]
    · by_cases hn : c = '\n'
      · simp [escapeBreaks, hn, ih]
      · simp [escapeBreaks, hr, hn, ih, Ne.symm hn]

end Shorthand.Text
