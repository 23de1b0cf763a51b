/-!
# Classes of characters and trimming

A class of characters is a predicate; large ones are given by the ranges of their code points, in
ascending order. Trimming drops the characters of a class from both ends of a text.

    trimBy p cs = cs without its longest run of p at the start and at the end
-/

namespace Shorthand.Text

/-! ## Classes -/

/-- True of a code point in one of the ranges; a range holds both its ends. -/
def inRanges (ranges : List (Nat × Nat)) (n : Nat) : Bool :=
  ranges.any fun r => r.1 ≤ n && n ≤ r.2

/-- The 25 characters with the Unicode property White_Space. -/
def isBlank (c : Char) : Bool :=
  let n := c.toNat
  (0x09 ≤ n && n ≤ 0x0D) || n == 0x20 || n == 0x85 || n == 0xA0 || n == 0x1680 ||
    (0x2000 ≤ n && n ≤ 0x200A) || n == 0x2028 || n == 0x2029 || n == 0x202F ||
    n == 0x205F || n == 0x3000

/-- The byte order mark, U+FEFF. -/
def byteOrderMark : Char := '\uFEFF'

/-- An ASCII word character: a letter, a digit or an underscore. A letter outside ASCII is none. -/
def isWord (c : Char) : Bool := c.isAlphanum || c == '_'

/-! ## Trimming -/

/-- Drops the characters of the class `p` from both ends. -/
def trimBy (p : Char → Bool) (cs : List Char) : List Char :=
  ((cs.dropWhile p).reverse.dropWhile p).reverse

def trim (cs : List Char) : List Char := trimBy isBlank cs

/-- A text of blanks only, the empty text among them. -/
def allBlank (cs : List Char) : Bool := cs.all isBlank

end Shorthand.Text
