/-!
# UTF-8

`encode` writes characters as octets, `decode` reads them back. Where the octets are no UTF-8,
`decode` tells the longest valid start and how many octets after it can begin no character; where
the octets end inside a character that could still be completed it tells that instead.

    decode (encode cs) = .ok cs
-/

namespace Shorthand.Text.Utf8

/-- Where and how a text stops being UTF-8. -/
structure Breach where
  /-- The number of octets before it, all of them valid. -/
  validUpTo : Nat
  /-- The number of octets that cannot stand there; none where the text ends too soon. -/
  length : Option Nat
  deriving DecidableEq, Repr

def Breach.message (b : Breach) : String :=
  match b.length with
  | some n => s!"invalid utf-8 sequence of {n} bytes from index {b.validUpTo}"
  | none => s!"incomplete utf-8 byte sequence from index {b.validUpTo}"

/-! ## Writing -/

def encodeChar (c : Char) : List UInt8 :=
  let n := c.toNat
  if n < 0x80 then [n.toUInt8]
  else if n < 0x800 then [(0xC0 + n / 0x40).toUInt8, (0x80 + n % 0x40).toUInt8]
  else if n < 0x10000 then
    [(0xE0 + n / 0x1000).toUInt8, (0x80 + n / 0x40 % 0x40).toUInt8, (0x80 + n % 0x40).toUInt8]
  else
    [(0xF0 + n / 0x40000).toUInt8, (0x80 + n / 0x1000 % 0x40).toUInt8,
      (0x80 + n / 0x40 % 0x40).toUInt8, (0x80 + n % 0x40).toUInt8]

def encode (cs : List Char) : List UInt8 := cs.flatMap encodeChar

/-! ## Reading -/

/-- An octet that continues a character. -/
def isTail (b : UInt8) : Bool := 0x80 ≤ b && b ≤ 0xBF

/-- An octet that may follow the first octet `a` of a character of three octets. -/
def isSecondOfThree (a b : UInt8) : Bool :=
  if a == 0xE0 then 0xA0 ≤ b && b ≤ 0xBF
  else if a == 0xED then 0x80 ≤ b && b ≤ 0x9F
  else isTail b

/-- An octet that may follow the first octet `a` of a character of four octets. -/
def isSecondOfFour (a b : UInt8) : Bool :=
  if a == 0xF0 then 0x90 ≤ b && b ≤ 0xBF
  else if a == 0xF4 then 0x80 ≤ b && b ≤ 0x8F
  else isTail b

/-- The character whose octets carry these bits, most significant first. -/
def charOf (first : Nat) (tails : List UInt8) : Char :=
  Char.ofNat (tails.foldl (fun n b => n * 0x40 + (b.toNat - 0x80)) first)

/-- Reads a text that stands `i` octets into the whole. -/
def decodeFrom (i : Nat) : List UInt8 → Except Breach (List Char)
  | [] => .ok []
  | a :: rest =>
    if a < 0x80 then (decodeFrom (i + 1) rest).map (Char.ofNat a.toNat :: ·)
    else if 0xC2 ≤ a && a ≤ 0xDF then
      match rest with
      | [] => .error ⟨i, none⟩
      | b :: rest =>
        if isTail b then
          (decodeFrom (i + 2) rest).map (charOf (a.toNat - 0xC0) [b] :: ·)
        else .error ⟨i, some 1⟩
    else if 0xE0 ≤ a && a ≤ 0xEF then
      match rest with
      | [] => .error ⟨i, none⟩
      | [b] => .error ⟨i, if isSecondOfThree a b then none else some 1⟩
      | b :: c :: rest =>
        if isSecondOfThree a b then
          if isTail c then
            (decodeFrom (i + 3) rest).map (charOf (a.toNat - 0xE0) [b, c] :: ·)
          else .error ⟨i, some 2⟩
        else .error ⟨i, some 1⟩
    else if 0xF0 ≤ a && a ≤ 0xF4 then
      match rest with
      | [] => .error ⟨i, none⟩
      | [b] => .error ⟨i, if isSecondOfFour a b then none else some 1⟩
      | [b, c] =>
        .error ⟨i, if isSecondOfFour a b then (if isTail c then none else some 2) else some 1⟩
      | b :: c :: d :: rest =>
        if isSecondOfFour a b then
          if isTail c then
            if isTail d then
              (decodeFrom (i + 4) rest).map (charOf (a.toNat - 0xF0) [b, c, d] :: ·)
            else .error ⟨i, some 3⟩
          else .error ⟨i, some 2⟩
        else .error ⟨i, some 1⟩
    else .error ⟨i, some 1⟩

def decode (bs : List UInt8) : Except Breach (List Char) := decodeFrom 0 bs

/-! ## Texts -/

def ofString (s : String) : List UInt8 := encode s.toList

def toString? (bs : List UInt8) : Except Breach String := (decode bs).map String.ofList

/-! ## Lemmas -/

theorem encode_cons (c : Char) (cs : List Char) : encode (c :: cs) = encodeChar c ++ encode cs := by
  simp [encode]

@[simp]
theorem encode_append (cs ds : List Char) : encode (cs ++ ds) = encode cs ++ encode ds := by
  simp [encode]

end Shorthand.Text.Utf8
