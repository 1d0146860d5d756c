/-!
Characters: ranges of code points, lengths and cuts in bytes of the UTF-8 form, and values of
digits.
-/

namespace TemplateFill.Text

def inRanges (ranges : List (Nat × Nat)) (code : Nat) : Bool :=
  ranges.any fun range => range.1 ≤ code && code ≤ range.2

/-! ### Bytes -/

def byteLength : List Char → Nat
  | [] => 0
  | c :: rest => c.utf8Size + byteLength rest

def replacementCharacter : Char := '\ufffd'

/-- The first bytes of a text, at most as many as given. A character that does not fit whole shows
as one replacement character. -/
def takeBytes : Nat → List Char → List Char
  | 0, _ => []
  | _, [] => []
  | limit + 1, c :: rest =>
      if c.utf8Size ≤ limit + 1 then c :: takeBytes (limit + 1 - c.utf8Size) rest
      else [replacementCharacter]

/-! ### Digits -/

def digitValue (c : Char) : Nat := c.toNat - '0'.toNat

def digitsValue (digits : List Char) : Nat :=
  digits.foldl (fun value c => value * 10 + digitValue c) 0

def hexDigit? (c : Char) : Option Nat :=
  if c.isDigit then some (digitValue c)
  else if 'a' ≤ c && c ≤ 'f' then some (c.toNat - 'a'.toNat + 10)
  else if 'A' ≤ c && c ≤ 'F' then some (c.toNat - 'A'.toNat + 10)
  else none

def hexValue? (digits : List Char) : Option Nat :=
  digits.foldlM (fun value c => (hexDigit? c).map (value * 16 + ·)) 0

end TemplateFill.Text
