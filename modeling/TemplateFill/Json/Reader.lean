import TemplateFill.Json.Basic
import TemplateFill.Text.Characters

/-!
Reading JSON text into values that keep the order of members.

A repeated key keeps the place of its first and the value of its last occurrence. Nesting is limited,
an integer that fits 64 bits stays an integer, and a number beyond binary64 makes the text invalid.
-/

namespace TemplateFill

namespace Json

/-! ### Numbers -/

def widestSignificand : Nat := 18446744073709551615

def absorbDigits (significand : Nat) : List Char → Nat × Nat
  | [] => (significand, 0)
  | c :: rest =>
      let longer := significand * 10 + Text.digitValue c
      if longer ≤ widestSignificand then
        let (total, taken) := absorbDigits longer rest
        (total, taken + 1)
      else (significand, 0)

def widestNegative : Nat := 9223372036854775808

/-- An integer that fits 64 bits with its sign, and the nearest binary64 number for others. The
negative zero is a binary64 number. -/
def wholeNumber? (negative : Bool) (significand : Nat) : Option Number :=
  if !negative then some (.integer significand)
  else if 0 < significand && significand ≤ widestNegative then some (.integer (-(significand : Int)))
  else (Binary64.ofRatio? true significand 1).map .float

def readExponent? : List Char → Option (Option Int × List Char)
  | [] => some (none, [])
  | mark :: rest =>
      if mark = 'e' || mark = 'E' then
        let (negative, unsigned) :=
          match rest with
          | '-' :: more => (true, more)
          | '+' :: more => (false, more)
          | more => (false, more)
        let digits := unsigned.takeWhile Char.isDigit
        if digits.isEmpty then none
        else
          let size : Int := Text.digitsValue digits
          some (some (if negative then -size else size), unsigned.dropWhile Char.isDigit)
      else some (none, mark :: rest)

def readFraction? : List Char → Option (List Char × List Char)
  | '.' :: rest =>
      let digits := rest.takeWhile Char.isDigit
      if digits.isEmpty then none else some (digits, rest.dropWhile Char.isDigit)
  | text => some ([], text)

def readUnsigned? (negative : Bool) (text : List Char) : Option (Number × List Char) := do
  let digits := text.takeWhile Char.isDigit
  if digits.isEmpty || (digits.head? == some '0' && digits.length != 1) then none
  else
    let (fraction, afterFraction) ← readFraction? (text.dropWhile Char.isDigit)
    let (exponent, rest) ← readExponent? afterFraction
    let (whole, taken) := absorbDigits 0 digits
    if fraction.isEmpty && exponent.isNone && taken == digits.length then
      let number ← wholeNumber? negative whole
      return (number, rest)
    else
      let (significand, places) := absorbDigits whole fraction
      let scale : Int := (digits.length - taken : Nat) - (places : Int)
      let value ← Binary64.ofScaled? negative significand (scale + exponent.getD 0)
      return (.float value, rest)

def readNumber? : List Char → Option (Number × List Char)
  | '-' :: rest => readUnsigned? true rest
  | text => readUnsigned? false text

/-! ### Strings -/

def readHex? : List Char → Option (Nat × List Char)
  | a :: b :: c :: d :: rest => (Text.hexValue? [a, b, c, d]).map fun value => (value, rest)
  | _ => none

/-- The character of an escape by number, after its `u`. A code point beyond 16 bits is written as
two surrogates; a surrogate that stands alone is refused. -/
def readCodePoint? (text : List Char) : Option (Char × List Char) := do
  let (first, rest) ← readHex? text
  if 0xd800 ≤ first && first < 0xdc00 then
    match rest with
    | '\\' :: 'u' :: more =>
        let (second, rest) ← readHex? more
        if 0xdc00 ≤ second && second < 0xe000 then
          return (Char.ofNat (0x10000 + (first - 0xd800) * 0x400 + (second - 0xdc00)), rest)
        else none
    | _ => none
  else if 0xdc00 ≤ first && first < 0xe000 then none
  else return (Char.ofNat first, rest)

def readEscape? : List Char → Option (Char × List Char)
  | '"' :: rest => some ('"', rest)
  | '\\' :: rest => some ('\\', rest)
  | '/' :: rest => some ('/', rest)
  | 'b' :: rest => some ('\x08', rest)
  | 'f' :: rest => some ('\x0c', rest)
  | 'n' :: rest => some ('\n', rest)
  | 'r' :: rest => some ('\r', rest)
  | 't' :: rest => some ('\t', rest)
  | 'u' :: rest => readCodePoint? rest
  | _ => none

/-- The rest of a string after its opening quote; `read` holds the characters so far, last first. -/
def readString? : Nat → List Char → List Char → Option (String × List Char)
  | 0, _, _ => none
  | _, _, [] => none
  | more + 1, read, c :: rest =>
      if c = '"' then some (String.ofList read.reverse, rest)
      else if c = '\\' then
        match readEscape? rest with
        | some (meant, rest) => readString? more (meant :: read) rest
        | none => none
      else if c.toNat < 0x20 then none
      else readString? more (c :: read) rest

/-! ### Values -/

def isSpace (c : Char) : Bool := c == ' ' || c == '\n' || c == '\t' || c == '\r'

def skipSpace (text : List Char) : List Char := text.dropWhile isSpace

def afterWord? (word text : List Char) : Option (List Char) :=
  if word.isPrefixOf text then some (text.drop word.length) else none

mutual

/-- A value at the start of a text. The first number bounds the steps of reading, the second the
levels of brackets and braces still allowed. -/
def readValue? : Nat → Nat → List Char → Option (Json × List Char)
  | 0, _, _ => none
  | steps + 1, levels, text =>
      match skipSpace text with
      | [] => none
      | '"' :: rest =>
          (readString? (rest.length + 1) [] rest).map fun read => (.text read.1, read.2)
      | '[' :: rest =>
          match levels with
          | 0 => none
          | levels + 1 =>
              match skipSpace rest with
              | ']' :: rest => some (.array [], rest)
              | rest => readElements? steps levels [] rest
      | '\x7b' :: rest =>
          match levels with
          | 0 => none
          | levels + 1 =>
              match skipSpace rest with
              | '\x7d' :: rest => some (.object [], rest)
              | rest => readMembers? steps levels [] rest
      | 'n' :: rest => (afterWord? ['u', 'l', 'l'] rest).map fun rest => (.null, rest)
      | 't' :: rest => (afterWord? ['r', 'u', 'e'] rest).map fun rest => (.bool true, rest)
      | 'f' :: rest => (afterWord? ['a', 'l', 's', 'e'] rest).map fun rest => (.bool false, rest)
      | text => (readNumber? text).map fun read => (.scalar (.number read.1), read.2)

def readElements? : Nat → Nat → List Json → List Char → Option (Json × List Char)
  | 0, _, _, _ => none
  | steps + 1, levels, read, text =>
      match readValue? steps levels text with
      | none => none
      | some (element, rest) =>
          match skipSpace rest with
          | ',' :: rest => readElements? steps levels (element :: read) rest
          | ']' :: rest => some (.array (element :: read).reverse, rest)
          | _ => none

def readMembers? : Nat → Nat → List (String × Json) → List Char → Option (Json × List Char)
  | 0, _, _, _ => none
  | steps + 1, levels, read, text =>
      match skipSpace text with
      | '"' :: rest =>
          match readString? (rest.length + 1) [] rest with
          | none => none
          | some (key, rest) =>
              match skipSpace rest with
              | ':' :: rest =>
                  match readValue? steps levels rest with
                  | none => none
                  | some (value, rest) =>
                      match skipSpace rest with
                      | ',' :: rest => readMembers? steps levels (putMember key value read) rest
                      | '\x7d' :: rest => some (.object (putMember key value read), rest)
                      | _ => none
              | _ => none
      | _ => none

end

def deepestNesting : Nat := 127

/-- The value that a text writes, or `none` if the text is not JSON. Each step of reading takes at
least one character, so the bound on steps is never met. -/
def parse? (text : String) : Option Json :=
  let chars := text.toList
  match readValue? (2 * chars.length + 2) deepestNesting chars with
  | some (value, rest) => if (skipSpace rest).isEmpty then some value else none
  | none => none

def malformedMessage : String := "malformed JSON"

end Json

end TemplateFill
