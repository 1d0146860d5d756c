import TemplateFill.Text.Characters

/-!
Percent encoding: bytes written as a percent sign and two hexadecimal digits.

Each part of a URL has its own set of characters to encode. Characters outside ASCII are always
encoded, byte by byte of their UTF-8 form.
-/

namespace TemplateFill.Url

/-! ### Sets of characters -/

def isControl (c : Char) : Bool := c.toNat < 0x20 || c.toNat == 0x7f

def inFragmentSet (c : Char) : Bool := isControl c || [' ', '"', '<', '>', '\x60'].contains c

def inPathSet (c : Char) : Bool := inFragmentSet c || ['#', '?', '\x7b', '\x7d'].contains c

def inUserinfoSet (c : Char) : Bool :=
  inPathSet c || ['/', ':', ';', '=', '@', '[', '\\', ']', '^', '|'].contains c

def inQuerySet (special : Bool) (c : Char) : Bool :=
  isControl c || [' ', '"', '#', '<', '>'].contains c || (special && c == '\'')

/-! ### Encoding and decoding -/

def upperHexDigit (value : Nat) : Char := (Nat.digitChar value).toUpper

def encodeByte (byte : UInt8) : List Char :=
  ['%', upperHexDigit (byte.toNat / 16), upperHexDigit (byte.toNat % 16)]

def percentEncode (inSet : Char → Bool) (text : List Char) : List Char :=
  text.flatMap fun c =>
    if inSet c || 0x80 ≤ c.toNat then (String.utf8EncodeChar c).flatMap encodeByte else [c]

/-- The bytes that a text stands for; a percent sign without two digits stands for itself. -/
def percentDecode : List Char → List UInt8
  | [] => []
  | '%' :: a :: b :: rest =>
      match Text.hexDigit? a, Text.hexDigit? b with
      | some high, some low => UInt8.ofNat (high * 16 + low) :: percentDecode rest
      | _, _ => String.utf8EncodeChar '%' ++ percentDecode (a :: b :: rest)
  | c :: rest => String.utf8EncodeChar c ++ percentDecode rest

def percentDecodedText? (text : List Char) : Option (List Char) :=
  (String.fromUTF8? ⟨(percentDecode text).toArray⟩).map String.toList

end TemplateFill.Url
