/-!
Base64 in the alphabet that is safe in URLs, without padding.

Three bytes become four digits of six bits each. One or two bytes at the end become two or three
digits, whose lowest bits are zero.
-/

namespace TemplateFill.Text

def sixBitDigit (value : Nat) : Char :=
  if value < 26 then Char.ofNat ('A'.toNat + value)
  else if value < 52 then Char.ofNat ('a'.toNat + (value - 26))
  else if value < 62 then Char.ofNat ('0'.toNat + (value - 52))
  else if value = 62 then '-'
  else '_'

def leadingDigits (count bits : Nat) : List Char :=
  [sixBitDigit (bits / 262144), sixBitDigit (bits / 4096 % 64), sixBitDigit (bits / 64 % 64),
    sixBitDigit (bits % 64)].take count

def base64UrlDigits : List UInt8 → List Char
  | a :: b :: c :: rest =>
      leadingDigits 4 (a.toNat * 65536 + b.toNat * 256 + c.toNat) ++ base64UrlDigits rest
  | [a, b] => leadingDigits 3 (a.toNat * 65536 + b.toNat * 256)
  | [a] => leadingDigits 2 (a.toNat * 65536)
  | [] => []

def base64Url (text : String) : String :=
  String.ofList (base64UrlDigits (text.toList.flatMap String.utf8EncodeChar))

end TemplateFill.Text
