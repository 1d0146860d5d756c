import TemplateFill.Json.Basic
import TemplateFill.Decimal.Shortest

/-!
The text of a JSON value: compact, and indented by two spaces a level.

Both forms print scalars alike. A string escapes the quote, the backslash and the characters below
the space; a binary64 number prints the shortest digits that read back.
-/

namespace TemplateFill

namespace Json

/-! ### Scalars -/

/-- Numbers from `0.00001` to below `10 ^ 16` are written plain, others as `1e-7` and `1e+16`. -/
def numberLayout : Decimal.Layout :=
  { plainLeast := -5, plainMost := 15, negativeMark := "e-", positiveMark := "e+" }

def binary64Text (value : Binary64) : List Char :=
  let magnitude := Decimal.write numberLayout (Decimal.ofCode value.code)
  if value.negative then '-' :: magnitude else magnitude

def integerText (value : Int) : List Char :=
  if value < 0 then '-' :: Nat.toDigits 10 value.natAbs else Nat.toDigits 10 value.natAbs

def numberText : Number → List Char
  | .integer value => integerText value
  | .float value => binary64Text value

def escapeCharacter (c : Char) : List Char :=
  match c with
  | '"' => ['\\', '"']
  | '\\' => ['\\', '\\']
  | '\x08' => ['\\', 'b']
  | '\x0c' => ['\\', 'f']
  | '\n' => ['\\', 'n']
  | '\r' => ['\\', 'r']
  | '\t' => ['\\', 't']
  | other =>
      if other.toNat < 0x20 then
        ['\\', 'u', '0', '0', Nat.digitChar (other.toNat / 16), Nat.digitChar (other.toNat % 16)]
      else [other]

def quoted (value : String) : List Char :=
  '"' :: value.toList.flatMap escapeCharacter ++ ['"']

def scalarText : Scalar → List Char
  | .null => ['n', 'u', 'l', 'l']
  | .bool true => ['t', 'r', 'u', 'e']
  | .bool false => ['f', 'a', 'l', 's', 'e']
  | .number value => numberText value
  | .string value => quoted value

/-! ### Compact form -/

mutual

def compactChars : Json → List Char
  | .scalar value => scalarText value
  | .array [] => ['[', ']']
  | .array (first :: rest) => '[' :: compactChars first ++ compactElements rest
  | .object [] => ['\x7b', '\x7d']
  | .object ((key, value) :: rest) =>
      '\x7b' :: quoted key ++ ':' :: compactChars value ++ compactMembers rest

def compactElements : List Json → List Char
  | [] => [']']
  | element :: rest => ',' :: compactChars element ++ compactElements rest

def compactMembers : List (String × Json) → List Char
  | [] => ['\x7d']
  | (key, value) :: rest => ',' :: quoted key ++ ':' :: compactChars value ++ compactMembers rest

end

def compact (value : Json) : String := String.ofList value.compactChars

/-! ### Indented form -/

def startLine (level : Nat) : List Char := '\n' :: List.replicate (2 * level) ' '

mutual

def indentedChars (level : Nat) : Json → List Char
  | .scalar value => scalarText value
  | .array [] => ['[', ']']
  | .array (first :: rest) =>
      '[' :: startLine (level + 1) ++ indentedChars (level + 1) first ++ indentedElements level rest
  | .object [] => ['\x7b', '\x7d']
  | .object ((key, value) :: rest) =>
      '\x7b' :: startLine (level + 1) ++ quoted key ++ ':' :: ' ' ::
        indentedChars (level + 1) value ++ indentedMembers level rest

def indentedElements (level : Nat) : List Json → List Char
  | [] => startLine level ++ [']']
  | element :: rest =>
      ',' :: startLine (level + 1) ++ indentedChars (level + 1) element
        ++ indentedElements level rest

def indentedMembers (level : Nat) : List (String × Json) → List Char
  | [] => startLine level ++ ['\x7d']
  | (key, value) :: rest =>
      ',' :: startLine (level + 1) ++ quoted key ++ ':' :: ' ' ::
        indentedChars (level + 1) value ++ indentedMembers level rest

end

def indented (value : Json) : String := String.ofList (value.indentedChars 0)

end Json

end TemplateFill
