import TemplateFill.Path.Error
import TemplateFill.Text.Characters

/-!
Splitting the text of a path into tokens.

A cursor holds a byte offset and the text from there on. `Cursor.next` skips blanks and reads the
longest token at the cursor; it answers with the token, with nothing at the end, or with an error,
and in each case with the cursor where reading stopped. Every character outside ASCII belongs to a
name. After a bad escape the cursor stands two bytes behind the backslash, wherever that is.
-/

namespace TemplateFill

/-- A place in a text: its byte offset and the characters from there on. -/
structure Cursor where
  position : Nat
  rest : List Char
deriving DecidableEq

structure Halt where
  error : ParseError
  cursor : Cursor

namespace Lexer

/-! ### Character classes -/

def isSpace (c : Char) : Bool := c == ' ' || c == '\t' || c == '\r' || c == '\n'

def startsName (c : Char) : Bool := c.isAlpha || c == '_' || 0x80 ≤ c.toNat

def continuesName (c : Char) : Bool := c.isAlphanum || c == '_' || c == '-' || 0x80 ≤ c.toNat

/-! ### Strings -/

/-- The character written by the four characters after `\u`: hexadecimal digits, of which the first
may be a plus sign instead. Surrogates are no characters. -/
def unicodeEscape? (digits : List Char) : Option Char :=
  let number := match digits with
    | '+' :: unsigned => Text.hexValue? unsigned
    | unsigned => Text.hexValue? unsigned
  number.bind fun code => if 0xd800 ≤ code && code < 0xe000 then none else some (Char.ofNat code)

def simpleEscape? (c : Char) : Option Char :=
  match c with
  | '\\' => some '\\'
  | '\'' => some '\''
  | '"' => some '"'
  | '/' => some '/'
  | 'n' => some '\n'
  | 'r' => some '\r'
  | 't' => some '\t'
  | _ => none

/-- Refuses the escape that starts at the given offset; its text is cut after `width` bytes.

The position moves on by two bytes and the rest by two characters. If a longer
character stands behind the backslash they disagree: the position then cuts that character, and
reading on from there yields no token but ends the program. -/
def badEscape (position width : Nat) (text : List Char) : Halt :=
  { error := .invalidEscape (String.ofList (Text.takeBytes width text)) position
    cursor := ⟨position + 2, text.drop 2⟩ }

def readString (quote : Char) (opening position : Nat) (read : List Char) :
    List Char → Except Halt (String × Cursor)
  | [] => .error ⟨.unclosedString opening, ⟨position, []⟩⟩
  | '\\' :: [] => .error ⟨.unclosedString opening, ⟨position, ['\\']⟩⟩
  | '\\' :: 'u' :: a :: b :: c :: d :: rest =>
      match unicodeEscape? [a, b, c, d] with
      | some meant => readString quote opening (position + 6) (meant :: read) rest
      | none => .error (badEscape position 6 ('\\' :: 'u' :: a :: b :: c :: d :: rest))
  | '\\' :: letter :: rest =>
      match simpleEscape? letter with
      | some meant => readString quote opening (position + 2) (meant :: read) rest
      | none =>
          .error (badEscape position (if letter = 'u' then 6 else 2) ('\\' :: letter :: rest))
  | c :: rest =>
      if c = quote then .ok (String.ofList read.reverse, ⟨position + 1, rest⟩)
      else readString quote opening (position + c.utf8Size) (c :: read) rest

/-- Reads a string behind its opening quote. Up to the first backslash its text stands for itself;
from there on it is read with its escapes. -/
def readLiteral (quote : Char) (opening : Nat) (text : List Char) :
    Except Halt (String × Cursor) :=
  let plain := text.takeWhile fun c => c != quote && c != '\\'
  let position := opening + 1 + Text.byteLength plain
  match text.dropWhile fun c => c != quote && c != '\\' with
  | [] => .error ⟨.unclosedString opening, ⟨position, []⟩⟩
  | c :: rest =>
      if c = quote then .ok (String.ofList plain, ⟨position + 1, rest⟩)
      else readString quote opening position plain.reverse (c :: rest)

/-! ### Numbers -/

def leastInteger : Int := -9223372036854775808

def greatestInteger : Int := 9223372036854775807

/-- Reads a number: its sign, its digits, and a fraction if a digit follows the point. -/
def readNumber (position : Nat) (text : List Char) : Except Halt (Token × Cursor) :=
  let sign := text.takeWhile (· == '-') |>.take 1
  let unsigned := text.drop sign.length
  let digits := unsigned.takeWhile Char.isDigit
  let whole := sign ++ digits
  let after := unsigned.dropWhile Char.isDigit
  let fraction :=
    match after with
    | '.' :: more => more.takeWhile Char.isDigit
    | _ => []
  if fraction.isEmpty then
    let size : Int := Text.digitsValue digits
    let value := if sign.isEmpty then size else -size
    let cursor : Cursor := ⟨position + whole.length, after⟩
    if leastInteger ≤ value ∧ value ≤ greatestInteger then .ok (.integer value, cursor)
    else .error ⟨.invalidLiteral .integer (String.ofList whole) position, cursor⟩
  else
    let written := whole ++ '.' :: fraction
    .ok (.decimal (String.ofList written),
      ⟨position + written.length, after.drop (fraction.length + 1)⟩)

/-! ### Names and single tokens -/

def readName (position : Nat) (text : List Char) : Token × Cursor :=
  let name := text.takeWhile continuesName
  (Token.ofWord (String.ofList name),
    ⟨position + Text.byteLength name, text.dropWhile continuesName⟩)

def readToken (position : Nat) (text : List Char) : Except Halt (Token × Cursor) :=
  let one (token : Token) (rest : List Char) : Except Halt (Token × Cursor) :=
    .ok (token, ⟨position + 1, rest⟩)
  let two (token : Token) (rest : List Char) : Except Halt (Token × Cursor) :=
    .ok (token, ⟨position + 2, rest⟩)
  match text with
  | '.' :: '.' :: rest => two .dotDot rest
  | '.' :: rest => one .dot rest
  | '[' :: rest => one .leftBracket rest
  | ']' :: rest => one .rightBracket rest
  | '(' :: rest => one .leftParen rest
  | ')' :: rest => one .rightParen rest
  | '*' :: rest => one .star rest
  | '$' :: rest => one .dollar rest
  | '@' :: rest => one .at rest
  | '?' :: rest => one .question rest
  | '=' :: '=' :: '=' :: rest => .ok (.equal, ⟨position + 3, rest⟩)
  | '=' :: '=' :: rest => two .equal rest
  | '!' :: '=' :: rest => two .notEqual rest
  | '!' :: rest => one .not rest
  | '<' :: '=' :: rest => two .lessOrEqual rest
  | '<' :: rest => one .less rest
  | '>' :: '=' :: rest => two .greaterOrEqual rest
  | '>' :: rest => one .greater rest
  | '&' :: '&' :: rest => two .and rest
  | '|' :: '|' :: rest => two .or rest
  | c :: rest =>
      if c = '\'' || c = '"' then
        (readLiteral c position rest).map fun read => (.string read.1, read.2)
      else if c.isDigit || (c = '-' && (rest.head?.any Char.isDigit)) then
        readNumber position (c :: rest)
      else if startsName c then .ok (readName position (c :: rest))
      else .error ⟨.unexpectedCharacter c position, ⟨position, c :: rest⟩⟩
  | [] => .error ⟨.unexpectedEnd position, ⟨position, []⟩⟩

end Lexer

namespace Cursor

def start (text : List Char) : Cursor := ⟨0, text⟩

def skipSpace (cursor : Cursor) : Cursor :=
  ⟨cursor.position + (cursor.rest.takeWhile Lexer.isSpace).length,
    cursor.rest.dropWhile Lexer.isSpace⟩

def next (cursor : Cursor) : Except ParseError (Option Lexeme) × Cursor :=
  let here := cursor.skipSpace
  if here.rest.isEmpty then (.ok none, here)
  else
    match Lexer.readToken here.position here.rest with
    | .ok (token, after) => (.ok (some ⟨token, here.position, after.position⟩), after)
    | .error halt => (.error halt.error, halt.cursor)

end Cursor

namespace Lexeme

structure Run where
  lexemes : List Lexeme
  error? : Option ParseError
  position : Nat

def runFrom : Nat → Cursor → Run
  | 0, cursor => ⟨[], none, cursor.position⟩
  | more + 1, cursor =>
      match cursor.next with
      | (.ok none, after) => ⟨[], none, after.position⟩
      | (.ok (some lexeme), after) =>
          let later := runFrom more after
          { later with lexemes := lexeme :: later.lexemes }
      | (.error error, after) => ⟨[], some error, after.position⟩

/-- Reads the tokens of a text up to its end or the first error. Each token takes at least one
character, so the bound on their number is never met. -/
def run (text : List Char) : Run := runFrom (text.length + 1) (Cursor.start text)

def scan (text : List Char) : Except ParseError (List Lexeme) :=
  match (run text).error? with
  | none => .ok (run text).lexemes
  | some error => .error error

end Lexeme

end TemplateFill
