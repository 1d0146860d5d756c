/-!
The tokens of a path expression, their text, and the spans they were read from.
-/

namespace TemplateFill

inductive Token where
  | dollar
  | at
  | dot
  | dotDot
  | star
  | leftBracket
  | rightBracket
  | leftParen
  | rightParen
  | question
  | identifier (name : String)
  | integer (value : Int)
  /-- A number with a fraction, as it was written -/
  | decimal (digits : String)
  | string (value : String)
  | trueWord
  | falseWord
  | nullWord
  | equal
  | notEqual
  | less
  | lessOrEqual
  | greater
  | greaterOrEqual
  | and
  | or
  | not
deriving DecidableEq

namespace Token

/-- The text of a token. A string shows between single quotes, whatever it holds. -/
def text : Token → String
  | dollar => "$"
  | .at => "@"
  | dot => "."
  | dotDot => ".."
  | star => "*"
  | leftBracket => "["
  | rightBracket => "]"
  | leftParen => "("
  | rightParen => ")"
  | question => "?"
  | identifier name => name
  | integer value => toString value
  | decimal digits => digits
  | string value => "'" ++ value ++ "'"
  | trueWord => "true"
  | falseWord => "false"
  | nullWord => "null"
  | equal => "=="
  | notEqual => "!="
  | less => "<"
  | lessOrEqual => "<="
  | greater => ">"
  | greaterOrEqual => ">="
  | and => "&&"
  | or => "||"
  | not => "!"

/-- The member name that a token can stand for. Words with a meaning of their own are names too. -/
def name? : Token → Option String
  | identifier name => some name
  | trueWord => some "true"
  | falseWord => some "false"
  | nullWord => some "null"
  | _ => none

def ofWord (word : String) : Token :=
  if word = "true" then trueWord
  else if word = "false" then falseWord
  else if word = "null" then nullWord
  else identifier word

end Token

/-- A token with the bytes it was read from: from `start` up to, not including, `stop`. -/
structure Lexeme where
  token : Token
  start : Nat
  stop : Nat
deriving DecidableEq

end TemplateFill
