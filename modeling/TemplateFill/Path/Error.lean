import TemplateFill.Path.Token

/-!
What can be wrong with a path: with its text, and with what it selects.

Positions are byte offsets into the text. Each error is a cause; its wording is `message`.
-/

namespace TemplateFill

inductive Wanted where
  | memberName
  | bracketContent
  | filterOperand
  | exactly (token : Token)
deriving DecidableEq

def Wanted.text : Wanted → String
  | memberName => "member name"
  | bracketContent => "'*', index, quoted name or filter"
  | filterOperand => "filter operand"
  | exactly token => "'" ++ token.text ++ "'"

inductive LiteralKind where
  | integer
  | index
  | decimal
deriving DecidableEq

def LiteralKind.text : LiteralKind → String
  | integer => "integer"
  | index => "index"
  | decimal => "decimal"

inductive ParseError where
  | emptyExpression
  | unexpectedCharacter (character : Char) (position : Nat)
  | unexpectedToken (token : Token) (position : Nat)
  | expectedToken (wanted : Wanted) (found : Token) (position : Nat)
  | unexpectedEnd (position : Nat)
  | invalidLiteral (kind : LiteralKind) (value : String) (position : Nat)
  | invalidEscape (sequence : String) (position : Nat)
  | unclosedString (position : Nat)
deriving DecidableEq

namespace ParseError

def position? : ParseError → Option Nat
  | emptyExpression => none
  | unexpectedCharacter _ position => some position
  | unexpectedToken _ position => some position
  | expectedToken _ _ position => some position
  | unexpectedEnd position => some position
  | invalidLiteral _ _ position => some position
  | invalidEscape _ position => some position
  | unclosedString position => some position

def message : ParseError → String
  | emptyExpression => "Empty path expression"
  | unexpectedCharacter character position =>
      "Unexpected character '" ++ character.toString ++ "' at position " ++ toString position
  | unexpectedToken token position =>
      "Unexpected token '" ++ token.text ++ "' at position " ++ toString position
  | expectedToken wanted found position =>
      "Expected " ++ wanted.text ++ ", found '" ++ found.text ++ "' at position "
        ++ toString position
  | unexpectedEnd position => "Unexpected end of input at position " ++ toString position
  | invalidLiteral kind value position =>
      "Invalid " ++ kind.text ++ " literal at position " ++ toString position ++ ": " ++ value
  | invalidEscape sequence position =>
      "Invalid escape sequence at position " ++ toString position ++ ": " ++ sequence
  | unclosedString position =>
      "Unclosed string literal starting at position " ++ toString position

end ParseError

inductive PathError where
  | invalid (path : String) (source : ParseError)
  | notFound (path : String)
  | multipleMatches (path : String) (count : Nat)
deriving DecidableEq

def PathError.message : PathError → String
  | invalid path source => "Invalid path '" ++ path ++ "': " ++ source.message
  | notFound path => "could not find " ++ path ++ " in data json"
  | multipleMatches path count =>
      "Path '" ++ path ++ "' returned " ++ toString count ++ " tokens, expected at most one"

end TemplateFill
