import TemplateFill.Path.Lexer
import TemplateFill.Path.Syntax

/-!
Reading the tokens of a path into its segments.

    path       := ['$'] segments, where a name or '[' may stand in place of '$'
    segments   := { '.' dotted | '..' dotted | '..' '[' bracket | '[' bracket }
    dotted     := '*' | name
    bracket    := content ']'
    content    := '*' | index | string | '?' or
    or         := and { '||' and }
    and        := unary { '&&' unary }
    unary      := '!' unary | '(' or ')' | comparison
    comparison := operand [ operator operand ]
    operand    := '@' segments | '$' segments | literal

Names are identifiers and the words `true`, `false` and `null`. The functions of this module follow
the rules one by one. Each takes a bound on the steps of reading, the byte length of the text, which
is the place of the end, and the tokens; each answers with what it read and the tokens that are left.
-/

namespace TemplateFill

namespace PathParser

def expected {α : Type} (finish : Nat) (wanted : Wanted) : List Lexeme → Except ParseError α
  | [] => .error (.unexpectedEnd finish)
  | found :: _ => .error (.expectedToken wanted found.token found.start)

def expect (finish : Nat) (token : Token) : List Lexeme → Except ParseError (List Lexeme)
  | [] => .error (.unexpectedEnd finish)
  | found :: rest =>
      if found.token = token then .ok rest
      else expected finish (.exactly token) (found :: rest)

def comparison? : Token → Option Comparison
  | .equal => some .equal
  | .notEqual => some .notEqual
  | .less => some .less
  | .lessOrEqual => some .lessOrEqual
  | .greater => some .greater
  | .greaterOrEqual => some .greaterOrEqual
  | _ => none

def decimalValue? (digits : String) : Option Binary64 :=
  let (negative, unsigned) :=
    match digits.toList with
    | '-' :: rest => (true, rest)
    | rest => (false, rest)
  let whole := unsigned.takeWhile (· != '.')
  let fraction := (unsigned.dropWhile (· != '.')).drop 1
  Binary64.ofRatio? negative (Text.digitsValue (whole ++ fraction)) (Nat.pow 10 fraction.length)

def dotted (finish : Nat) : List Lexeme → Except ParseError (Selector × List Lexeme)
  | [] => .error (.unexpectedEnd finish)
  | found :: rest =>
      if found.token = .star then .ok (.wildcard, rest)
      else
        match found.token.name? with
        | some name => .ok (.name name, rest)
        | none => expected finish .memberName (found :: rest)

/-- The operand that a decimal literal writes, given its number; there is none out of range. -/
def decimal (digits : String) (start : Nat) (rest : List Lexeme) :
    Option Binary64 → Except ParseError (Operand × List Lexeme)
  | some value => .ok (.literal (.number (.float value)), rest)
  | none => .error (.invalidLiteral .decimal digits start)

def literal (finish : Nat) : List Lexeme → Except ParseError (Operand × List Lexeme)
  | [] => .error (.unexpectedEnd finish)
  | found :: rest =>
      match found.token with
      | .string value => .ok (.literal (.string value), rest)
      | .integer value => .ok (.literal (.number (.integer value)), rest)
      | .decimal digits =>
          decimal digits found.start rest (decimalValue? digits)
      | .trueWord => .ok (.literal (.bool true), rest)
      | .falseWord => .ok (.literal (.bool false), rest)
      | .nullWord => .ok (.literal .null, rest)
      | _ => expected finish .filterOperand (found :: rest)

mutual

def segments (finish : Nat) :
    Nat → List Lexeme → Except ParseError (List Segment × List Lexeme)
  | 0, _ => .error (.unexpectedEnd finish)
  | _, [] => .ok ([], [])
  | steps + 1, found :: rest =>
      match found.token with
      | .dot => do
          let (selector, rest) ← dotted finish rest
          let (later, rest) ← segments finish steps rest
          return (.child selector :: later, rest)
      | .dotDot => do
          let (selector, rest) ← descended finish steps rest
          let (later, rest) ← segments finish steps rest
          return (.descendant selector :: later, rest)
      | .leftBracket => do
          let (selector, rest) ← bracket finish steps rest
          let (later, rest) ← segments finish steps rest
          return (.child selector :: later, rest)
      | _ => .ok ([], found :: rest)

def descended (finish : Nat) :
    Nat → List Lexeme → Except ParseError (Selector × List Lexeme)
  | 0, _ => .error (.unexpectedEnd finish)
  | _, [] => .error (.unexpectedEnd finish)
  | steps + 1, found :: rest =>
      if found.token = .leftBracket then bracket finish steps rest
      else dotted finish (found :: rest)

def bracket (finish : Nat) :
    Nat → List Lexeme → Except ParseError (Selector × List Lexeme)
  | 0, _ => .error (.unexpectedEnd finish)
  | steps + 1, lexemes => do
      let (selector, rest) ← content finish steps lexemes
      let rest ← expect finish .rightBracket rest
      return (selector, rest)

def content (finish : Nat) :
    Nat → List Lexeme → Except ParseError (Selector × List Lexeme)
  | 0, _ => .error (.unexpectedEnd finish)
  | _, [] => .error (.unexpectedEnd finish)
  | steps + 1, found :: rest =>
      match found.token with
      | .star => .ok (.wildcard, rest)
      | .integer value =>
          if value < 0 then
            .error (.invalidLiteral .index (Token.integer value).text found.start)
          else .ok (.index value.toNat, rest)
      | .string name => .ok (.name name, rest)
      | .question => do
          let (condition, rest) ← disjunction finish steps rest
          return (.filter condition, rest)
      | _ => expected finish .bracketContent (found :: rest)

def disjunction (finish : Nat) :
    Nat → List Lexeme → Except ParseError (Filter × List Lexeme)
  | 0, _ => .error (.unexpectedEnd finish)
  | steps + 1, lexemes => do
      let (left, rest) ← conjunction finish steps lexemes
      moreDisjuncts finish steps left rest

def moreDisjuncts (finish : Nat) :
    Nat → Filter → List Lexeme → Except ParseError (Filter × List Lexeme)
  | 0, _, _ => .error (.unexpectedEnd finish)
  | _, left, [] => .ok (left, [])
  | steps + 1, left, found :: rest =>
      if found.token = .or then do
        let (right, rest) ← conjunction finish steps rest
        moreDisjuncts finish steps (.or left right) rest
      else .ok (left, found :: rest)

def conjunction (finish : Nat) :
    Nat → List Lexeme → Except ParseError (Filter × List Lexeme)
  | 0, _ => .error (.unexpectedEnd finish)
  | steps + 1, lexemes => do
      let (left, rest) ← unary finish steps lexemes
      moreConjuncts finish steps left rest

def moreConjuncts (finish : Nat) :
    Nat → Filter → List Lexeme → Except ParseError (Filter × List Lexeme)
  | 0, _, _ => .error (.unexpectedEnd finish)
  | _, left, [] => .ok (left, [])
  | steps + 1, left, found :: rest =>
      if found.token = .and then do
        let (right, rest) ← unary finish steps rest
        moreConjuncts finish steps (.and left right) rest
      else .ok (left, found :: rest)

def unary (finish : Nat) :
    Nat → List Lexeme → Except ParseError (Filter × List Lexeme)
  | 0, _ => .error (.unexpectedEnd finish)
  | _, [] => .error (.unexpectedEnd finish)
  | steps + 1, found :: rest =>
      match found.token with
      | .not => do
          let (condition, rest) ← unary finish steps rest
          return (.not condition, rest)
      | .leftParen => do
          let (condition, rest) ← disjunction finish steps rest
          let rest ← expect finish .rightParen rest
          return (condition, rest)
      | _ => comparison finish steps (found :: rest)

def comparison (finish : Nat) :
    Nat → List Lexeme → Except ParseError (Filter × List Lexeme)
  | 0, _ => .error (.unexpectedEnd finish)
  | steps + 1, lexemes => do
      let (left, rest) ← operand finish steps lexemes
      match rest with
      | [] => return (.holds left, [])
      | found :: behind =>
          match comparison? found.token with
          | none => return (.holds left, found :: behind)
          | some sign =>
              let (right, rest) ← operand finish steps behind
              return (.compare left sign right, rest)

def operand (finish : Nat) :
    Nat → List Lexeme → Except ParseError (Operand × List Lexeme)
  | 0, _ => .error (.unexpectedEnd finish)
  | _, [] => .error (.unexpectedEnd finish)
  | steps + 1, found :: rest =>
      match found.token with
      | .at => do
          let (path, rest) ← segments finish steps rest
          return (.candidate path, rest)
      | .dollar => do
          let (path, rest) ← segments finish steps rest
          return (.root path, rest)
      | _ => literal finish (found :: rest)

end

/-- How many steps always suffice. From one token to the next a reading passes through at most
eight of the rules. -/
def enoughSteps (lexemes : List Lexeme) : Nat := 8 * (lexemes.length + 1)

def opening : List Lexeme → Except ParseError (List Segment × List Lexeme)
  | [] => .error .emptyExpression
  | found :: rest =>
      if found.token = .dollar then .ok ([], rest)
      else
        match found.token.name? with
        | some name => .ok ([.child (.name name)], rest)
        | none =>
            if found.token = .leftBracket then .ok ([], found :: rest)
            else .error (.unexpectedToken found.token found.start)

def ofLexemes (finish : Nat) (lexemes : List Lexeme) : Except ParseError (List Segment) := do
  let (first, rest) ← opening lexemes
  let (later, rest) ← segments finish (enoughSteps lexemes) rest
  match rest with
  | [] => return first ++ later
  | found :: _ => .error (.unexpectedToken found.token found.start)

end PathParser

namespace Segment

def parse (text : String) : Except ParseError (List Segment) := do
  let chars := text.toList
  let lexemes ← Lexeme.scan chars
  PathParser.ofLexemes (Text.byteLength chars) lexemes

end Segment

end TemplateFill
