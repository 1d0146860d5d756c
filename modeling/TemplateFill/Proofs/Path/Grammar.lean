import TemplateFill.Path.Parser

/-!
The grammar of paths, as rules for lists of tokens.

    path       := ['$'] segment*, where a leading name or '[' stands for the root as well
    segment    := '.' (name | '*') | '..' (name | '*' | bracket) | bracket
    bracket    := '[' ('*' | index | string | '?' or) ']'
    or         := and | or '||' and
    and        := unary | and '&&' unary
    unary      := '!' unary | '(' or ')' | comparison
    comparison := operand [operator operand]
    operand    := '@' segment* | '$' segment* | literal

Each rule relates the tokens of a phrase to the syntax that they write. The rules name no order in
which tokens are looked at and no token behind the phrase; that reading follows them is shown
elsewhere.
-/

namespace TemplateFill

namespace Grammar

/-! ### Single tokens -/

/-- Names are identifiers and the words with a meaning of their own. -/
inductive IsName : Token → String → Prop
  | identifier (name : String) : IsName (.identifier name) name
  | trueWord : IsName .trueWord "true"
  | falseWord : IsName .falseWord "false"
  | nullWord : IsName .nullWord "null"

inductive IsOperator : Token → Comparison → Prop
  | equal : IsOperator .equal .equal
  | notEqual : IsOperator .notEqual .notEqual
  | less : IsOperator .less .less
  | lessOrEqual : IsOperator .lessOrEqual .lessOrEqual
  | greater : IsOperator .greater .greater
  | greaterOrEqual : IsOperator .greaterOrEqual .greaterOrEqual

/-- Literals are scalars; a decimal is one only if it writes a finite number. -/
inductive IsLiteral : Token → Scalar → Prop
  | string (value : String) : IsLiteral (.string value) (.string value)
  | integer (value : Int) : IsLiteral (.integer value) (.number (.integer value))
  | decimal {digits : String} {value : Binary64}
      (finite : PathParser.decimalValue? digits = some value) :
      IsLiteral (.decimal digits) (.number (.float value))
  | trueWord : IsLiteral .trueWord (.bool true)
  | falseWord : IsLiteral .falseWord (.bool false)
  | nullWord : IsLiteral .nullWord .null

inductive IsDotted : Token → Selector → Prop
  | wildcard : IsDotted .star .wildcard
  | name {token : Token} {name : String} (named : IsName token name) : IsDotted token (.name name)

/-! ### Phrases -/

mutual

inductive AreSegments : List Token → List Segment → Prop
  | nil : AreSegments [] []
  | cons {first later : List Token} {segment : Segment} {segments : List Segment}
      (head : IsSegment first segment) (tail : AreSegments later segments) :
      AreSegments (first ++ later) (segment :: segments)

inductive IsSegment : List Token → Segment → Prop
  | child {token : Token} {selector : Selector} (dotted : IsDotted token selector) :
      IsSegment [.dot, token] (.child selector)
  | descendant {token : Token} {selector : Selector} (dotted : IsDotted token selector) :
      IsSegment [.dotDot, token] (.descendant selector)
  | bracketChild {tokens : List Token} {selector : Selector} (bracket : IsBracket tokens selector) :
      IsSegment tokens (.child selector)
  | bracketDescendant {tokens : List Token} {selector : Selector}
      (bracket : IsBracket tokens selector) : IsSegment (.dotDot :: tokens) (.descendant selector)

inductive IsBracket : List Token → Selector → Prop
  | wildcard : IsBracket [.leftBracket, .star, .rightBracket] .wildcard
  | index (position : Nat) :
      IsBracket [.leftBracket, .integer position, .rightBracket] (.index position)
  | name (name : String) : IsBracket [.leftBracket, .string name, .rightBracket] (.name name)
  | filter {tokens : List Token} {condition : Filter} (inner : IsOr tokens condition) :
      IsBracket (.leftBracket :: .question :: (tokens ++ [.rightBracket])) (.filter condition)

inductive IsOr : List Token → Filter → Prop
  | single {tokens : List Token} {condition : Filter} (one : IsAnd tokens condition) :
      IsOr tokens condition
  | or {first second : List Token} {left right : Filter} (before : IsOr first left)
      (last : IsAnd second right) : IsOr (first ++ .or :: second) (.or left right)

inductive IsAnd : List Token → Filter → Prop
  | single {tokens : List Token} {condition : Filter} (one : IsUnary tokens condition) :
      IsAnd tokens condition
  | and {first second : List Token} {left right : Filter} (before : IsAnd first left)
      (last : IsUnary second right) : IsAnd (first ++ .and :: second) (.and left right)

inductive IsUnary : List Token → Filter → Prop
  | not {tokens : List Token} {condition : Filter} (inner : IsUnary tokens condition) :
      IsUnary (.not :: tokens) (.not condition)
  | grouped {tokens : List Token} {condition : Filter} (inner : IsOr tokens condition) :
      IsUnary (.leftParen :: (tokens ++ [.rightParen])) condition
  | comparison {tokens : List Token} {condition : Filter} (inner : IsComparison tokens condition) :
      IsUnary tokens condition

inductive IsComparison : List Token → Filter → Prop
  | holds {tokens : List Token} {operand : Operand} (alone : IsOperand tokens operand) :
      IsComparison tokens (.holds operand)
  | compare {first second : List Token} {token : Token} {left right : Operand}
      {operator : Comparison} (before : IsOperand first left) (between : IsOperator token operator)
      (behind : IsOperand second right) :
      IsComparison (first ++ token :: second) (.compare left operator right)

inductive IsOperand : List Token → Operand → Prop
  | candidate {tokens : List Token} {segments : List Segment}
      (path : AreSegments tokens segments) : IsOperand (.at :: tokens) (.candidate segments)
  | root {tokens : List Token} {segments : List Segment}
      (path : AreSegments tokens segments) : IsOperand (.dollar :: tokens) (.root segments)
  | literal {token : Token} {value : Scalar} (literal : IsLiteral token value) :
      IsOperand [token] (.literal value)

end

inductive IsPath : List Token → List Segment → Prop
  | root {tokens : List Token} {segments : List Segment} (path : AreSegments tokens segments) :
      IsPath (.dollar :: tokens) segments
  | name {token : Token} {name : String} {tokens : List Token} {segments : List Segment}
      (named : IsName token name) (path : AreSegments tokens segments) :
      IsPath (token :: tokens) (.child (.name name) :: segments)
  | bracket {tokens : List Token} {segments : List Segment}
      (path : AreSegments (.leftBracket :: tokens) segments) :
      IsPath (.leftBracket :: tokens) segments

end Grammar

end TemplateFill
