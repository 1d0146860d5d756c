import Mathlib.Data.List.Chain
import TemplateFill.Json.Printer
import TemplateFill.Proofs.Path.Grammar

/-!
The tokens of the normal text of a path.

They are a phrase of the grammar that stands for the path, with every selector in brackets and every
binary filter in parentheses. Any phrase for the same path has the same names, strings and words in
the same order: this is what two phrases for one path have in common.
-/

namespace TemplateFill

/-! ### Scalars of a path -/

namespace Scalar

def token : Scalar → Token
  | null => .nullWord
  | bool true => .trueWord
  | bool false => .falseWord
  | number (.integer value) => .integer value
  | number (.float value) => .decimal (String.ofList (Json.binary64Text value))
  | string value => .string value

def spelling? : Scalar → Option String
  | null => some "null"
  | bool true => some "true"
  | bool false => some "false"
  | number _ => none
  | string value => some value

def InRange : Scalar → Prop
  | number (.integer value) => Lexer.leastInteger ≤ value ∧ value ≤ Lexer.greatestInteger
  | _ => True

end Scalar

namespace Token

def spelling? : Token → Option String
  | string value => some value
  | token => token.name?

def InRange : Token → Prop
  | integer value => Lexer.leastInteger ≤ value ∧ value ≤ Lexer.greatestInteger
  | _ => True

end Token

def Comparison.token : Comparison → Token
  | equal => .equal
  | notEqual => .notEqual
  | less => .less
  | lessOrEqual => .lessOrEqual
  | greater => .greater
  | greaterOrEqual => .greaterOrEqual

mutual

def Selector.scalars : Selector → List Scalar
  | .name name => [.string name]
  | .wildcard => []
  | .index position => [.number (.integer position)]
  | .filter condition => condition.scalars

def Segment.scalars : Segment → List Scalar
  | .child selector => selector.scalars
  | .descendant selector => selector.scalars

def Segment.scalarsAll : List Segment → List Scalar
  | [] => []
  | segment :: rest => segment.scalars ++ Segment.scalarsAll rest

def Operand.scalars : Operand → List Scalar
  | .candidate segments => Segment.scalarsAll segments
  | .root segments => Segment.scalarsAll segments
  | .literal value => [value]

def Filter.scalars : Filter → List Scalar
  | .or left right => left.scalars ++ right.scalars
  | .and left right => left.scalars ++ right.scalars
  | .not condition => condition.scalars
  | .compare left _ right => left.scalars ++ right.scalars
  | .holds operand => operand.scalars

end

mutual

def Selector.tokens : Selector → List Token
  | .name name => [.leftBracket, .string name, .rightBracket]
  | .wildcard => [.leftBracket, .star, .rightBracket]
  | .index position => [.leftBracket, .integer position, .rightBracket]
  | .filter condition =>
      .leftBracket :: .question :: .leftParen :: (condition.tokens ++ [.rightParen, .rightBracket])

def Segment.tokens : Segment → List Token
  | .child selector => selector.tokens
  | .descendant selector => .dotDot :: selector.tokens

def Segment.tokensAll : List Segment → List Token
  | [] => []
  | segment :: rest => segment.tokens ++ Segment.tokensAll rest

def Operand.tokens : Operand → List Token
  | .candidate segments => .at :: Segment.tokensAll segments
  | .root segments => .dollar :: Segment.tokensAll segments
  | .literal value => [value.token]

def Filter.tokens : Filter → List Token
  | .or left right => .leftParen :: (left.tokens ++ .or :: right.tokens ++ [.rightParen])
  | .and left right => .leftParen :: (left.tokens ++ .and :: right.tokens ++ [.rightParen])
  | .not condition => .not :: condition.tokens
  | .compare left operator right => left.tokens ++ operator.token :: right.tokens
  | .holds operand => operand.tokens

end

namespace Grammar

/-! ### What phrases for a path have in common -/

def Follows (before token : Token) : Prop :=
  ∀ name, token = .identifier name → before = .dot ∨ before = .dotDot

/-- The tokens of a part of a path tell its scalars in order. Identifiers stand behind dots, none of
them at the start. -/
structure Tells (tokens : List Token) (scalars : List Scalar) : Prop where
  spelled : tokens.filterMap Token.spelling? = scalars.filterMap Scalar.spelling?
  apart : tokens.IsChain Follows
  start : ∀ name, tokens.head? ≠ some (.identifier name)
  inRange : (∀ token ∈ tokens, token.InRange) → ∀ value ∈ scalars, value.InRange

namespace Tells

variable {tokens later : List Token} {scalars others : List Scalar}

theorem nil : Tells [] [] :=
  { spelled := rfl
    apart := .nil
    start := fun _ => nofun
    inRange := fun _ => List.forall_mem_nil _ }

theorem append (tells : Tells tokens scalars) (more : Tells later others) :
    Tells (tokens ++ later) (scalars ++ others) where
  spelled := by rw [List.filterMap_append, List.filterMap_append, tells.spelled, more.spelled]
  apart := by
    refine tells.apart.append more.apart fun before _ token first name same => ?_
    exact absurd (same ▸ Option.mem_def.mp first) (more.start name)
  start := by
    intro name
    rw [List.head?_append]
    have first := tells.start name
    cases tokens with
    | nil => exact more.start name
    | cons token tokens => exact first
  inRange := by
    intro fits value inside
    rcases List.mem_append.mp inside with inside | inside
    · exact tells.inRange (fun token listed => fits token (List.mem_append_left _ listed)) _ inside
    · exact more.inRange (fun token listed => fits token (List.mem_append_right _ listed)) _ inside

theorem mark {token : Token} (silent : token.spelling? = none) : Tells [token] [] where
  spelled := by rw [List.filterMap_cons_none silent]; rfl
  apart := .singleton _
  start := by
    rintro name same
    cases same
    cases silent
  inRange := fun _ => List.forall_mem_nil _

theorem cons {token : Token} (silent : token.spelling? = none) (tells : Tells tokens scalars) :
    Tells (token :: tokens) scalars := (mark silent).append tells

theorem snoc {token : Token} (silent : token.spelling? = none) (tells : Tells tokens scalars) :
    Tells (tokens ++ [token]) scalars :=
  scalars.append_nil ▸ tells.append (mark silent)

theorem dotted {mark token : Token} {selector : Selector}
    (isDot : mark = .dot ∨ mark = .dotDot) (written : IsDotted token selector) :
    Tells [mark, token] selector.scalars := by
  have silent : mark.spelling? = none := by
    rcases isDot with rfl | rfl <;> rfl
  have text : [mark, token].filterMap Token.spelling? =
      selector.scalars.filterMap Scalar.spelling? := by
    rw [List.filterMap_cons_none silent]
    cases written with
    | wildcard => rfl
    | name named => cases named <;> rfl
  refine ⟨text, .cons_cons (fun _ _ => isDot) (.singleton _), ?_, ?_⟩
  · rintro name same
    cases same
    cases silent
  · intro _ value inside
    cases written with
    | wildcard => cases inside
    | name named =>
        cases List.mem_singleton.mp inside
        trivial

theorem literal {token : Token} {value : Scalar} (written : IsLiteral token value) :
    Tells [token] [value] := by
  refine ⟨?_, .singleton _, ?_, fun fits other inside => ?_⟩
  · cases written <;> rfl
  · rintro name same
    cases same
    cases written
  · cases List.mem_singleton.mp inside
    have fit := fits token (List.mem_singleton_self _)
    cases written with
    | integer value => exact fit
    | _ => trivial

theorem operator {token : Token} {sign : Comparison} (written : IsOperator token sign) :
    token.spelling? = none := by
  cases written <;> rfl

end Tells

mutual

theorem tells_of_areSegments {tokens : List Token} {segments : List Segment} :
    AreSegments tokens segments → Tells tokens (Segment.scalarsAll segments)
  | .nil => .nil
  | .cons head tail => (tells_of_isSegment head).append (tells_of_areSegments tail)

theorem tells_of_isSegment {tokens : List Token} {segment : Segment} :
    IsSegment tokens segment → Tells tokens segment.scalars
  | .child written => .dotted (Or.inl rfl) written
  | .descendant written => .dotted (Or.inr rfl) written
  | .bracketChild written => tells_of_isBracket written
  | .bracketDescendant written => (tells_of_isBracket written).cons rfl

theorem tells_of_isBracket {tokens : List Token} {selector : Selector} :
    IsBracket tokens selector → Tells tokens selector.scalars
  | .wildcard => ((Tells.mark rfl).cons rfl).cons rfl
  | .index position => ((Tells.literal (.integer position)).snoc rfl).cons rfl
  | .name name => ((Tells.literal (.string name)).snoc rfl).cons rfl
  | .filter inner => (((tells_of_isOr inner).snoc rfl).cons rfl).cons rfl

theorem tells_of_isOr {tokens : List Token} {condition : Filter} :
    IsOr tokens condition → Tells tokens condition.scalars
  | .single one => tells_of_isAnd one
  | .or before last => (tells_of_isOr before).append ((tells_of_isAnd last).cons rfl)

theorem tells_of_isAnd {tokens : List Token} {condition : Filter} :
    IsAnd tokens condition → Tells tokens condition.scalars
  | .single one => tells_of_isUnary one
  | .and before last => (tells_of_isAnd before).append ((tells_of_isUnary last).cons rfl)

theorem tells_of_isUnary {tokens : List Token} {condition : Filter} :
    IsUnary tokens condition → Tells tokens condition.scalars
  | .not inner => (tells_of_isUnary inner).cons rfl
  | .grouped inner => ((tells_of_isOr inner).snoc rfl).cons rfl
  | .comparison inner => tells_of_isComparison inner

theorem tells_of_isComparison {tokens : List Token} {condition : Filter} :
    IsComparison tokens condition → Tells tokens condition.scalars
  | .holds alone => tells_of_isOperand alone
  | .compare before between behind =>
      (tells_of_isOperand before).append ((tells_of_isOperand behind).cons (Tells.operator between))

theorem tells_of_isOperand {tokens : List Token} {operand : Operand} :
    IsOperand tokens operand → Tells tokens operand.scalars
  | .candidate path => (tells_of_areSegments path).cons rfl
  | .root path => (tells_of_areSegments path).cons rfl
  | .literal written => .literal written

end

theorem tells_of_isPath {tokens : List Token} {segments : List Segment}
    (path : IsPath (.dollar :: tokens) segments) :
    Tells (.dollar :: tokens) (Segment.scalarsAll segments) := by
  cases path with
  | root path => exact (tells_of_areSegments path).cons rfl
  | name named _ => cases named

theorem inRange_of_isPath {tokens : List Token} {segments : List Segment}
    (path : IsPath tokens segments) (fits : ∀ token ∈ tokens, token.InRange) :
    ∀ value ∈ Segment.scalarsAll segments, value.InRange := by
  cases path with
  | root path => exact ((tells_of_areSegments path).cons rfl).inRange fits
  | name named path =>
      rw [Segment.scalarsAll, Segment.scalars, Selector.scalars, List.singleton_append,
        List.forall_mem_cons]
      exact ⟨trivial, (tells_of_areSegments path).inRange fun token inside =>
        fits token (List.mem_cons_of_mem _ inside)⟩
  | bracket path => exact (tells_of_areSegments path).inRange fits

/-! ### The normal phrase -/

theorem isOperator_token (operator : Comparison) : IsOperator operator.token operator := by
  cases operator
  · exact .equal
  · exact .notEqual
  · exact .less
  · exact .lessOrEqual
  · exact .greater
  · exact .greaterOrEqual

theorem isLiteral_token {value : Scalar} (finite : ∀ number, value = .number (.float number) →
    PathParser.decimalValue? (String.ofList (Json.binary64Text number)) = some number) :
    IsLiteral value.token value := by
  cases value with
  | null => exact .nullWord
  | bool value => cases value <;> constructor
  | string value => exact .string value
  | number value =>
      cases value with
      | integer value => exact .integer value
      | float number => exact .decimal (finite number rfl)

/-- The decimals among the scalars are read back from their texts. -/
def DecimalsRead (scalars : List Scalar) : Prop :=
  ∀ number, .number (.float number) ∈ scalars →
    PathParser.decimalValue? (String.ofList (Json.binary64Text number)) = some number

theorem DecimalsRead.left {before behind : List Scalar} (read : DecimalsRead (before ++ behind)) :
    DecimalsRead before := fun number inside => read number (List.mem_append_left _ inside)

theorem DecimalsRead.right {before behind : List Scalar} (read : DecimalsRead (before ++ behind)) :
    DecimalsRead behind := fun number inside => read number (List.mem_append_right _ inside)

mutual

theorem isBracket_tokens :
    ∀ {selector : Selector}, DecimalsRead selector.scalars → IsBracket selector.tokens selector
  | .name name, _ => .name name
  | .wildcard, _ => .wildcard
  | .index position, _ => .index position
  | .filter condition, read => by
      have inner : IsOr (.leftParen :: (condition.tokens ++ [.rightParen])) condition :=
        .single (.single (.grouped (.single (.single (isUnary_tokens read)))))
      have whole := IsBracket.filter inner
      rw [List.cons_append, List.append_assoc] at whole
      exact whole

theorem isSegment_tokens :
    ∀ {segment : Segment}, DecimalsRead segment.scalars → IsSegment segment.tokens segment
  | .child _, read => .bracketChild (isBracket_tokens read)
  | .descendant _, read => .bracketDescendant (isBracket_tokens read)

theorem areSegments_tokensAll : ∀ {segments : List Segment},
    DecimalsRead (Segment.scalarsAll segments) → AreSegments (Segment.tokensAll segments) segments
  | [], _ => .nil
  | _ :: _, read => .cons (isSegment_tokens read.left) (areSegments_tokensAll read.right)

theorem isOperand_tokens :
    ∀ {operand : Operand}, DecimalsRead operand.scalars → IsOperand operand.tokens operand
  | .candidate _, read => .candidate (areSegments_tokensAll read)
  | .root _, read => .root (areSegments_tokensAll read)
  | .literal _, read => .literal (isLiteral_token fun number same =>
      read number (same ▸ List.mem_singleton_self _))

theorem isUnary_tokens :
    ∀ {condition : Filter}, DecimalsRead condition.scalars → IsUnary condition.tokens condition
  | .or _ _, read => .grouped
      (.or (.single (.single (isUnary_tokens read.left))) (.single (isUnary_tokens read.right)))
  | .and _ _, read => .grouped
      (.single (.and (.single (isUnary_tokens read.left)) (isUnary_tokens read.right)))
  | .not _, read => .not (isUnary_tokens read)
  | .compare _ operator _, read => .comparison
      (.compare (isOperand_tokens read.left) (isOperator_token operator)
        (isOperand_tokens read.right))
  | .holds _, read => .comparison (.holds (isOperand_tokens read))

end

end Grammar

end TemplateFill
