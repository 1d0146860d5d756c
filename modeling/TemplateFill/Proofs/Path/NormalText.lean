import TemplateFill.Proofs.Path.Equality
import TemplateFill.Proofs.Path.NormalTokens
import TemplateFill.Proofs.Path.Numerals
import TemplateFill.Proofs.Path.Quotes

/-!
Reading the normal text of a path.

The normal text of a path is read back as the path if and only if no name and no string in it has a
backslash and no number in it is printed with an exponent. Up to the first scalar that is not so,
the reader finds the tokens of the normal phrase; there it finds another string, or a name where
none can stand, and no phrase with that token stands for the path.
-/

namespace TemplateFill

/-! ### Tokens in a row -/

inductive ReadsAll : List Token → List Char → List Char → Prop
  | nil (text : List Char) : ReadsAll [] text text
  | cons {token : Token} {later : List Token} {text middle rest : List Char}
      (reads : Reads token text middle) (more : ReadsAll later middle rest) :
      ReadsAll (token :: later) text rest

namespace ReadsAll

theorem append {tokens later : List Token} {text middle rest : List Char}
    (reads : ReadsAll tokens text middle) (more : ReadsAll later middle rest) :
    ReadsAll (tokens ++ later) text rest := by
  induction reads with
  | nil => exact more
  | cons first _ ih => exact .cons first (ih more)

theorem scans {tokens : List Token} {text rest : List Char} (reads : ReadsAll tokens text rest)
    (done : rest = []) : Scans tokens text := by
  induction reads with
  | nil => exact done ▸ .done
  | cons first _ ih => exact .next first (ih done)

end ReadsAll

/-! ### Misread texts -/

/-- The tokens are of no phrase that has the given names, strings and words. -/
def Strays (tokens : List Token) (expected : List String) : Prop :=
  tokens.filterMap Token.spelling? = expected → ¬tokens.IsChain Grammar.Follows

/-- If a text can be split into tokens, these are of no phrase with the given spellings. -/
def Misread (text : List Char) (expected : List String) : Prop :=
  ∀ bound position, text.length < bound →
    (Lexeme.runFrom bound ⟨position, text⟩).error? = none →
      Strays ((Lexeme.runFrom bound ⟨position, text⟩).lexemes.map Lexeme.token) expected

theorem Reads.runFrom {token : Token} {text rest : List Char} (reads : Reads token text rest)
    (bound position : Nat) :
    ∃ start stop after, Lexeme.runFrom (bound + 1) ⟨position, text⟩ =
      { Lexeme.runFrom bound ⟨after, rest⟩ with
        lexemes := ⟨token, start, stop⟩ :: (Lexeme.runFrom bound ⟨after, rest⟩).lexemes } := by
  obtain ⟨start, stop, after, found⟩ := reads.2 position
  refine ⟨start, stop, after, ?_⟩
  rw [Lexeme.runFrom, found]

namespace Misread

variable {text rest : List Char} {expected : List String}

theorem next {token : Token} (reads : Reads token text rest) (misread : Misread rest expected) :
    Misread text (token.spelling?.toList ++ expected) := by
  intro bound position enough fine spelled chain
  obtain ⟨bound, rfl⟩ := Nat.exists_eq_succ_of_ne_zero (Nat.ne_of_gt (Nat.zero_lt_of_lt enough))
  obtain ⟨start, stop, after, run⟩ := reads.runFrom bound position
  rw [Nat.succ_eq_add_one, run] at fine spelled chain
  rw [List.map_cons] at spelled chain
  have shorter := reads.1
  refine misread bound after (by omega) fine ?_ chain.tail
  rw [List.filterMap_cons] at spelled
  cases spelling : token.spelling? with
  | none => simpa [spelling] using spelled
  | some text => simpa [spelling] using spelled

theorem behind {tokens : List Token} (reads : ReadsAll tokens text rest)
    (misread : Misread rest expected) :
    Misread text (tokens.filterMap Token.spelling? ++ expected) := by
  induction reads with
  | nil => exact misread
  | @cons token later text middle rest first _ ih =>
      have whole := (ih misread).next first
      rw [List.filterMap_cons]
      cases spelling : token.spelling? with
      | none => simpa [spelling] using whole
      | some text => simpa [spelling] using whole

theorem skip {blanks : List Char} (misread : Misread text expected)
    (each : ∀ c ∈ blanks, Lexer.isSpace c = true) : Misread (blanks ++ text) expected := by
  intro bound position enough
  rw [List.length_append] at enough
  obtain ⟨bound, rfl⟩ := Nat.exists_eq_succ_of_ne_zero (Nat.ne_of_gt (Nat.zero_lt_of_lt enough))
  have same : (Cursor.mk position (blanks ++ text)).skipSpace =
      (Cursor.mk (position + blanks.length) text).skipSpace := by
    simp only [Cursor.skipSpace, List.takeWhile_append_of_pos each,
      List.dropWhile_append_of_pos each, List.length_append, Nat.add_assoc]
  have run : Lexeme.runFrom (bound + 1) ⟨position, blanks ++ text⟩ =
      Lexeme.runFrom (bound + 1) ⟨position + blanks.length, text⟩ := by
    rw [Lexeme.runFrom, Lexeme.runFrom, Cursor.next, Cursor.next, same]
  rw [Nat.succ_eq_add_one, run]
  exact misread (bound + 1) (position + blanks.length) (by omega)

end Misread

/-! ### Legible scalars -/

/-- A string without a backslash, a number that is printed without an exponent, or a word. -/
def Scalar.Legible : Scalar → Prop
  | .string text => '\\' ∉ text.toList
  | .number (.float value) => 'e' ∉ Json.binary64Text value
  | _ => True

instance : DecidablePred Scalar.Legible
  | .string text => inferInstanceAs (Decidable ('\\' ∉ text.toList))
  | .number (.float value) => inferInstanceAs (Decidable ('e' ∉ Json.binary64Text value))
  | .number (.integer _) => inferInstanceAs (Decidable True)
  | .bool _ => inferInstanceAs (Decidable True)
  | .null => inferInstanceAs (Decidable True)

/-- A part of a path is read back if its scalars are legible, and misread if not. -/
structure Prints (scalars : List Scalar) (tokens : List Token) (text rest : List Char) : Prop where
  spelled : tokens.filterMap Token.spelling? = scalars.filterMap Scalar.spelling?
  reads : (∀ value ∈ scalars, value.Legible) → ReadsAll tokens text rest
  misread : (¬∀ value ∈ scalars, value.Legible) → ∀ expected,
    Misread text (scalars.filterMap Scalar.spelling? ++ expected)

namespace Prints

variable {scalars others : List Scalar} {tokens later : List Token}
  {text middle rest blanks : List Char}

theorem nil : Prints [] [] text text where
  spelled := rfl
  reads := fun _ => .nil text
  misread := fun illegible => absurd (List.forall_mem_nil _) illegible

theorem append (prints : Prints scalars tokens text middle)
    (more : Prints others later middle rest) :
    Prints (scalars ++ others) (tokens ++ later) text rest where
  spelled := by rw [List.filterMap_append, List.filterMap_append, prints.spelled, more.spelled]
  reads := by
    intro legible
    rw [List.forall_mem_append] at legible
    exact (prints.reads legible.1).append (more.reads legible.2)
  misread := by
    intro illegible expected
    rw [List.forall_mem_append] at illegible
    rw [List.filterMap_append, List.append_assoc]
    by_cases legible : ∀ value ∈ scalars, value.Legible
    · rw [← prints.spelled]
      exact .behind (prints.reads legible) (more.misread (fun all => illegible ⟨legible, all⟩) _)
    · exact prints.misread legible _

theorem mark {token : Token} (silent : token.spelling? = none) (reads : Reads token text rest) :
    Prints [] [token] text rest where
  spelled := by rw [List.filterMap_cons_none silent]; rfl
  reads := fun _ => .cons reads (.nil rest)
  misread := fun illegible => absurd (List.forall_mem_nil _) illegible

theorem skip (prints : Prints scalars tokens text rest) (some : tokens ≠ [])
    (each : ∀ c ∈ blanks, Lexer.isSpace c = true) :
    Prints scalars tokens (blanks ++ text) rest where
  spelled := prints.spelled
  reads := by
    intro legible
    cases prints.reads legible with
    | nil => exact absurd rfl some
    | cons first more => exact .cons (first.skip each) more
  misread := fun illegible expected => (prints.misread illegible expected).skip each

theorem cons {token : Token} (silent : token.spelling? = none) (reads : Reads token text middle)
    (more : Prints scalars tokens middle rest) : Prints scalars (token :: tokens) text rest :=
  (mark silent reads).append more

theorem snoc {token : Token} (prints : Prints scalars tokens text middle)
    (silent : token.spelling? = none) (reads : Reads token middle rest) :
    Prints scalars (tokens ++ [token]) text rest :=
  scalars.append_nil ▸ prints.append (mark silent reads)

theorem legible {value : Scalar} {token : Token} (same : token.spelling? = value.spelling?)
    (legible : value.Legible) (reads : Reads token text rest) :
    Prints [value] [token] text rest where
  spelled := by rw [List.filterMap_cons, List.filterMap_cons, same]; rfl
  reads := fun _ => .cons reads (.nil rest)
  misread := fun illegible => absurd (List.forall_mem_singleton.mpr legible) illegible

end Prints

/-! ### Literals -/

def literalEnds : List Char := [' ', ')', ']', '=', '!', '<', '>']

def EndsLiteral : List Char → Prop
  | [] => True
  | c :: _ => c ∈ literalEnds

theorem endsLiteral_blank (rest : List Char) : EndsLiteral (' ' :: rest) := List.mem_cons_self ..

theorem endsLiteral_rightParen (rest : List Char) : EndsLiteral (')' :: rest) :=
  List.mem_cons_of_mem _ (List.mem_cons_self ..)

theorem EndsLiteral.endsNumber {rest : List Char} (ends : EndsLiteral rest) : EndsNumber rest := by
  cases rest with
  | nil => trivial
  | cons c rest =>
      have each : literalEnds.all (fun c => !c.isDigit && c != '.') = true := rfl
      have apart := List.all_eq_true.mp each c ends
      rw [Bool.and_eq_true, Bool.not_eq_true', bne_iff_ne] at apart
      exact apart

theorem EndsLiteral.takeWhile {rest : List Char} (ends : EndsLiteral rest) :
    rest.takeWhile Lexer.continuesName = [] := by
  cases rest with
  | nil => rfl
  | cons c rest =>
      have each : literalEnds.all (fun c => !Lexer.continuesName c) = true := rfl
      have stops := List.all_eq_true.mp each c ends
      rw [Bool.not_eq_true'] at stops
      exact List.takeWhile_cons_of_neg (Bool.eq_false_iff.mp stops)

theorem misread_singleQuoted {text : String} (backslash : '\\' ∈ text.toList) (rest : List Char)
    (expected : List String) : Misread (singleQuoted text ++ rest) (text :: expected) := by
  intro bound position enough fine spelled _
  obtain ⟨bound, rfl⟩ := Nat.exists_eq_succ_of_ne_zero (Nat.ne_of_gt (Nat.zero_lt_of_lt enough))
  rw [Nat.succ_eq_add_one, Lexeme.runFrom] at fine spelled
  have start : singleQuoted text ++ rest =
      '\'' :: (text.toList.flatMap markQuote ++ '\'' :: rest) := singleQuoted_append text rest
  have solid : Lexer.isSpace '\'' = false := by decide
  have next := Lexer.next_of_solid solid position (text.toList.flatMap markQuote ++ '\'' :: rest)
  rw [← start] at next
  cases read : Lexer.readToken position (singleQuoted text ++ rest) with
  | error halt =>
      rw [read] at next
      rw [next] at fine
      cases fine
  | ok result =>
      obtain ⟨token, after⟩ := result
      obtain ⟨other, rfl, different⟩ := Lexer.ne_of_readToken_singleQuoted backslash read
      rw [read] at next
      rw [next] at spelled
      exact different (List.cons.inj spelled).1

theorem prints_string (text : String) (rest : List Char) :
    Prints [.string text] [.string text] (singleQuoted text ++ rest) rest where
  spelled := rfl
  reads := by
    intro legible
    have plain : '\\' ∉ text.toList := legible (.string text) (List.mem_singleton_self _)
    exact .cons (reads_singleQuoted plain rest) (.nil rest)
  misread := by
    intro illegible expected
    have backslash : '\\' ∈ text.toList := by
      by_contra none
      exact illegible (List.forall_mem_singleton.mpr none)
    exact misread_singleQuoted backslash rest expected

theorem misread_binary64Text {number : Binary64} (marked : 'e' ∈ Json.binary64Text number)
    (rest : List Char) (expected : List String) :
    Misread (Json.binary64Text number ++ rest) expected := by
  intro bound position enough fine _ chain
  obtain ⟨token, name, middle, last, noDot, noDots, number, named⟩ :=
    exists_reads_marked marked rest
  have longer := number.1
  have shorter := named.1
  obtain ⟨bound, rfl⟩ : ∃ fewer, bound = fewer + 1 + 1 := ⟨bound - 2, by omega⟩
  obtain ⟨_, _, after, first⟩ := number.runFrom (bound + 1) position
  obtain ⟨_, _, after, second⟩ := named.runFrom bound after
  rw [first, second] at chain
  rw [List.map_cons, List.map_cons, List.isChain_cons_cons] at chain
  exact (chain.1 name rfl).elim noDot noDots

theorem prints_binary64Text (number : Binary64) {rest : List Char} (ends : EndsNumber rest) :
    Prints [.number (.float number)] [(Scalar.number (.float number)).token]
      (Json.binary64Text number ++ rest) rest where
  spelled := rfl
  reads := by
    intro legible
    have unmarked : 'e' ∉ Json.binary64Text number :=
      legible (.number (.float number)) (List.mem_singleton_self _)
    exact .cons (reads_binary64Text unmarked ends) (.nil rest)
  misread := by
    intro illegible expected
    have marked : 'e' ∈ Json.binary64Text number := by
      by_contra none
      exact illegible (List.forall_mem_singleton.mpr none)
    exact misread_binary64Text marked rest expected

theorem prints_word (value : Scalar) {name : String} (named : NameText name)
    (same : Token.ofWord name = value.token) (spelled : value.token.spelling? = value.spelling?)
    (legible : value.Legible) {rest : List Char} (ends : EndsLiteral rest) :
    Prints [value] [value.token] (name.toList ++ rest) rest :=
  .legible spelled legible (same ▸ named.reads_of_stop ends.takeWhile)

theorem prints_literal {value : Scalar} (inRange : value.InRange) {rest : List Char}
    (ends : EndsLiteral rest) :
    Prints [value] [value.token] ((Operand.literal value).normal ++ rest) rest := by
  cases value with
  | null =>
      have named : NameText "null" := ⟨⟨'n', ['u', 'l', 'l'], rfl, rfl⟩, List.all_eq_true.mp rfl⟩
      exact prints_word .null named rfl rfl trivial ends
  | bool value =>
      cases value with
      | true =>
          have named : NameText "true" :=
            ⟨⟨'t', ['r', 'u', 'e'], rfl, rfl⟩, List.all_eq_true.mp rfl⟩
          exact prints_word (.bool true) named rfl rfl trivial ends
      | false =>
          have named : NameText "false" :=
            ⟨⟨'f', ['a', 'l', 's', 'e'], rfl, rfl⟩, List.all_eq_true.mp rfl⟩
          exact prints_word (.bool false) named rfl rfl trivial ends
  | string text =>
      rw [Operand.normal]
      exact prints_string text rest
  | number value =>
      cases value with
      | integer value => exact .legible rfl trivial (reads_integerText inRange ends.endsNumber)
      | float value => exact prints_binary64Text value ends.endsNumber

/-! ### Marks -/

theorem signed_ne_equals {negative : Bool} {first : Char} (digit : first.isDigit = true)
    (text more : List Char) : signed negative (first :: text) ≠ '=' :: more := by
  intro same
  cases negative with
  | true => cases same
  | false =>
      cases same
      cases digit

theorem exists_signed_numberText (number : Number) : ∃ negative first others,
    first.isDigit = true ∧ Json.numberText number = signed negative (first :: others) := by
  cases number with
  | integer value =>
      obtain ⟨first, others, split⟩ :=
        List.exists_cons_of_ne_nil (Nat.toDigits_ne_nil (b := 10) (n := value.natAbs))
      have inside : first ∈ Nat.toDigits 10 value.natAbs := split ▸ List.mem_cons_self ..
      refine ⟨decide (value < 0), first, others,
        Nat.isDigit_of_mem_toDigits (by decide) (by decide) inside, ?_⟩
      rw [← split]
      exact integerText_eq value
  | float value =>
      rcases binary64Text_eq value with ⟨text, whole, fraction, same, writes⟩ | exponent
      · obtain ⟨first, others, rfl⟩ := List.exists_cons_of_ne_nil writes.whole_ne_nil
        refine ⟨value.negative, first, others ++ '.' :: fraction,
          writes.digits first (List.mem_cons_self ..), ?_⟩
        rw [Json.numberText, same, writes.text_eq]
        rfl
      · obtain ⟨first, fraction, behind, same, digits⟩ := exponent
        exact ⟨_, first, _, digits first (List.mem_cons_self ..), same⟩

theorem Operand.normal_ne_equals (operand : Operand) (rest more : List Char) :
    operand.normal ++ rest ≠ '=' :: more := by
  intro same
  cases operand with
  | candidate segments => cases same
  | root segments => cases same
  | literal value =>
      cases value with
      | null => cases same
      | bool value => cases value <;> cases same
      | string text =>
          rw [normal, singleQuoted_append] at same
          cases same
      | number value =>
          obtain ⟨negative, first, others, digit, text⟩ := exists_signed_numberText value
          rw [normal, Json.scalarText, text, signed_append] at same
          · exact signed_ne_equals digit _ more same
          · exact nofun

theorem Filter.normal_ne_equals (condition : Filter) (rest more : List Char) :
    condition.normal ++ rest ≠ '=' :: more := by
  intro same
  cases condition with
  | or left right => cases same
  | and left right => cases same
  | not condition => cases same
  | compare left operator right =>
      rw [normal, List.append_assoc, List.append_assoc] at same
      exact left.normal_ne_equals _ more same
  | holds operand => exact operand.normal_ne_equals rest more same

theorem reads_operator (operator : Comparison) {rest : List Char}
    (apart : ∀ more, rest ≠ '=' :: more) : Reads operator.token (operator.text ++ rest) rest := by
  cases operator with
  | notEqual => exact .of_readToken (by decide) (by simp) fun _ => ⟨_, rfl⟩
  | lessOrEqual => exact .of_readToken (by decide) (by simp) fun _ => ⟨_, rfl⟩
  | greaterOrEqual => exact .of_readToken (by decide) (by simp) fun _ => ⟨_, rfl⟩
  | equal =>
      refine .of_readToken (by decide) (by simp) fun position => ?_
      change ∃ after, Lexer.readToken position ('=' :: '=' :: rest) = _
      rw [Lexer.readToken]
      · exact ⟨_, rfl⟩
      · exact apart
  | less =>
      refine .of_readToken (by decide) (by simp) fun position => ?_
      change ∃ after, Lexer.readToken position ('<' :: rest) = _
      rw [Lexer.readToken]
      · exact ⟨_, rfl⟩
      · exact apart
  | greater =>
      refine .of_readToken (by decide) (by simp) fun position => ?_
      change ∃ after, Lexer.readToken position ('>' :: rest) = _
      rw [Lexer.readToken]
      · exact ⟨_, rfl⟩
      · exact apart

theorem reads_not {rest : List Char} (apart : ∀ more, rest ≠ '=' :: more) :
    Reads .not ('!' :: rest) rest := by
  refine .of_readToken (by decide) (Nat.le_refl _) fun position => ?_
  rw [Lexer.readToken]
  · exact ⟨_, rfl⟩
  · exact apart

theorem Operand.tokens_ne_nil (operand : Operand) : operand.tokens ≠ [] := by
  cases operand <;> exact List.cons_ne_nil _ _

theorem Filter.tokens_ne_nil (condition : Filter) : condition.tokens ≠ [] := by
  cases condition with
  | or left right => exact List.cons_ne_nil _ _
  | and left right => exact List.cons_ne_nil _ _
  | not condition => exact List.cons_ne_nil _ _
  | compare left operator right =>
      exact List.append_ne_nil_of_right_ne_nil _ (List.cons_ne_nil _ _)
  | holds operand => exact operand.tokens_ne_nil

/-! ### Parts of paths -/

namespace Prints

variable {scalars others : List Scalar} {tokens later : List Token} {text behind rest : List Char}

theorem bracketed (prints : Prints scalars tokens text (']' :: rest)) :
    Prints scalars (.leftBracket :: (tokens ++ [.rightBracket])) ('[' :: text) rest := by
  have closing : Reads .rightBracket (']' :: rest) rest := reads_mark rest (by decide) fun _ => rfl
  exact (prints.snoc rfl closing).cons rfl (reads_mark text (by decide) fun _ => rfl)

theorem parenthesized (prints : Prints scalars tokens text (')' :: rest)) :
    Prints scalars (.leftParen :: (tokens ++ [.rightParen])) ('(' :: text) rest := by
  have closing : Reads .rightParen (')' :: rest) rest := reads_mark rest (by decide) fun _ => rfl
  exact (prints.snoc rfl closing).cons rfl (reads_mark text (by decide) fun _ => rfl)

theorem joined {token : Token} {sign : Char} (silent : token.spelling? = none)
    (reads : Reads token (sign :: sign :: ' ' :: behind) (' ' :: behind))
    (left : Prints scalars tokens text (' ' :: sign :: sign :: ' ' :: behind))
    (right : Prints others later behind rest) (some : later ≠ []) :
    Prints (scalars ++ others) (tokens ++ token :: later) text rest := by
  have blank : ∀ c ∈ [' '], Lexer.isSpace c = true := List.forall_mem_singleton.mpr rfl
  exact left.append ((right.skip some blank).cons silent (reads.skip blank))

end Prints

mutual

theorem Selector.prints (rest : List Char) : ∀ {selector : Selector},
    (∀ value ∈ selector.scalars, value.InRange) →
      Prints selector.scalars selector.tokens (selector.normal ++ rest) rest
  | .name name, _ => by
      rw [Selector.normal, List.cons_append, List.cons_append, List.append_assoc]
      exact (prints_string name (']' :: rest)).bracketed
  | .wildcard, _ => by
      have star : Reads .star ('*' :: ']' :: rest) (']' :: rest) :=
        reads_mark _ (by decide) fun _ => rfl
      exact (Prints.mark rfl star).bracketed
  | .index position, inRange => by
      have fits := inRange (.number (.integer position)) (List.mem_singleton_self _)
      have reads : Reads (.integer position) (Nat.toDigits 10 position ++ ']' :: rest)
          (']' :: rest) := reads_integer fits.2 rest
      have whole : (Scalar.number (.integer position)).Legible := trivial
      rw [Selector.normal, List.cons_append, List.cons_append, List.append_assoc]
      exact (Prints.legible rfl whole reads).bracketed
  | .filter condition, inRange => by
      have inner := (Filter.prints (endsLiteral_rightParen (']' :: rest)) inRange).parenthesized
      have question : Reads .question ('?' :: '(' :: (condition.normal ++ ')' :: ']' :: rest))
          ('(' :: (condition.normal ++ ')' :: ']' :: rest)) :=
        reads_mark _ (by decide) fun _ => rfl
      have text : (Selector.filter condition).normal ++ rest =
          '[' :: '?' :: '(' :: (condition.normal ++ ')' :: ']' :: rest) := by
        simp [Selector.normal]
      have tokens : (Selector.filter condition).tokens = .leftBracket ::
          (.question :: .leftParen :: (condition.tokens ++ [.rightParen]) ++ [.rightBracket]) := by
        simp [Selector.tokens]
      rw [text, tokens]
      exact (inner.cons rfl question).bracketed

theorem Segment.prints (rest : List Char) : ∀ {segment : Segment},
    (∀ value ∈ segment.scalars, value.InRange) →
      Prints segment.scalars segment.tokens (segment.normal ++ rest) rest
  | .child _, inRange => Selector.prints rest inRange
  | .descendant selector, inRange => by
      have dots : Reads .dotDot ('.' :: '.' :: (selector.normal ++ rest))
          (selector.normal ++ rest) := .of_readToken (by decide) (by simp) fun _ => ⟨_, rfl⟩
      exact (Selector.prints rest inRange).cons rfl dots

theorem Segment.printsAll (rest : List Char) : ∀ {segments : List Segment},
    (∀ value ∈ Segment.scalarsAll segments, value.InRange) →
      Prints (Segment.scalarsAll segments) (Segment.tokensAll segments)
        (Segment.normalAll segments ++ rest) rest
  | [], _ => .nil
  | segment :: segments, inRange => by
      rw [Segment.scalarsAll, List.forall_mem_append] at inRange
      rw [Segment.normalAll, List.append_assoc]
      exact (Segment.prints _ inRange.1).append (Segment.printsAll rest inRange.2)

theorem Operand.prints {rest : List Char} (ends : EndsLiteral rest) : ∀ {operand : Operand},
    (∀ value ∈ operand.scalars, value.InRange) →
      Prints operand.scalars operand.tokens (operand.normal ++ rest) rest
  | .candidate _, inRange =>
      (Segment.printsAll rest inRange).cons rfl (reads_mark _ (by decide) fun _ => rfl)
  | .root _, inRange =>
      (Segment.printsAll rest inRange).cons rfl (reads_mark _ (by decide) fun _ => rfl)
  | .literal _, inRange => prints_literal (inRange _ (List.mem_singleton_self _)) ends

theorem Filter.prints {rest : List Char} (ends : EndsLiteral rest) : ∀ {condition : Filter},
    (∀ value ∈ condition.scalars, value.InRange) →
      Prints condition.scalars condition.tokens (condition.normal ++ rest) rest
  | .or left right, inRange => by
      rw [Filter.scalars, List.forall_mem_append] at inRange
      have mark : Reads .or ('|' :: '|' :: ' ' :: (right.normal ++ ')' :: rest))
          (' ' :: (right.normal ++ ')' :: rest)) :=
        .of_readToken (by decide) (by simp) fun _ => ⟨_, rfl⟩
      have text : (Filter.or left right).normal ++ rest = '(' ::
          (left.normal ++ ' ' :: '|' :: '|' :: ' ' :: (right.normal ++ ')' :: rest)) := by
        simp [Filter.normal]
      rw [text]
      exact (Prints.joined rfl mark (Filter.prints (endsLiteral_blank _) inRange.1)
        (Filter.prints (endsLiteral_rightParen rest) inRange.2) right.tokens_ne_nil).parenthesized
  | .and left right, inRange => by
      rw [Filter.scalars, List.forall_mem_append] at inRange
      have mark : Reads .and ('&' :: '&' :: ' ' :: (right.normal ++ ')' :: rest))
          (' ' :: (right.normal ++ ')' :: rest)) :=
        .of_readToken (by decide) (by simp) fun _ => ⟨_, rfl⟩
      have text : (Filter.and left right).normal ++ rest = '(' ::
          (left.normal ++ ' ' :: '&' :: '&' :: ' ' :: (right.normal ++ ')' :: rest)) := by
        simp [Filter.normal]
      rw [text]
      exact (Prints.joined rfl mark (Filter.prints (endsLiteral_blank _) inRange.1)
        (Filter.prints (endsLiteral_rightParen rest) inRange.2) right.tokens_ne_nil).parenthesized
  | .not condition, inRange => by
      have inner : Prints condition.scalars condition.tokens (condition.normal ++ rest) rest :=
        Filter.prints ends inRange
      exact inner.cons rfl (reads_not (condition.normal_ne_equals rest))
  | .compare left operator right, inRange => by
      rw [Filter.scalars, List.forall_mem_append] at inRange
      have apart : EndsLiteral (operator.text ++ (right.normal ++ rest)) := by
        cases operator <;> simp [EndsLiteral, literalEnds, Comparison.text]
      have silent : operator.token.spelling? = none := by
        cases operator <;> rfl
      rw [Filter.normal, List.append_assoc, List.append_assoc]
      exact (Operand.prints apart inRange.1).append ((Operand.prints ends inRange.2).cons silent
        (reads_operator operator (right.normal_ne_equals rest)))
  | .holds operand, inRange => by
      have whole : Prints operand.scalars operand.tokens (operand.normal ++ rest) rest :=
        Operand.prints ends inRange
      exact whole

end

/-! ### Accepted paths -/

namespace Lexer

theorem inRange_ofWord (word : String) : (Token.ofWord word).InRange := by
  unfold Token.ofWord
  split
  · trivial
  · split
    · trivial
    · split <;> trivial

theorem inRange_of_bounded {value : Int} {cursor after : Cursor} {halt : Halt} {token : Token}
    (done : (if leastInteger ≤ value ∧ value ≤ greatestInteger then .ok (.integer value, cursor)
      else .error halt : Except Halt (Token × Cursor)) = .ok (token, after)) : token.InRange := by
  split at done
  · rename_i fits
    cases done
    exact fits
  · cases done

theorem inRange_of_readNumber {position : Nat} {text : List Char} {token : Token} {after : Cursor}
    (done : readNumber position text = .ok (token, after)) : token.InRange := by
  unfold readNumber at done
  dsimp only at done
  split at done
  · split at done
    · exact inRange_of_bounded done
    · cases done
      trivial
  · rw [List.isEmpty_nil, if_pos rfl] at done
    exact inRange_of_bounded done

theorem inRange_of_readToken {position : Nat} {text : List Char} {token : Token} {after : Cursor}
    (done : readToken position text = .ok (token, after)) : token.InRange := by
  unfold readToken at done
  split at done
  all_goals try (cases done <;> trivial)
  split at done
  · obtain ⟨read, -, same⟩ := map_eq_ok.mp done
    cases same
    trivial
  · split at done
    · exact inRange_of_readNumber done
    · split at done
      · cases done
        exact inRange_ofWord _
      · cases done

end Lexer

theorem inRange_of_next {cursor after : Cursor} {lexeme : Lexeme}
    (found : cursor.next = (.ok (some lexeme), after)) : lexeme.token.InRange := by
  unfold Cursor.next at found
  dsimp only at found
  split at found
  · cases found
  · split at found
    · rename_i done
      cases found
      exact Lexer.inRange_of_readToken done
    · cases found

theorem inRange_of_runFrom {lexeme : Lexeme} : ∀ {bound : Nat} {cursor : Cursor},
    lexeme ∈ (Lexeme.runFrom bound cursor).lexemes → lexeme.token.InRange := by
  intro bound
  induction bound with
  | zero =>
      intro cursor inside
      cases inside
  | succ bound ih =>
      intro cursor inside
      rw [Lexeme.runFrom] at inside
      split at inside
      · cases inside
      · rename_i first after found
        rcases List.mem_cons.mp inside with rfl | later
        · exact inRange_of_next found
        · exact ih later
      · cases inside

theorem exists_lexemes_of_parse {text : String} {segments : List Segment}
    (read : Segment.parse text = .ok segments) :
    (Lexeme.run text.toList).error? = none ∧
      Grammar.IsPath ((Lexeme.run text.toList).lexemes.map Lexeme.token) segments := by
  unfold Segment.parse at read
  dsimp only at read
  obtain ⟨lexemes, scanned, parsed⟩ := bind_eq_ok.mp read
  unfold Lexeme.scan at scanned
  cases fine : (Lexeme.run text.toList).error? with
  | some error =>
      rw [fine] at scanned
      cases scanned
  | none =>
      rw [fine] at scanned
      cases scanned
      exact ⟨rfl, PathParser.isPath_of_ofLexemes parsed⟩

theorem inRange_of_parse {text : String} {segments : List Segment}
    (read : Segment.parse text = .ok segments) :
    ∀ value ∈ Segment.scalarsAll segments, value.InRange := by
  refine Grammar.inRange_of_isPath (exists_lexemes_of_parse read).2 fun token inside => ?_
  obtain ⟨lexeme, listed, rfl⟩ := List.mem_map.mp inside
  exact inRange_of_runFrom listed

/-- The normal text of a path that was read is read back as the path if and only if all its scalars
are legible. -/
theorem Segment.parse_normalPath_iff {text : String} {segments : List Segment}
    (read : Segment.parse text = .ok segments) :
    Segment.parse (Segment.normalPath segments) = .ok segments ↔
      ∀ value ∈ Segment.scalarsAll segments, value.Legible := by
  have prints := Segment.printsAll [] (inRange_of_parse read)
  rw [List.append_nil] at prints
  have dollar : Reads .dollar ('$' :: Segment.normalAll segments) (Segment.normalAll segments) :=
    reads_mark _ (by decide) fun _ => rfl
  replace prints := prints.cons rfl dollar
  have text : (Segment.normalPath segments).toList = '$' :: Segment.normalAll segments :=
    String.toList_ofList
  constructor
  · intro again
    by_contra illegible
    obtain ⟨fine, path⟩ := exists_lexemes_of_parse again
    unfold Lexeme.run Cursor.start at fine path
    rw [text] at fine path
    have strays := prints.misread illegible [] _ 0 (Nat.lt_succ_self _) fine
    obtain ⟨_, _, after, run⟩ := dollar.runFrom ('$' :: Segment.normalAll segments).length 0
    rw [run, List.map_cons] at path strays
    have tells := Grammar.tells_of_isPath path
    exact strays (by rw [List.append_nil]; exact tells.spelled) tells.apart
  · intro legible
    have scans := (prints.reads legible).scans rfl
    rw [← text] at scans
    refine scans.parse (.root (Grammar.areSegments_tokensAll fun number inside => ?_))
    exact decimalValue?_binary64Text (legible _ inside)

/-- A path with a negated disjunction, a quote in a name, and a decimal. -/
theorem Segment.parse_normalPath_filter :
    let text := "$.a[?!(@.b || $['it\\'s'] >= -2.00)]..c[0]"
    let segments : List Segment :=
      [.child (.name "a"),
        .child (.filter (.not (.or (.holds (.candidate [.child (.name "b")]))
          (.compare (.root [.child (.name "it's")]) .greaterOrEqual
            (.literal (.number (.float (.ofInt (-2))))))))),
        .descendant (.name "c"), .child (.index 0)]
    Segment.parse text = .ok segments ∧
      Segment.normalPath segments =
        "$['a'][?(!(@['b'] || $['it\\'s']>=-2.0))]..['c'][0]" ∧
      Segment.parse (Segment.normalPath segments) = .ok segments := by
  intro text segments
  have read : Segment.parse text = .ok segments := by decide +kernel
  exact ⟨read, by decide +kernel, (Segment.parse_normalPath_iff read).mpr (by decide +kernel)⟩

/-- A name with a backslash and a number of seventeen digits before the point are read, and what is
printed for them is not read as the same path. -/
theorem Segment.parse_normalPath_differs :
    let name : List Segment := [.child (.name "a\\b")]
    let number : List Segment := [.child (.filter (.compare (.candidate [.child (.name "n")]) .equal
      (.literal (.number (.float (.ofInt 10000000000000000))))))]
    (Segment.parse "$['a\\\\b']" = .ok name ∧ Segment.normalPath name = "$['a\\b']" ∧
        Segment.parse (Segment.normalPath name) ≠ .ok name) ∧
      Segment.parse "$[?(@.n == 10000000000000000.0)]" = .ok number ∧
        Segment.normalPath number = "$[?(@['n']==1e+16)]" ∧
        Segment.parse (Segment.normalPath number) ≠ .ok number := by
  decide +kernel

end TemplateFill
