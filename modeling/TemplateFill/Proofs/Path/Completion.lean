import TemplateFill.Proofs.Path.Prediction

/-!
What can still become a path.

Which tokens are refused does not depend on where they stand. Whatever is wanted behind tokens can
be written, so the tokens in front of a refused one are those of a path cut short, but with the
refused one they are not; and where the tokens end too early, all of them are.
-/

namespace TemplateFill

namespace PathParser

variable {finish : Nat} {found : Lexeme} {lexemes : List Lexeme} {wants later : List Want}

/-! ### Places and tokens -/

def movedError (move : Nat → Nat) : ParseError → ParseError
  | .emptyExpression => .emptyExpression
  | .unexpectedCharacter character position => .unexpectedCharacter character (move position)
  | .unexpectedToken token position => .unexpectedToken token (move position)
  | .expectedToken wanted token position => .expectedToken wanted token (move position)
  | .unexpectedEnd position => .unexpectedEnd (move position)
  | .invalidLiteral kind value position => .invalidLiteral kind value (move position)
  | .invalidEscape sequence position => .invalidEscape sequence (move position)
  | .unclosedString position => .unclosedString (move position)

structure Moved (move : Nat → Nat) (found other : Lexeme) : Prop where
  token : other.token = found.token
  start : other.start = move found.start

section

variable {move : Nat → Nat} {other : Lexeme}

theorem map_mapError {α β : Type} (result : Except ParseError α) (next : α → β) :
    (result.mapError (movedError move)).map next =
      (result.map next).mapError (movedError move) := by
  cases result <;> rfl

theorem expected_moved {α : Type} (moved : Moved move found other) (wanted : Wanted) :
    (expected 0 wanted [other] : Except ParseError α) =
      (expected 0 wanted [found]).mapError (movedError move) := by
  rw [expected, expected, moved.token, moved.start]
  rfl

theorem dotted_moved (moved : Moved move found other) :
    dotted 0 [other] = (dotted 0 [found]).mapError (movedError move) := by
  rw [dotted, dotted, moved.token]
  split
  · rfl
  · split
    · rfl
    · exact expected_moved moved .memberName

theorem expect_moved (moved : Moved move found other) (mark : Token) :
    expect 0 mark [other] = (expect 0 mark [found]).mapError (movedError move) := by
  rw [expect, expect, moved.token]
  split
  · rfl
  · exact expected_moved moved (.exactly mark)

theorem literal_moved (moved : Moved move found other) :
    literal 0 [other] = (literal 0 [found]).mapError (movedError move) := by
  rw [literal, literal, moved.token, moved.start]
  split
  · rfl
  · rfl
  · rename_i digits _
    cases decimalValue? digits <;> rfl
  · rfl
  · rfl
  · rfl
  · exact expected_moved moved .filterOperand

theorem feedOperand_moved (moved : Moved move found other) (wants : List Want) :
    feedOperand other wants = (feedOperand found wants).mapError (movedError move) := by
  rw [feedOperand, feedOperand, moved.token, literal_moved moved, map_mapError]
  split <;> rfl

/-- Which tokens are refused, and why, does not depend on where they stand. -/
theorem feed_moved (moved : Moved move found other) (wants : List Want) :
    feed other wants = (feed found wants).mapError (movedError move) := by
  induction wants with
  | nil =>
      rw [feed, feed, moved.token, moved.start]
      rfl
  | cons want wants ih =>
      cases want with
      | path =>
          rw [feed, feed, moved.token, moved.start]
          split
          · rfl
          · split <;> rfl
      | dotted => rw [feed, feed, dotted_moved moved, map_mapError]
      | descended =>
          rw [feed, feed, moved.token]
          split
          · rfl
          · rw [dotted_moved moved, map_mapError]
      | content =>
          rw [feed, feed, moved.token, moved.start]
          split
          · rfl
          · rfl
          · split <;> rfl
          · rfl
          · exact expected_moved moved .bracketContent
      | rightBracket => rw [feed, feed, expect_moved moved, map_mapError]
      | rightParen => rw [feed, feed, expect_moved moved, map_mapError]
      | unary =>
          rw [feed, feed, moved.token]
          split
          · rfl
          · rfl
          · exact feedOperand_moved moved _
      | operand => exact feedOperand_moved moved wants
      | segments =>
          rw [feed, feed, moved.token]
          split
          · rfl
          · rfl
          · rfl
          · exact ih
      | operator =>
          rw [feed, feed, moved.token]
          split
          · rfl
          · exact ih
      | conjuncts =>
          rw [feed, feed, moved.token]
          split
          · rfl
          · exact ih
      | disjuncts =>
          rw [feed, feed, moved.token]
          split
          · rfl
          · exact ih

theorem fault?_moved {place : Lexeme → Lexeme} (moves : ∀ lexeme, Moved move lexeme (place lexeme))
    (finish : Nat) (wants : List Want) (lexemes : List Lexeme) :
    fault? (move finish) wants (lexemes.map place) =
      (fault? finish wants lexemes).map (movedError move) := by
  induction lexemes generalizing wants with
  | nil =>
      rw [List.map_nil, fault?, fault?]
      split <;> rfl
  | cons found rest ih =>
      rw [List.map_cons, fault?, fault?, feed_moved (moves found)]
      cases feed found wants with
      | error error => rfl
      | ok later => exact ih later

/-- Lexemes at other places stand for the same path or have the same fault at its new place. -/
theorem ofLexemes_moved {place : Lexeme → Lexeme}
    (moves : ∀ lexeme, Moved move lexeme (place lexeme)) (finish : Nat) (lexemes : List Lexeme) :
    ofLexemes (move finish) (lexemes.map place) =
      (ofLexemes finish lexemes).mapError (movedError move) := by
  have tokens : (lexemes.map place).map Lexeme.token = lexemes.map Lexeme.token := by
    rw [List.map_map]
    exact List.map_congr_left fun lexeme _ => (moves lexeme).token
  cases read : ofLexemes finish lexemes with
  | ok path =>
      have written := isPath_of_ofLexemes read
      rw [← tokens] at written
      exact ofLexemes_of_isPath written
  | error error =>
      cases lexemes with
      | nil =>
          cases read
          rfl
      | cons found rest =>
          have fault := (ofLexemes_eq_error_iff (List.cons_ne_nil found rest)).mp read
          refine (ofLexemes_eq_error_iff (by simp)).mpr ?_
          rw [fault?_moved moves, fault]
          rfl

end

/-! ### Completions -/

/-- The least that can be written for what is wanted. -/
def Want.completion : Want → List Token
  | path => [.dollar]
  | dotted | descended | content => [.star]
  | rightBracket => [.rightBracket]
  | rightParen => [.rightParen]
  | unary | operand => [.nullWord]
  | _ => []

def bare (token : Token) : Lexeme := ⟨token, 0, 0⟩

/-- The tokens are what is wanted, with nothing missing and nothing behind. -/
def Completes (wants : List Want) (tokens : List Token) : Prop :=
  fault? 0 wants (tokens.map bare) = none

theorem moved_bare (lexeme : Lexeme) : Moved (fun _ => 0) lexeme (bare lexeme.token) :=
  ⟨rfl, rfl⟩

theorem completes_cons (fed : feed found wants = .ok later) (tokens : List Token) :
    Completes wants (found.token :: tokens) ↔ Completes later tokens := by
  have again : feed (bare found.token) wants = .ok later := by
    rw [feed_moved (moved_bare found), fed]
    rfl
  rw [Completes, Completes, List.map_cons, fault?_of_feed again]

theorem not_completes_cons {error : ParseError} (refused : feed found wants = .error error)
    (tokens : List Token) : ¬Completes wants (found.token :: tokens) := by
  have again : feed (bare found.token) wants = .error (movedError (fun _ => 0) error) := by
    rw [feed_moved (moved_bare found), refused]
    rfl
  rw [Completes, List.map_cons, fault?_of_refused again]
  nofun

/-- Tokens that complete what is wanted belong to nothing that may be missing. -/
theorem feed_completion {want wanted : Want} (optional : want.optional = true) {token : Token}
    (inside : token ∈ wanted.completion) (wants : List Want) :
    feed (bare token) (want :: wants) = feed (bare token) wants := by
  have closing : token ∈ [.dollar, .star, .rightBracket, .rightParen, .nullWord] := by
    cases wanted <;> simp_all [Want.completion]
  simp only [List.mem_cons, List.not_mem_nil, or_false] at closing
  rcases closing with rfl | rfl | rfl | rfl | rfl <;> cases want <;> first | rfl | cases optional

theorem completes_optional {want : Want} (optional : want.optional = true) (wants : List Want) :
    Completes (want :: wants) (wants.flatMap Want.completion) ↔
      Completes wants (wants.flatMap Want.completion) := by
  unfold Completes
  cases shape : wants.flatMap Want.completion with
  | nil => rw [List.map_nil, fault?_nil_cons optional]
  | cons token tokens =>
      have first : token ∈ wants.flatMap Want.completion := by simp [shape]
      rcases List.mem_flatMap.mp first with ⟨wanted, -, inside⟩
      rw [List.map_cons, fault?_congr (feed_completion optional inside wants)]

theorem completes_completion (wants : List Want) :
    Completes wants (wants.flatMap Want.completion) := by
  induction wants with
  | nil => rfl
  | cons want wants ih =>
      have missing {optional : Want} (may : optional.optional = true) :
          Completes (optional :: wants) (wants.flatMap Want.completion) :=
        (completes_optional may wants).mpr ih
      cases want with
      | path => exact (missing rfl : Completes (.segments :: wants) _)
      | dotted => exact ih
      | descended => exact ih
      | content => exact ih
      | rightBracket => exact ih
      | rightParen => exact ih
      | unary => exact (missing rfl : Completes (.operator :: wants) _)
      | operand => exact ih
      | segments => exact missing rfl
      | operator => exact missing rfl
      | conjuncts => exact missing rfl
      | disjuncts => exact missing rfl

inductive Blames (found : Lexeme) : ParseError → Prop
  | unexpected : Blames found (.unexpectedToken found.token found.start)
  | expected (wanted : Wanted) : Blames found (.expectedToken wanted found.token found.start)
  | literal (kind : LiteralKind) (text : String) :
      Blames found (.invalidLiteral kind text found.start)

section

variable {error : ParseError}

theorem blames_of_dotted (refused : ((dotted 0 [found]).map fun _ => wants) = .error error) :
    Blames found error := by
  unfold dotted at refused
  dsimp only at refused
  split at refused
  · cases refused
  · split at refused
    · cases refused
    · cases refused
      exact .expected _

theorem blames_of_expect {mark : Token}
    (refused : ((expect 0 mark [found]).map fun _ => wants) = .error error) :
    Blames found error := by
  unfold expect at refused
  dsimp only at refused
  split at refused
  · cases refused
  · cases refused
    exact .expected _

theorem blames_of_feedOperand (refused : feedOperand found wants = .error error) :
    Blames found error := by
  unfold feedOperand at refused
  split at refused
  · cases refused
  · cases refused
  · unfold literal at refused
    dsimp only at refused
    split at refused
    case h_3 digits _ =>
      cases value : decimalValue? digits with
      | some number =>
          rw [value] at refused
          cases refused
      | none =>
          rw [value] at refused
          cases refused
          exact .literal _ _
    case h_7 =>
      cases refused
      exact .expected _
    all_goals cases refused

theorem blames_of_feed (refused : feed found wants = .error error) : Blames found error := by
  induction wants with
  | nil =>
      cases refused
      exact .unexpected
  | cons want wants ih =>
      cases want with
      | path =>
          rw [feed] at refused
          split at refused
          · cases refused
          · split at refused
            · cases refused
            · cases refused
              exact .unexpected
      | dotted => exact blames_of_dotted refused
      | descended =>
          rw [feed] at refused
          split at refused
          · cases refused
          · exact blames_of_dotted refused
      | content =>
          rw [feed] at refused
          split at refused
          · cases refused
          · cases refused
          · split at refused
            · cases refused
              exact .literal _ _
            · cases refused
          · cases refused
          · cases refused
            exact .expected _
      | rightBracket => exact blames_of_expect refused
      | rightParen => exact blames_of_expect refused
      | unary =>
          rw [feed] at refused
          split at refused
          · cases refused
          · cases refused
          · exact blames_of_feedOperand refused
      | operand => exact blames_of_feedOperand refused
      | segments =>
          rw [feed] at refused
          split at refused
          · cases refused
          · cases refused
          · cases refused
          · exact ih refused
      | operator =>
          rw [feed] at refused
          split at refused
          · cases refused
          · exact ih refused
      | conjuncts =>
          rw [feed] at refused
          split at refused
          · cases refused
          · exact ih refused
      | disjuncts =>
          rw [feed] at refused
          split at refused
          · cases refused
          · exact ih refused

end

/-- Where lexemes go wrong: at the first token behind which nothing completes them, although what
stands in front of it can be completed; or at the end, where something is still wanted. -/
inductive Fails (finish : Nat) (wants : List Want) (lexemes : List Lexeme) : ParseError → Prop
  | refused (before : List Lexeme) {behind : List Lexeme} {found : Lexeme} {others : List Want}
      {error : ParseError} (split : lexemes = before ++ found :: behind)
      (blames : Blames found error)
      (viable : Completes wants (before.map Lexeme.token ++ others.flatMap Want.completion))
      (dead : ∀ more, ¬Completes wants (before.map Lexeme.token ++ found.token :: more)) :
      Fails finish wants lexemes error
  | unfinished {others : List Want} (filled : others.flatMap Want.completion ≠ [])
      (viable : Completes wants (lexemes.map Lexeme.token ++ others.flatMap Want.completion)) :
      Fails finish wants lexemes (.unexpectedEnd finish)

theorem fails_of_fault? {error : ParseError} (fault : fault? finish wants lexemes = some error) :
    Fails finish wants lexemes error := by
  induction lexemes generalizing wants with
  | nil =>
      unfold fault? at fault
      split at fault
      · cases fault
      · rename_i missing
        cases fault
        refine .unfinished ?_ (completes_completion wants)
        intro nothing
        refine missing (List.all_eq_true.mpr fun want inside => ?_)
        have none := List.flatMap_eq_nil_iff.mp nothing want inside
        cases want <;> first | rfl | cases none
  | cons found rest ih =>
      rw [fault?] at fault
      cases fed : feed found wants with
      | error blamed =>
          rw [fed] at fault
          cases fault
          exact .refused [] rfl (blames_of_feed fed) (completes_completion wants)
            (not_completes_cons fed)
      | ok later =>
          rw [fed] at fault
          cases ih fault with
          | @refused before behind other others _ split blames viable dead =>
              refine .refused (found :: before) (congrArg (found :: ·) split) blames
                ((completes_cons fed _).mpr viable) fun more completes => ?_
              exact dead more ((completes_cons fed _).mp completes)
          | unfinished filled viable =>
              exact .unfinished filled ((completes_cons fed _).mpr viable)

def Accepted (tokens : List Token) : Prop :=
  ∃ finish lexemes path, lexemes.map Lexeme.token = tokens ∧ ofLexemes finish lexemes = .ok path

theorem exists_ofLexemes (accepted : Accepted (lexemes.map Lexeme.token)) (finish : Nat) :
    ∃ path, ofLexemes finish lexemes = .ok path := by
  rcases accepted with ⟨_, others, path, same, read⟩
  have written := isPath_of_ofLexemes read
  rw [same] at written
  exact ⟨path, ofLexemes_of_isPath written⟩

theorem completes_path_iff {tokens : List Token} : Completes [.path] tokens ↔ Accepted tokens := by
  have same : (tokens.map bare).map Lexeme.token = tokens := by
    simp [Function.comp_def, bare]
  constructor
  · intro completes
    cases read : ofLexemes 0 (tokens.map bare) with
    | ok path => exact ⟨0, _, path, same, read⟩
    | error error =>
        cases tokens with
        | nil => cases completes
        | cons token tokens =>
            have fault := (ofLexemes_eq_error_iff (by simp)).mp read
            rw [Completes, fault] at completes
            cases completes
  · intro accepted
    rw [← same] at accepted
    rcases exists_ofLexemes accepted 0 with ⟨path, read⟩
    cases fault : fault? 0 [.path] (tokens.map bare) with
    | none => exact fault
    | some error =>
        cases tokens with
        | nil => cases read
        | cons token tokens =>
            rw [(ofLexemes_eq_error_iff (by simp)).mpr fault] at read
            cases read

end PathParser

end TemplateFill
