import TemplateFill.Proofs.Path.Grammar
import TemplateFill.Proofs.Results

/-!
What the parser reads follows the grammar.

A reading takes lexemes off the front, and their tokens are a phrase of the grammar that stands for
the result. Every function reads with fewer steps than it was given, so this is shown for one more
step from what holds for the steps before.
-/

namespace TemplateFill

open Grammar

namespace PathParser

variable {finish steps : Nat} {lexemes rest : List Lexeme}

/-! ### Single tokens -/

theorem name?_eq_some_iff {token : Token} {name : String} :
    token.name? = some name ↔ IsName token name := by
  constructor
  · intro named
    cases token with
    | identifier text => cases named; exact .identifier name
    | trueWord => cases named; exact .trueWord
    | falseWord => cases named; exact .falseWord
    | nullWord => cases named; exact .nullWord
    | _ => cases named
  · intro named
    cases named <;> rfl

theorem comparison?_eq_some_iff {token : Token} {operator : Comparison} :
    comparison? token = some operator ↔ IsOperator token operator := by
  constructor
  · intro reads
    cases token with
    | equal => cases reads; exact .equal
    | notEqual => cases reads; exact .notEqual
    | less => cases reads; exact .less
    | lessOrEqual => cases reads; exact .lessOrEqual
    | greater => cases reads; exact .greater
    | greaterOrEqual => cases reads; exact .greaterOrEqual
    | _ => cases reads
  · intro operator
    cases operator <;> rfl

theorem decimal_eq_ok_iff {digits : String} {start : Nat} {number? : Option Binary64}
    {operand : Operand} :
    decimal digits start lexemes number? = .ok (operand, rest) ↔
      ∃ number, number? = some number ∧ operand = .literal (.number (.float number)) ∧
        rest = lexemes := by
  cases number? with
  | none => simp [decimal]
  | some number => simp [decimal, eq_comm]

theorem literal_eq_ok_iff {operand : Operand} :
    literal finish lexemes = .ok (operand, rest) ↔
      ∃ found value, lexemes = found :: rest ∧ IsLiteral found.token value ∧
        operand = .literal value := by
  cases lexemes with
  | nil => simp [literal]
  | cons found lexemes =>
      rw [literal]
      constructor
      · intro done
        split at done
        all_goals rename_i token
        · cases done
          exact ⟨_, _, rfl, token ▸ .string _, rfl⟩
        · cases done
          exact ⟨_, _, rfl, token ▸ .integer _, rfl⟩
        · obtain ⟨_, finite, rfl, rfl⟩ := decimal_eq_ok_iff.mp done
          exact ⟨_, _, rfl, token ▸ .decimal finite, rfl⟩
        · cases done
          exact ⟨_, _, rfl, token ▸ .trueWord, rfl⟩
        · cases done
          exact ⟨_, _, rfl, token ▸ .falseWord, rfl⟩
        · cases done
          exact ⟨_, _, rfl, token ▸ .nullWord, rfl⟩
        · cases done
      · rintro ⟨_, value, ⟨⟩, written, rfl⟩
        generalize found.token = token at written
        cases written with
        | decimal finite => exact decimal_eq_ok_iff.mpr ⟨_, finite, rfl, rfl⟩
        | _ => rfl

theorem dotted_eq_ok_iff {selector : Selector} :
    dotted finish lexemes = .ok (selector, rest) ↔
      ∃ found, lexemes = found :: rest ∧ IsDotted found.token selector := by
  cases lexemes with
  | nil => simp [dotted]
  | cons found lexemes =>
      rw [dotted]
      constructor
      · intro done
        split at done
        · rename_i star
          cases done
          exact ⟨_, rfl, star ▸ .wildcard⟩
        · split at done
          · rename_i named
            cases done
            exact ⟨_, rfl, .name (name?_eq_some_iff.mp named)⟩
          · cases done
      · rintro ⟨_, ⟨⟩, reads⟩
        generalize found.token = token at reads
        cases reads with
        | wildcard => rfl
        | name named =>
            have noStar : token ≠ .star := by
              rintro rfl
              cases named
            rw [if_neg noStar, name?_eq_some_iff.mpr named]

theorem expect_eq_ok_iff {token : Token} :
    expect finish token lexemes = .ok rest ↔
      ∃ found, lexemes = found :: rest ∧ found.token = token := by
  cases lexemes with
  | nil => simp [expect]
  | cons found lexemes =>
      rw [expect]
      constructor
      · intro done
        split at done
        · cases done
          exact ⟨_, rfl, by assumption⟩
        · cases done
      · rintro ⟨_, ⟨⟩, same⟩
        rw [if_pos same]

/-! ### Joined filters -/

/-- A whole is read side by side. Behind a side, another is read as long as the mark follows, and
is joined to what stands in front of it. -/
structure Joins (mark : Token) (join : Filter → Filter → Filter)
    (side whole : Nat → List Lexeme → Except ParseError (Filter × List Lexeme))
    (more : Nat → Filter → List Lexeme → Except ParseError (Filter × List Lexeme)) : Prop where
  whole_succ : ∀ (steps : Nat) (lexemes : List Lexeme), whole (steps + 1) lexemes = (do
    let (left, rest) ← side steps lexemes
    more steps left rest)
  more_nil : ∀ (steps : Nat) (left : Filter), more (steps + 1) left [] = .ok (left, [])
  more_cons : ∀ (steps : Nat) (left : Filter) (found : Lexeme) (rest : List Lexeme),
    more (steps + 1) left (found :: rest) =
      if found.token = mark then do
        let (right, rest) ← side steps rest
        more steps (join left right) rest
      else .ok (left, found :: rest)

theorem joins_or (finish : Nat) :
    Joins .or .or (conjunction finish) (disjunction finish) (moreDisjuncts finish) where
  whole_succ := fun _ _ => by rw [disjunction]
  more_nil := fun _ _ => rfl
  more_cons := fun _ _ _ _ => by rw [moreDisjuncts]

theorem joins_and (finish : Nat) :
    Joins .and .and (unary finish) (conjunction finish) (moreConjuncts finish) where
  whole_succ := fun _ _ => by rw [conjunction]
  more_nil := fun _ _ => rfl
  more_cons := fun _ _ _ _ => by rw [moreConjuncts]

/-! ### Phrases -/

/-- The lexemes in front of the rest are a phrase that stands for the result. -/
def Spells {α : Type} (phrase : List Token → α → Prop) (lexemes : List Lexeme) (result : α)
    (rest : List Lexeme) : Prop :=
  ∃ front, lexemes = front ++ rest ∧ phrase (front.map Lexeme.token) result

/-- With these steps, whatever is read is a phrase. -/
structure Sound (finish steps : Nat) : Prop where
  ofSegments : ∀ {lexemes rest : List Lexeme} {read : List Segment},
    segments finish steps lexemes = .ok (read, rest) → Spells AreSegments lexemes read rest
  ofDescended : ∀ {lexemes rest : List Lexeme} {selector : Selector},
    descended finish steps lexemes = .ok (selector, rest) →
      Spells (fun tokens selector => IsSegment (.dotDot :: tokens) (.descendant selector))
        lexemes selector rest
  ofBracket : ∀ {lexemes rest : List Lexeme} {selector : Selector},
    bracket finish steps lexemes = .ok (selector, rest) →
      Spells (fun tokens => IsBracket (.leftBracket :: tokens)) lexemes selector rest
  ofContent : ∀ {lexemes rest : List Lexeme} {selector : Selector},
    content finish steps lexemes = .ok (selector, rest) →
      Spells (fun tokens => IsBracket (.leftBracket :: (tokens ++ [.rightBracket])))
        lexemes selector rest
  ofDisjunction : ∀ {lexemes rest : List Lexeme} {condition : Filter},
    disjunction finish steps lexemes = .ok (condition, rest) →
      Spells IsOr lexemes condition rest
  ofMoreDisjuncts : ∀ {lexemes rest : List Lexeme} {left condition : Filter} {before : List Token},
    IsOr before left → moreDisjuncts finish steps left lexemes = .ok (condition, rest) →
      Spells (fun tokens => IsOr (before ++ tokens)) lexemes condition rest
  ofConjunction : ∀ {lexemes rest : List Lexeme} {condition : Filter},
    conjunction finish steps lexemes = .ok (condition, rest) →
      Spells IsAnd lexemes condition rest
  ofMoreConjuncts : ∀ {lexemes rest : List Lexeme} {left condition : Filter} {before : List Token},
    IsAnd before left → moreConjuncts finish steps left lexemes = .ok (condition, rest) →
      Spells (fun tokens => IsAnd (before ++ tokens)) lexemes condition rest
  ofUnary : ∀ {lexemes rest : List Lexeme} {condition : Filter},
    unary finish steps lexemes = .ok (condition, rest) → Spells IsUnary lexemes condition rest
  ofComparison : ∀ {lexemes rest : List Lexeme} {condition : Filter},
    comparison finish steps lexemes = .ok (condition, rest) →
      Spells IsComparison lexemes condition rest
  ofOperand : ∀ {lexemes rest : List Lexeme} {read : Operand},
    operand finish steps lexemes = .ok (read, rest) → Spells IsOperand lexemes read rest

theorem spells_segments (earlier : Sound finish steps) {read : List Segment}
    (done : segments finish (steps + 1) lexemes = .ok (read, rest)) :
    Spells AreSegments lexemes read rest := by
  cases lexemes with
  | nil =>
      cases done
      exact ⟨[], rfl, .nil⟩
  | cons found lexemes =>
      rw [segments] at done
      split at done
      all_goals rename_i mark
      · obtain ⟨⟨selector, behind⟩, one, done⟩ := bind_eq_ok.mp done
        obtain ⟨⟨later, behind⟩, more, done⟩ := bind_eq_ok.mp done
        cases done
        obtain ⟨next, rfl, written⟩ := dotted_eq_ok_iff.mp one
        obtain ⟨front, rfl, path⟩ := earlier.ofSegments more
        refine ⟨found :: next :: front, rfl, ?_⟩
        rw [List.map_cons, mark]
        exact .cons (.child written) path
      · obtain ⟨⟨selector, behind⟩, one, done⟩ := bind_eq_ok.mp done
        obtain ⟨⟨later, behind⟩, more, done⟩ := bind_eq_ok.mp done
        cases done
        obtain ⟨inner, rfl, written⟩ := earlier.ofDescended one
        obtain ⟨front, rfl, path⟩ := earlier.ofSegments more
        refine ⟨found :: inner ++ front, by simp, ?_⟩
        rw [List.map_append, List.map_cons, mark]
        exact .cons written path
      · obtain ⟨⟨selector, behind⟩, one, done⟩ := bind_eq_ok.mp done
        obtain ⟨⟨later, behind⟩, more, done⟩ := bind_eq_ok.mp done
        cases done
        obtain ⟨inner, rfl, written⟩ := earlier.ofBracket one
        obtain ⟨front, rfl, path⟩ := earlier.ofSegments more
        refine ⟨found :: inner ++ front, by simp, ?_⟩
        rw [List.map_append, List.map_cons, mark]
        exact .cons (.bracketChild written) path
      · cases done
        exact ⟨[], rfl, .nil⟩

theorem spells_descended (earlier : Sound finish steps) {selector : Selector}
    (done : descended finish (steps + 1) lexemes = .ok (selector, rest)) :
    Spells (fun tokens selector => IsSegment (.dotDot :: tokens) (.descendant selector))
      lexemes selector rest := by
  cases lexemes with
  | nil => cases done
  | cons found lexemes =>
      rw [descended] at done
      split at done
      · rename_i mark
        obtain ⟨front, rfl, written⟩ := earlier.ofBracket done
        refine ⟨found :: front, rfl, ?_⟩
        rw [List.map_cons, mark]
        exact .bracketDescendant written
      · obtain ⟨next, same, written⟩ := dotted_eq_ok_iff.mp done
        exact ⟨[next], same, .descendant written⟩

theorem spells_bracket (earlier : Sound finish steps) {selector : Selector}
    (done : bracket finish (steps + 1) lexemes = .ok (selector, rest)) :
    Spells (fun tokens => IsBracket (.leftBracket :: tokens)) lexemes selector rest := by
  rw [bracket] at done
  obtain ⟨⟨selector, behind⟩, inside, done⟩ := bind_eq_ok.mp done
  obtain ⟨behind, closed, done⟩ := bind_eq_ok.mp done
  cases done
  obtain ⟨front, rfl, written⟩ := earlier.ofContent inside
  obtain ⟨last, rfl, mark⟩ := expect_eq_ok_iff.mp closed
  refine ⟨front ++ [last], by simp, ?_⟩
  rw [List.map_append, List.map_singleton, mark]
  exact written

theorem spells_content (earlier : Sound finish steps) {selector : Selector}
    (done : content finish (steps + 1) lexemes = .ok (selector, rest)) :
    Spells (fun tokens => IsBracket (.leftBracket :: (tokens ++ [.rightBracket])))
      lexemes selector rest := by
  cases lexemes with
  | nil => cases done
  | cons found lexemes =>
      rw [content] at done
      split at done
      all_goals rename_i mark
      · cases done
        refine ⟨[found], rfl, ?_⟩
        rw [List.map_singleton, mark]
        exact .wildcard
      · split at done
        · cases done
        · rename_i value _ natural
          cases done
          refine ⟨[found], rfl, ?_⟩
          rw [List.map_singleton, mark, ← Int.toNat_of_nonneg (Int.not_lt.mp natural)]
          exact .index _
      · cases done
        refine ⟨[found], rfl, ?_⟩
        rw [List.map_singleton, mark]
        exact .name _
      · obtain ⟨⟨condition, behind⟩, inside, done⟩ := bind_eq_ok.mp done
        cases done
        obtain ⟨front, rfl, written⟩ := earlier.ofDisjunction inside
        refine ⟨found :: front, rfl, ?_⟩
        rw [List.map_cons, mark]
        exact .filter written
      · cases done

section Joins

variable {mark : Token} {join : Filter → Filter → Filter}
  {side whole : Nat → List Lexeme → Except ParseError (Filter × List Lexeme)}
  {more : Nat → Filter → List Lexeme → Except ParseError (Filter × List Lexeme)}
  {one joined : List Token → Filter → Prop} {left condition : Filter}

theorem Joins.spells_whole (joins : Joins mark join side whole more)
    (single : ∀ {tokens : List Token} {condition : Filter}, one tokens condition →
      joined tokens condition)
    (ofSide : ∀ {lexemes rest : List Lexeme} {condition : Filter},
      side steps lexemes = .ok (condition, rest) → Spells one lexemes condition rest)
    (ofMore : ∀ {lexemes rest : List Lexeme} {left condition : Filter} {before : List Token},
      joined before left → more steps left lexemes = .ok (condition, rest) →
        Spells (fun tokens => joined (before ++ tokens)) lexemes condition rest)
    (done : whole (steps + 1) lexemes = .ok (condition, rest)) :
    Spells joined lexemes condition rest := by
  rw [joins.whole_succ] at done
  obtain ⟨⟨left, behind⟩, first, goesOn⟩ := bind_eq_ok.mp done
  obtain ⟨front, rfl, before⟩ := ofSide first
  obtain ⟨later, rfl, written⟩ := ofMore (single before) goesOn
  refine ⟨front ++ later, by simp, ?_⟩
  rw [List.map_append]
  exact written

theorem Joins.spells_more (joins : Joins mark join side whole more)
    (append : ∀ {first second : List Token} {left right : Filter}, joined first left →
      one second right → joined (first ++ mark :: second) (join left right))
    (ofSide : ∀ {lexemes rest : List Lexeme} {condition : Filter},
      side steps lexemes = .ok (condition, rest) → Spells one lexemes condition rest)
    (ofMore : ∀ {lexemes rest : List Lexeme} {left condition : Filter} {before : List Token},
      joined before left → more steps left lexemes = .ok (condition, rest) →
        Spells (fun tokens => joined (before ++ tokens)) lexemes condition rest)
    {before : List Token} (first : joined before left)
    (done : more (steps + 1) left lexemes = .ok (condition, rest)) :
    Spells (fun tokens => joined (before ++ tokens)) lexemes condition rest := by
  cases lexemes with
  | nil =>
      rw [joins.more_nil] at done
      cases done
      exact ⟨[], rfl, by simpa using first⟩
  | cons found lexemes =>
      rw [joins.more_cons] at done
      split at done
      · rename_i marked
        obtain ⟨⟨right, behind⟩, second, goesOn⟩ := bind_eq_ok.mp done
        obtain ⟨front, rfl, last⟩ := ofSide second
        obtain ⟨later, rfl, written⟩ := ofMore (append first last) goesOn
        refine ⟨found :: front ++ later, by simp, ?_⟩
        rw [List.append_assoc] at written
        rw [List.map_append, List.map_cons, marked]
        exact written
      · cases done
        exact ⟨[], rfl, by simpa using first⟩

end Joins

theorem spells_unary (earlier : Sound finish steps) {condition : Filter}
    (done : unary finish (steps + 1) lexemes = .ok (condition, rest)) :
    Spells IsUnary lexemes condition rest := by
  cases lexemes with
  | nil => cases done
  | cons found lexemes =>
      rw [unary] at done
      split at done
      all_goals rename_i mark
      · obtain ⟨⟨inner, behind⟩, one, done⟩ := bind_eq_ok.mp done
        cases done
        obtain ⟨front, rfl, written⟩ := earlier.ofUnary one
        refine ⟨found :: front, rfl, ?_⟩
        rw [List.map_cons, mark]
        exact .not written
      · obtain ⟨⟨inner, behind⟩, one, done⟩ := bind_eq_ok.mp done
        obtain ⟨behind, closed, done⟩ := bind_eq_ok.mp done
        cases done
        obtain ⟨front, rfl, written⟩ := earlier.ofDisjunction one
        obtain ⟨last, rfl, close⟩ := expect_eq_ok_iff.mp closed
        refine ⟨found :: (front ++ [last]), by simp, ?_⟩
        rw [List.map_cons, mark, List.map_append, List.map_singleton, close]
        exact .grouped written
      · obtain ⟨front, same, written⟩ := earlier.ofComparison done
        exact ⟨front, same, .comparison written⟩

theorem spells_comparison (earlier : Sound finish steps) {condition : Filter}
    (done : comparison finish (steps + 1) lexemes = .ok (condition, rest)) :
    Spells IsComparison lexemes condition rest := by
  rw [comparison] at done
  obtain ⟨⟨left, behind⟩, one, more⟩ := bind_eq_ok.mp done
  obtain ⟨front, rfl, before⟩ := earlier.ofOperand one
  cases behind with
  | nil =>
      cases more
      exact ⟨front, rfl, .holds before⟩
  | cons sign lexemes =>
      dsimp only at more
      split at more
      · cases more
        exact ⟨front, rfl, .holds before⟩
      · rename_i between
        obtain ⟨⟨right, behind⟩, two, more⟩ := bind_eq_ok.mp more
        cases more
        obtain ⟨later, rfl, last⟩ := earlier.ofOperand two
        refine ⟨front ++ sign :: later, by simp, ?_⟩
        rw [List.map_append, List.map_cons]
        exact .compare before (comparison?_eq_some_iff.mp between) last

theorem spells_operand (earlier : Sound finish steps) {read : Operand}
    (done : operand finish (steps + 1) lexemes = .ok (read, rest)) :
    Spells IsOperand lexemes read rest := by
  cases lexemes with
  | nil => cases done
  | cons found lexemes =>
      rw [operand] at done
      split at done
      all_goals rename_i mark
      · obtain ⟨⟨path, behind⟩, one, done⟩ := bind_eq_ok.mp done
        cases done
        obtain ⟨front, rfl, written⟩ := earlier.ofSegments one
        refine ⟨found :: front, rfl, ?_⟩
        rw [List.map_cons, mark]
        exact .candidate written
      · obtain ⟨⟨path, behind⟩, one, done⟩ := bind_eq_ok.mp done
        cases done
        obtain ⟨front, rfl, written⟩ := earlier.ofSegments one
        refine ⟨found :: front, rfl, ?_⟩
        rw [List.map_cons, mark]
        exact .root written
      · obtain ⟨found, value, same, written, rfl⟩ := literal_eq_ok_iff.mp done
        exact ⟨[found], same, .literal written⟩

theorem sound (finish steps : Nat) : Sound finish steps := by
  induction steps with
  | zero => constructor <;> intros <;> contradiction
  | succ steps earlier =>
      exact {
        ofSegments := spells_segments earlier
        ofDescended := spells_descended earlier
        ofBracket := spells_bracket earlier
        ofContent := spells_content earlier
        ofDisjunction :=
          (joins_or finish).spells_whole .single earlier.ofConjunction earlier.ofMoreDisjuncts
        ofMoreDisjuncts :=
          (joins_or finish).spells_more .or earlier.ofConjunction earlier.ofMoreDisjuncts
        ofConjunction :=
          (joins_and finish).spells_whole .single earlier.ofUnary earlier.ofMoreConjuncts
        ofMoreConjuncts :=
          (joins_and finish).spells_more .and earlier.ofUnary earlier.ofMoreConjuncts
        ofUnary := spells_unary earlier
        ofComparison := spells_comparison earlier
        ofOperand := spells_operand earlier }

end PathParser

end TemplateFill
