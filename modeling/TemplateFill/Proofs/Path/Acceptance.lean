import TemplateFill.Proofs.Path.Reading

/-!
The parser reads all that the grammar derives, and so accepts the paths of the grammar and no
others.

A reading ends in front of the first token that cannot go on with its phrase. Tokens are ranked by
how tightly they hold to what stands in front of them, and each kind of phrase ends at tokens below
a limit. By induction on its derivation, every phrase is read if such a token follows and the steps
are enough.
-/

namespace TemplateFill

open Grammar

namespace PathParser

variable {finish steps : Nat} {lexemes rest : List Lexeme}

/-! ### The end of a phrase -/

def tightness : Token → Nat
  | .dot | .dotDot | .leftBracket => 4
  | .equal | .notEqual | .less | .lessOrEqual | .greater | .greaterOrEqual => 3
  | .and => 2
  | .or => 1
  | _ => 0

/-- No lexeme behind a phrase holds to it at the limit or tighter. -/
def Stops (limit : Nat) : List Lexeme → Prop
  | [] => True
  | next :: _ => tightness next.token < limit

theorem Stops.mono {limit wider : Nat} (stops : Stops limit rest) (le : limit ≤ wider) :
    Stops wider rest := by
  cases rest with
  | nil => trivial
  | cons next rest => exact Nat.lt_of_lt_of_le stops le

theorem stops_cons {limit : Nat} {next : Lexeme} {token : Token} (same : next.token = token)
    (below : tightness token < limit) : Stops limit (next :: rest) := by
  subst same
  exact below

theorem stops_five (rest : List Lexeme) : Stops 5 rest := by
  cases rest with
  | nil => trivial
  | cons next rest =>
      show tightness next.token < 5
      unfold tightness
      split <;> decide

theorem comparison?_of_tightness {token : Token} (loose : tightness token < 3) :
    comparison? token = none := by
  cases token <;> first | rfl | exact absurd loose (by decide)

theorem tightness_of_operator {token : Token} {operator : Comparison}
    (between : IsOperator token operator) : tightness token < 4 := by
  cases between <;> decide

/-- Given enough steps, the tokens are read to the end of the phrase where the limit ends it. -/
def Accepts {α : Type} (limit slack : Nat)
    (read : Nat → List Lexeme → Except ParseError (α × List Lexeme)) (tokens : List Token)
    (result : α) : Prop :=
  ∀ {steps : Nat} {front rest : List Lexeme}, front.map Lexeme.token = tokens → Stops limit rest →
    8 * tokens.length + slack ≤ steps → read steps (front ++ rest) = .ok (result, rest)

/-- Behind the tokens the reading goes on with what they stand for as its left side, one step spent
on each of its parts. -/
def Continues (limit slack : Nat)
    (read : Nat → List Lexeme → Except ParseError (Filter × List Lexeme))
    (readMore : Nat → Filter → List Lexeme → Except ParseError (Filter × List Lexeme))
    (tokens : List Token) (left : Filter) : Prop :=
  ∀ (steps : Nat) (front rest : List Lexeme), front.map Lexeme.token = tokens → Stops limit rest →
    8 * tokens.length + slack ≤ steps →
      ∃ stepsLeft, steps ≤ stepsLeft + tokens.length + 1 ∧
        read steps (front ++ rest) = readMore stepsLeft left rest

/-- A phrase is accepted if it is from its first lexeme on, with one step less for the rest. -/
theorem Accepts.of_cons {α : Type} {limit slack : Nat}
    {read : Nat → List Lexeme → Except ParseError (α × List Lexeme)} {token : Token}
    {tokens : List Token} {result : α}
    (reads : ∀ {steps : Nat} {found : Lexeme} {front rest : List Lexeme}, found.token = token →
      front.map Lexeme.token = tokens → Stops limit rest →
      8 * tokens.length + slack + 7 ≤ steps →
        read (steps + 1) (found :: (front ++ rest)) = .ok (result, rest)) :
    Accepts limit slack read (token :: tokens) result := by
  intro steps front rest same stops enough
  obtain ⟨found, front, rfl, mark, behind⟩ := List.map_eq_cons_iff.mp same
  rw [List.length_cons] at enough
  obtain ⟨steps, rfl⟩ : ∃ before, steps = before + 1 := ⟨steps - 1, by omega⟩
  exact reads mark behind stops (by omega)

/-! #### Segments -/

theorem accepts_nil : Accepts 4 1 (segments finish) [] [] := by
  intro steps front rest same stops enough
  obtain ⟨steps, rfl⟩ : ∃ before, steps = before + 1 := ⟨steps - 1, by omega⟩
  rw [List.map_eq_nil_iff.mp same, List.nil_append]
  cases rest with
  | nil => rfl
  | cons next rest =>
      have loose : tightness next.token < 4 := stops
      rw [segments]
      split
      case h_4 => rfl
      all_goals
        rename_i mark
        rw [mark] at loose
        exact absurd loose (by decide)

section

variable {tokens later : List Token} {selector : Selector} {path : List Segment}

theorem accepts_child {token : Token} (written : IsDotted token selector)
    (more : Accepts 4 1 (segments finish) later path) :
    Accepts 4 1 (segments finish) (.dot :: token :: later) (.child selector :: path) := by
  apply Accepts.of_cons
  intro steps dot front rest mark same stops enough
  obtain ⟨found, front, rfl, rfl, behind⟩ := List.map_eq_cons_iff.mp same
  have one : dotted finish (found :: (front ++ rest)) = .ok (selector, front ++ rest) :=
    dotted_eq_ok_iff.mpr ⟨found, rfl, written⟩
  rw [List.length_cons] at enough
  simp only [List.cons_append, segments, mark, one, bind, Except.bind]
  rw [more behind stops (by omega)]
  rfl

theorem accepts_descendant (one : Accepts 5 1 (descended finish) tokens selector)
    (more : Accepts 4 1 (segments finish) later path) :
    Accepts 4 1 (segments finish) (.dotDot :: (tokens ++ later))
      (.descendant selector :: path) := by
  apply Accepts.of_cons
  intro steps dots front rest mark same stops enough
  obtain ⟨front, last, rfl, inside, behind⟩ := List.map_eq_append_iff.mp same
  rw [List.length_append] at enough
  simp only [List.append_assoc, segments, mark]
  rw [one inside (stops_five _) (by omega)]
  simp only [bind, Except.bind]
  rw [more behind stops (by omega)]
  rfl

theorem accepts_bracketChild (one : Accepts 5 1 (bracket finish) tokens selector)
    (more : Accepts 4 1 (segments finish) later path) :
    Accepts 4 1 (segments finish) (.leftBracket :: (tokens ++ later))
      (.child selector :: path) := by
  apply Accepts.of_cons
  intro steps opening front rest mark same stops enough
  obtain ⟨front, last, rfl, inside, behind⟩ := List.map_eq_append_iff.mp same
  rw [List.length_append] at enough
  simp only [List.append_assoc, segments, mark]
  rw [one inside (stops_five _) (by omega)]
  simp only [bind, Except.bind]
  rw [more behind stops (by omega)]
  rfl

theorem accepts_dotted {token : Token} (written : IsDotted token selector) :
    Accepts 5 1 (descended finish) [token] selector := by
  apply Accepts.of_cons
  intro steps found front rest mark same _ _
  have noBracket : found.token ≠ .leftBracket := by
    rw [mark]
    rintro rfl
    rcases written with _ | named
    cases named
  rw [List.map_eq_nil_iff.mp same, descended, if_neg noBracket]
  exact dotted_eq_ok_iff.mpr ⟨found, rfl, mark ▸ written⟩

theorem accepts_descended (one : Accepts 5 1 (bracket finish) tokens selector) :
    Accepts 5 1 (descended finish) (.leftBracket :: tokens) selector := by
  apply Accepts.of_cons
  intro steps found front rest mark same stops enough
  rw [descended, if_pos mark]
  exact one same stops (by omega)

theorem accepts_bracket (inside : Accepts 5 1 (content finish) tokens selector) :
    Accepts 5 1 (bracket finish) (tokens ++ [.rightBracket]) selector := by
  intro steps front rest same _ enough
  obtain ⟨front, last, rfl, written, closing⟩ := List.map_eq_append_iff.mp same
  obtain ⟨close, rfl, mark⟩ := List.map_eq_singleton_iff.mp closing
  rw [List.length_append, List.length_singleton] at enough
  obtain ⟨steps, rfl⟩ : ∃ before, steps = before + 1 := ⟨steps - 1, by omega⟩
  have closes : expect finish .rightBracket (close :: rest) = .ok rest :=
    expect_eq_ok_iff.mpr ⟨close, rfl, mark⟩
  rw [List.append_assoc, List.singleton_append, bracket, inside written (stops_five _) (by omega)]
  simp only [bind, Except.bind, closes]
  rfl

theorem accepts_content {token : Token}
    (reads : ∀ {steps : Nat} {found : Lexeme} {rest : List Lexeme}, found.token = token →
      content finish (steps + 1) (found :: rest) = .ok (selector, rest)) :
    Accepts 5 1 (content finish) [token] selector := by
  apply Accepts.of_cons
  intro steps found front rest mark same _ _
  rw [List.map_eq_nil_iff.mp same]
  exact reads mark

end

/-! #### Filters

A filter joined by marks is grouped to the left: the reading first goes on behind its left side, and
ends only where no further mark follows.
-/

section

variable {tokens first second : List Token} {condition left right : Filter}

section Joins

variable {mark : Token} {join : Filter → Filter → Filter}
  {side whole : Nat → List Lexeme → Except ParseError (Filter × List Lexeme)}
  {more : Nat → Filter → List Lexeme → Except ParseError (Filter × List Lexeme)}
  {slack : Nat}

theorem Joins.more_stops (joins : Joins mark join side whole more)
    (stops : Stops (tightness mark) rest) (some : 0 < steps) :
    more steps left rest = .ok (left, rest) := by
  obtain ⟨steps, rfl⟩ : ∃ before, steps = before + 1 := ⟨steps - 1, by omega⟩
  cases rest with
  | nil => exact joins.more_nil steps left
  | cons next rest =>
      have noMark : next.token ≠ mark := fun same => Nat.lt_irrefl _ (same ▸ stops)
      rw [joins.more_cons, if_neg noMark]

theorem Joins.accepts (joins : Joins mark join side whole more) (some : 1 < slack)
    (continues : Continues (tightness mark + 1) slack whole more tokens condition) :
    Accepts (tightness mark) slack whole tokens condition := by
  intro steps front rest same stops enough
  obtain ⟨stepsLeft, few, goesOn⟩ :=
    continues steps front rest same (stops.mono (Nat.le_succ _)) enough
  rw [goesOn]
  exact joins.more_stops stops (by omega)

theorem Joins.continues_single (joins : Joins mark join side whole more)
    (one : Accepts (tightness mark + 1) slack side tokens condition) :
    Continues (tightness mark + 1) (slack + 1) whole more tokens condition := by
  intro steps front rest same stops enough
  obtain ⟨steps, rfl⟩ : ∃ before, steps = before + 1 := ⟨steps - 1, by omega⟩
  refine ⟨steps, by omega, ?_⟩
  rw [joins.whole_succ, one same stops (by omega)]
  rfl

theorem Joins.continues_append (joins : Joins mark join side whole more) (few : slack ≤ 5)
    (before : Continues (tightness mark + 1) (slack + 1) whole more first left)
    (last : Accepts (tightness mark + 1) slack side second right) :
    Continues (tightness mark + 1) (slack + 1) whole more (first ++ mark :: second)
      (join left right) := by
  intro steps front rest same stops enough
  obtain ⟨front, behind, rfl, written, same⟩ := List.map_eq_append_iff.mp same
  obtain ⟨found, behind, rfl, isMark, same⟩ := List.map_eq_cons_iff.mp same
  rw [List.length_append, List.length_cons] at enough
  obtain ⟨stepsLeft, taken, goesOn⟩ := before steps front (found :: (behind ++ rest)) written
    (stops_cons isMark (Nat.lt_succ_self _)) (by omega)
  obtain ⟨stepsLeft, rfl⟩ : ∃ fewer, stepsLeft = fewer + 1 := ⟨stepsLeft - 1, by omega⟩
  refine ⟨stepsLeft, by rw [List.length_append, List.length_cons]; omega, ?_⟩
  rw [List.append_assoc, List.cons_append, goesOn, joins.more_cons, if_pos isMark,
    last same stops (by omega)]
  rfl

theorem accepts_disjunction
    (continues : Continues 2 5 (disjunction finish) (moreDisjuncts finish) tokens condition) :
    Accepts 1 5 (disjunction finish) tokens condition :=
  (joins_or finish).accepts (by decide) continues

theorem accepts_conjunction
    (continues : Continues 3 4 (conjunction finish) (moreConjuncts finish) tokens condition) :
    Accepts 2 4 (conjunction finish) tokens condition :=
  (joins_and finish).accepts (by decide) continues

end Joins

theorem accepts_filter (inner : Accepts 1 5 (disjunction finish) tokens condition) :
    Accepts 5 1 (bracket finish) (.question :: (tokens ++ [.rightBracket]))
      (.filter condition) := by
  apply Accepts.of_cons
  intro steps found front rest mark same _ enough
  obtain ⟨front, last, rfl, written, closing⟩ := List.map_eq_append_iff.mp same
  obtain ⟨close, rfl, closes⟩ := List.map_eq_singleton_iff.mp closing
  rw [List.length_append, List.length_singleton] at enough
  obtain ⟨steps, rfl⟩ : ∃ before, steps = before + 1 := ⟨steps - 1, by omega⟩
  have stops : Stops 1 (close :: rest) := stops_cons closes (by decide)
  have ends : expect finish .rightBracket (close :: rest) = .ok rest :=
    expect_eq_ok_iff.mpr ⟨close, rfl, closes⟩
  simp only [List.append_assoc, List.singleton_append, bracket, content, mark]
  rw [inner written stops (by omega)]
  simp only [bind, Except.bind, pure, Except.pure, ends]

theorem accepts_not (inner : Accepts 3 3 (unary finish) tokens condition) :
    Accepts 3 3 (unary finish) (.not :: tokens) (.not condition) := by
  apply Accepts.of_cons
  intro steps found front rest mark same stops enough
  simp only [unary, mark]
  rw [inner same stops (by omega)]
  rfl

theorem accepts_grouped (inner : Accepts 1 5 (disjunction finish) tokens condition) :
    Accepts 3 3 (unary finish) (.leftParen :: (tokens ++ [.rightParen])) condition := by
  apply Accepts.of_cons
  intro steps found front rest mark same _ enough
  obtain ⟨front, last, rfl, written, closing⟩ := List.map_eq_append_iff.mp same
  obtain ⟨close, rfl, closes⟩ := List.map_eq_singleton_iff.mp closing
  rw [List.length_append, List.length_singleton] at enough
  have stops : Stops 1 (close :: rest) := stops_cons closes (by decide)
  have ends : expect finish .rightParen (close :: rest) = .ok rest :=
    expect_eq_ok_iff.mpr ⟨close, rfl, closes⟩
  simp only [List.append_assoc, List.singleton_append, unary, mark]
  rw [inner written stops (by omega)]
  simp only [bind, Except.bind, pure, Except.pure, ends]

theorem head_of_operand {operand : Operand} (written : IsOperand tokens operand) :
    ∃ token later, tokens = token :: later ∧ token ≠ .not ∧ token ≠ .leftParen := by
  rcases written with ⟨_⟩ | ⟨_⟩ | literal
  · exact ⟨_, _, rfl, by decide, by decide⟩
  · exact ⟨_, _, rfl, by decide, by decide⟩
  · refine ⟨_, _, rfl, ?_, ?_⟩ <;> rintro rfl <;> cases literal

theorem head_of_comparison (written : IsComparison tokens condition) :
    ∃ token later, tokens = token :: later ∧ token ≠ .not ∧ token ≠ .leftParen := by
  rcases written with alone | ⟨before, _, _⟩
  · exact head_of_operand alone
  · obtain ⟨token, later, rfl, noNot, noParen⟩ := head_of_operand before
    exact ⟨token, _, rfl, noNot, noParen⟩

theorem accepts_unary (written : IsComparison tokens condition)
    (inner : Accepts 3 2 (comparison finish) tokens condition) :
    Accepts 3 3 (unary finish) tokens condition := by
  obtain ⟨token, later, rfl, noNot, noParen⟩ := head_of_comparison written
  intro steps front rest same stops enough
  obtain ⟨steps, rfl⟩ : ∃ before, steps = before + 1 := ⟨steps - 1, by omega⟩
  have goesOn :
      unary finish (steps + 1) (front ++ rest) = comparison finish steps (front ++ rest) := by
    obtain ⟨found, front, rfl, rfl, _⟩ := List.map_eq_cons_iff.mp same
    rw [List.cons_append, unary]
    split
    · exact absurd ‹_› noNot
    · exact absurd ‹_› noParen
    · rfl
  rw [goesOn]
  exact inner same stops (by omega)

/-! #### Operands -/

theorem accepts_holds {alone : Operand} (one : Accepts 4 1 (operand finish) tokens alone) :
    Accepts 3 2 (comparison finish) tokens (.holds alone) := by
  intro steps front rest same stops enough
  obtain ⟨steps, rfl⟩ : ∃ before, steps = before + 1 := ⟨steps - 1, by omega⟩
  rw [comparison, one same (stops.mono (by decide)) (by omega)]
  cases rest with
  | nil => rfl
  | cons next rest =>
      simp only [bind, Except.bind, comparison?_of_tightness stops]
      rfl

theorem accepts_compare {before after : Operand} {token : Token} {operator : Comparison}
    (one : Accepts 4 1 (operand finish) first before) (between : IsOperator token operator)
    (two : Accepts 4 1 (operand finish) second after) :
    Accepts 3 2 (comparison finish) (first ++ token :: second)
      (.compare before operator after) := by
  intro steps front rest same stops enough
  obtain ⟨front, behind, rfl, written, same⟩ := List.map_eq_append_iff.mp same
  obtain ⟨sign, behind, rfl, rfl, follows⟩ := List.map_eq_cons_iff.mp same
  rw [List.length_append, List.length_cons] at enough
  obtain ⟨steps, rfl⟩ : ∃ before, steps = before + 1 := ⟨steps - 1, by omega⟩
  have next : Stops 4 (sign :: (behind ++ rest)) := tightness_of_operator between
  rw [List.append_assoc, List.cons_append, comparison, one written next (by omega)]
  simp only [bind, Except.bind, comparison?_eq_some_iff.mpr between]
  rw [two follows (stops.mono (by decide)) (by omega)]
  rfl

theorem accepts_candidate {path : List Segment}
    (read : Accepts 4 1 (segments finish) tokens path) :
    Accepts 4 1 (operand finish) (.at :: tokens) (.candidate path) := by
  apply Accepts.of_cons
  intro steps found front rest mark same stops enough
  simp only [operand, mark]
  rw [read same stops (by omega)]
  rfl

theorem accepts_root {path : List Segment} (read : Accepts 4 1 (segments finish) tokens path) :
    Accepts 4 1 (operand finish) (.dollar :: tokens) (.root path) := by
  apply Accepts.of_cons
  intro steps found front rest mark same stops enough
  simp only [operand, mark]
  rw [read same stops (by omega)]
  rfl

theorem accepts_literal {token : Token} {value : Scalar} (written : IsLiteral token value) :
    Accepts 4 1 (operand finish) [token] (.literal value) := by
  apply Accepts.of_cons
  intro steps found front rest mark same _ _
  subst mark
  rw [List.map_eq_nil_iff.mp same, operand]
  split
  · rename_i mark
    rw [mark] at written
    cases written
  · rename_i mark
    rw [mark] at written
    cases written
  · exact literal_eq_ok_iff.mpr ⟨found, value, rfl, written, rfl⟩

end

/-! #### The phrases of each rule -/

mutual

theorem accepts_of_areSegments {tokens : List Token} {path : List Segment} :
    AreSegments tokens path → Accepts 4 1 (segments finish) tokens path
  | .nil => accepts_nil
  | .cons head tail => accepts_of_isSegment head (accepts_of_areSegments tail)

theorem accepts_of_isSegment {tokens later : List Token} {segment : Segment}
    {path : List Segment} :
    IsSegment tokens segment → Accepts 4 1 (segments finish) later path →
      Accepts 4 1 (segments finish) (tokens ++ later) (segment :: path)
  | .child written, more => accepts_child written more
  | .descendant written, more => accepts_descendant (accepts_dotted written) more
  | .bracketChild written, more => by
      obtain ⟨inner, rfl, one⟩ := accepts_of_isBracket written
      exact accepts_bracketChild one more
  | .bracketDescendant written, more => by
      obtain ⟨inner, rfl, one⟩ := accepts_of_isBracket written
      exact accepts_descendant (accepts_descended one) more

theorem accepts_of_isBracket {tokens : List Token} {selector : Selector} :
    IsBracket tokens selector →
      ∃ inner, tokens = .leftBracket :: inner ∧ Accepts 5 1 (bracket finish) inner selector
  | .wildcard => ⟨_, rfl, accepts_bracket (accepts_content fun mark => by rw [content, mark])⟩
  | .index _ => ⟨_, rfl, accepts_bracket (accepts_content fun mark => by simp [content, mark])⟩
  | .name _ => ⟨_, rfl, accepts_bracket (accepts_content fun mark => by rw [content, mark])⟩
  | .filter inner => ⟨_, rfl, accepts_filter (accepts_disjunction (continues_of_isOr inner))⟩

theorem continues_of_isOr {tokens : List Token} {condition : Filter} :
    IsOr tokens condition →
      Continues 2 5 (disjunction finish) (moreDisjuncts finish) tokens condition
  | .single one =>
      (joins_or finish).continues_single (accepts_conjunction (continues_of_isAnd one))
  | .or before last =>
      (joins_or finish).continues_append (by decide) (continues_of_isOr before)
        (accepts_conjunction (continues_of_isAnd last))

theorem continues_of_isAnd {tokens : List Token} {condition : Filter} :
    IsAnd tokens condition →
      Continues 3 4 (conjunction finish) (moreConjuncts finish) tokens condition
  | .single one => (joins_and finish).continues_single (accepts_of_isUnary one)
  | .and before last =>
      (joins_and finish).continues_append (by decide) (continues_of_isAnd before)
        (accepts_of_isUnary last)

theorem accepts_of_isUnary {tokens : List Token} {condition : Filter} :
    IsUnary tokens condition → Accepts 3 3 (unary finish) tokens condition
  | .not inner => accepts_not (accepts_of_isUnary inner)
  | .grouped inner => accepts_grouped (accepts_disjunction (continues_of_isOr inner))
  | .comparison inner => accepts_unary inner (accepts_of_isComparison inner)

theorem accepts_of_isComparison {tokens : List Token} {condition : Filter} :
    IsComparison tokens condition → Accepts 3 2 (comparison finish) tokens condition
  | .holds alone => accepts_holds (accepts_of_isOperand alone)
  | .compare before between behind =>
      accepts_compare (accepts_of_isOperand before) between (accepts_of_isOperand behind)

theorem accepts_of_isOperand {tokens : List Token} {read : Operand} :
    IsOperand tokens read → Accepts 4 1 (operand finish) tokens read
  | .candidate path => accepts_candidate (accepts_of_areSegments path)
  | .root path => accepts_root (accepts_of_areSegments path)
  | .literal literal => accepts_literal literal

end

/-! ### Whole paths -/

inductive Opens : List Lexeme → List Segment → List Lexeme → Prop
  | root {found : Lexeme} {behind : List Lexeme} (mark : found.token = .dollar) :
      Opens (found :: behind) [] behind
  | name {found : Lexeme} {behind : List Lexeme} {name : String}
      (named : IsName found.token name) : Opens (found :: behind) [.child (.name name)] behind
  | bracket {found : Lexeme} {behind : List Lexeme} (mark : found.token = .leftBracket) :
      Opens (found :: behind) [] (found :: behind)

theorem opening_eq_ok_iff {first : List Segment} :
    opening lexemes = .ok (first, rest) ↔ Opens lexemes first rest := by
  constructor
  · intro opened
    cases lexemes with
    | nil => cases opened
    | cons found lexemes =>
        rw [opening] at opened
        split at opened
        · cases opened
          exact .root ‹_›
        · split at opened
          · rename_i named
            cases opened
            exact .name (name?_eq_some_iff.mp named)
          · split at opened
            · cases opened
              exact .bracket ‹_›
            · cases opened
  · intro opens
    cases opens with
    | root mark => rw [opening, if_pos mark]
    | @name found _ _ named =>
        have noRoot : found.token ≠ .dollar := by
          intro mark
          rw [mark] at named
          cases named
        rw [opening, if_neg noRoot, name?_eq_some_iff.mpr named]
    | bracket mark => simp [opening, mark, Token.name?]

theorem isPath_of_ofLexemes {path : List Segment} (done : ofLexemes finish lexemes = .ok path) :
    IsPath (lexemes.map Lexeme.token) path := by
  rw [ofLexemes] at done
  obtain ⟨⟨first, behind⟩, opened, more⟩ := bind_eq_ok.mp done
  obtain ⟨⟨later, last⟩, read, ended⟩ := bind_eq_ok.mp more
  cases last with
  | cons next last => cases ended
  | nil =>
      cases ended
      obtain ⟨front, rfl, written⟩ := (sound ..).ofSegments read
      rw [List.append_nil] at opened
      cases opening_eq_ok_iff.mp opened with
      | root mark =>
          rw [List.map_cons, mark]
          exact .root written
      | name named => exact .name named written
      | bracket mark =>
          rw [List.map_cons, mark] at written ⊢
          exact .bracket written

theorem ofLexemes_of_opens {first later : List Segment} (opens : Opens lexemes first rest)
    (written : AreSegments (rest.map Lexeme.token) later) :
    ofLexemes finish lexemes = .ok (first ++ later) := by
  have shorter : rest.length ≤ lexemes.length := by
    cases opens <;> simp
  have nothing : Stops 4 [] := trivial
  have read : segments finish (enoughSteps lexemes) (rest ++ []) = .ok (later, []) := by
    apply accepts_of_areSegments written rfl nothing
    rw [List.length_map, enoughSteps]
    omega
  rw [List.append_nil] at read
  simp only [ofLexemes, opening_eq_ok_iff.mpr opens, read, bind, Except.bind]
  rfl

theorem ofLexemes_of_isPath {path : List Segment}
    (written : IsPath (lexemes.map Lexeme.token) path) : ofLexemes finish lexemes = .ok path := by
  cases lexemes with
  | nil => cases written
  | cons found lexemes =>
      rw [List.map_cons] at written
      generalize same : found.token = token at written
      cases written with
      | root written => exact ofLexemes_of_opens (.root same) written
      | name named written =>
          subst same
          exact ofLexemes_of_opens (.name named) written
      | bracket written =>
          rw [← same] at written
          exact ofLexemes_of_opens (.bracket same) written

/-- The parser accepts the token lists that the grammar derives, and answers with what they stand
for. No token list stands for two paths. -/
theorem ofLexemes_eq_ok_iff (finish : Nat) (lexemes : List Lexeme) :
    (∀ path, ofLexemes finish lexemes = .ok path ↔ IsPath (lexemes.map Lexeme.token) path) ∧
      ∀ path other, IsPath (lexemes.map Lexeme.token) path →
        IsPath (lexemes.map Lexeme.token) other → path = other := by
  have reads (path : List Segment) :
      ofLexemes finish lexemes = .ok path ↔ IsPath (lexemes.map Lexeme.token) path :=
    ⟨isPath_of_ofLexemes, ofLexemes_of_isPath⟩
  refine ⟨reads, fun path other one two => ?_⟩
  have same : Except.ok path = Except.ok other :=
    ((reads path).mpr one).symm.trans ((reads other).mpr two)
  exact Except.ok.inj same

end PathParser

end TemplateFill
