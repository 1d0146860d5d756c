import TemplateFill.Proofs.Path.Acceptance

/-!
Parsing with one token at a time.

In front of each token a reading wants a list of things in order, some of which may be missing, and
the token alone tells what is wanted behind it or why it is refused. The parser refuses lexemes
exactly where this does, and for the same reason.
-/

namespace TemplateFill

open Grammar

namespace PathParser

/-- What a reading wants: a whole path, what stands behind dots, inside of brackets or on a side of
a comparison, a closing mark, a unary filter. Further segments, the rest of a comparison, and
further conjuncts and disjuncts may be missing. -/
inductive Want where
  | path
  | dotted
  | descended
  | content
  | rightBracket
  | rightParen
  | unary
  | operand
  | segments
  | operator
  | conjuncts
  | disjuncts
deriving DecidableEq

namespace Want

def optional : Want → Bool
  | segments | operator | conjuncts | disjuncts => true
  | _ => false

def filter : List Want := [unary, conjuncts, disjuncts]

end Want

/-! ### One token -/

def feedOperand (found : Lexeme) (wants : List Want) : Except ParseError (List Want) :=
  match found.token with
  | .at | .dollar => .ok (.segments :: wants)
  | _ => (literal 0 [found]).map fun _ => wants

/-- What is wanted behind a token, or why the token is refused. -/
def feed (found : Lexeme) : List Want → Except ParseError (List Want)
  | [] => .error (.unexpectedToken found.token found.start)
  | .path :: wants =>
      if found.token = .dollar ∨ found.token.name?.isSome = true then .ok (.segments :: wants)
      else if found.token = .leftBracket then
        .ok (.content :: .rightBracket :: .segments :: wants)
      else .error (.unexpectedToken found.token found.start)
  | .dotted :: wants => (dotted 0 [found]).map fun _ => wants
  | .descended :: wants =>
      if found.token = .leftBracket then .ok (.content :: .rightBracket :: wants)
      else (dotted 0 [found]).map fun _ => wants
  | .content :: wants =>
      match found.token with
      | .star => .ok wants
      | .string _ => .ok wants
      | .integer value =>
          if value < 0 then
            .error (.invalidLiteral .index (Token.integer value).text found.start)
          else .ok wants
      | .question => .ok (Want.filter ++ wants)
      | _ => expected 0 .bracketContent [found]
  | .rightBracket :: wants => (expect 0 .rightBracket [found]).map fun _ => wants
  | .rightParen :: wants => (expect 0 .rightParen [found]).map fun _ => wants
  | .unary :: wants =>
      match found.token with
      | .not => .ok (.unary :: wants)
      | .leftParen => .ok (Want.filter ++ .rightParen :: wants)
      | _ => feedOperand found (.operator :: wants)
  | .operand :: wants => feedOperand found wants
  | .segments :: wants =>
      match found.token with
      | .dot => .ok (.dotted :: .segments :: wants)
      | .dotDot => .ok (.descended :: .segments :: wants)
      | .leftBracket => .ok (.content :: .rightBracket :: .segments :: wants)
      | _ => feed found wants
  | .operator :: wants =>
      match comparison? found.token with
      | some _ => .ok (.operand :: wants)
      | none => feed found wants
  | .conjuncts :: wants =>
      if found.token = .and then .ok (.unary :: .conjuncts :: wants) else feed found wants
  | .disjuncts :: wants =>
      if found.token = .or then .ok (Want.filter ++ wants) else feed found wants

/-- The fault of lexemes that should be what is wanted, if any: that of the first refused token, or
the end where something is still wanted. -/
def fault? (finish : Nat) : List Want → List Lexeme → Option ParseError
  | wants, [] => if wants.all Want.optional then none else some (.unexpectedEnd finish)
  | wants, found :: rest =>
      match feed found wants with
      | .error error => some error
      | .ok wants => fault? finish wants rest

variable {finish steps : Nat} {found : Lexeme} {lexemes rest : List Lexeme}
  {wants others later : List Want}

theorem fault?_of_feed (fed : feed found wants = .ok others) :
    fault? finish wants (found :: rest) = fault? finish others rest := by
  rw [fault?, fed]

theorem fault?_of_refused {error : ParseError} (refused : feed found wants = .error error) :
    fault? finish wants (found :: rest) = some error := by
  rw [fault?, refused]

theorem fault?_congr (same : feed found wants = feed found others) :
    fault? finish wants (found :: rest) = fault? finish others (found :: rest) := by
  rw [fault?, fault?, same]

theorem fault?_nil_cons {want : Want} (optional : want.optional = true) :
    fault? finish (want :: others) [] = fault? finish others [] := by
  simp [fault?, optional]

/-! ### The parser follows -/

/-- Lexemes have the fault that a reading of what is wanted first has, or the fault that the rest
has behind that reading. -/
def Tracks {α : Type} (finish : Nat) (reading : Except ParseError (α × List Lexeme))
    (wants : List Want) (lexemes : List Lexeme) : Prop :=
  ∀ others, fault? finish (wants ++ others) lexemes =
    match reading with
    | .ok (_, rest) => fault? finish others rest
    | .error error => some error

section

variable {α β : Type} {reading : Except ParseError (α × List Lexeme)}

theorem tracks_ok (value : α) : Tracks finish (.ok (value, rest)) [] rest :=
  fun _ => rfl

theorem Tracks.bind {next : α × List Lexeme → Except ParseError (β × List Lexeme)}
    (first : Tracks finish reading wants lexemes)
    (behind : ∀ value rest, reading = .ok (value, rest) →
      Tracks finish (next (value, rest)) later rest) :
    Tracks finish (reading >>= next) (wants ++ later) lexemes := by
  intro others
  rw [List.append_assoc, first]
  cases reading with
  | error error => rfl
  | ok read => exact behind read.1 read.2 rfl others

/-- A reading behind one token is a reading from the token on, if the token asks for it. -/
theorem Tracks.cons (later : List Want)
    (fed : ∀ others, feed found (wants ++ others) = .ok (later ++ others))
    (behind : Tracks finish reading later rest) : Tracks finish reading wants (found :: rest) := by
  intro others
  rw [fault?_of_feed (fed others)]
  exact behind others

theorem tracks_take (value : α) (fed : ∀ others, feed found (wants ++ others) = .ok others) :
    Tracks finish (.ok (value, rest)) wants (found :: rest) :=
  .cons [] fed (tracks_ok value)

theorem tracks_refuse {error : ParseError}
    (refused : ∀ others, feed found (wants ++ others) = .error error) :
    Tracks finish (.error error : Except ParseError (α × List Lexeme)) wants (found :: rest) :=
  fun others => fault?_of_refused (refused others)

theorem tracks_end (some : ∃ want ∈ wants, want.optional = false) :
    Tracks finish (.error (.unexpectedEnd finish) : Except ParseError (α × List Lexeme)) wants
      [] := by
  intro others
  rcases some with ⟨want, inside, filled⟩
  have missing : (wants ++ others).all Want.optional = false := by
    rw [List.all_eq_false]
    exact ⟨want, List.mem_append_left _ inside, by simp [filled]⟩
  rw [fault?, missing]
  rfl

theorem tracks_missing {want : Want} (value : α) (optional : want.optional = true) :
    Tracks finish (.ok (value, [])) [want] [] :=
  fun _ => fault?_nil_cons optional

theorem tracks_skip {want : Want} (value : α)
    (skips : ∀ others, feed found (want :: others) = feed found others) :
    Tracks finish (.ok (value, found :: rest)) [want] (found :: rest) :=
  fun others => fault?_congr (skips others)

end

theorem tracks_dotted (lexemes : List Lexeme) :
    Tracks finish (dotted finish lexemes) [.dotted] lexemes := by
  cases lexemes with
  | nil => exact tracks_end ⟨_, List.mem_singleton_self _, rfl⟩
  | cons found rest =>
      rw [dotted]
      split
      · rename_i star
        exact tracks_take _ fun others => by simp [feed, dotted, star, Except.map]
      · rename_i noStar
        split
        · rename_i named
          exact tracks_take _ fun others => by simp [feed, dotted, noStar, named, Except.map]
        · rename_i unnamed
          exact tracks_refuse fun others => by
            simp [feed, dotted, noStar, unnamed, Except.map, expected]

theorem literal_cons (finish : Nat) (found : Lexeme) (rest : List Lexeme) :
    literal finish (found :: rest) = (literal 0 [found]).map fun read => (read.1, rest) := by
  unfold literal
  dsimp only
  split
  · rfl
  · rfl
  · rename_i digits _
    cases decimalValue? digits <;> rfl
  · rfl
  · rfl
  · rfl
  · rfl

theorem tracks_literal (fed : ∀ others, feed found (.operand :: others) =
      (literal 0 [found]).map fun _ => others) :
    Tracks finish (literal finish (found :: rest)) [.operand] (found :: rest) := by
  rw [literal_cons]
  cases read : literal 0 [found] with
  | error error => exact tracks_refuse fun others => by rw [List.singleton_append, fed, read]; rfl
  | ok value => exact tracks_take _ fun others => by rw [List.singleton_append, fed, read]; rfl

theorem tracks_expect {α : Type} {want : Want} {mark : Token} (value : α) (lexemes : List Lexeme)
    (filled : want.optional = false) (fed : ∀ found others,
      feed found (want :: others) = (expect 0 mark [found]).map fun _ => others) :
    Tracks finish (do let rest ← expect finish mark lexemes; return (value, rest))
      [want] lexemes := by
  cases lexemes with
  | nil => exact tracks_end ⟨want, List.mem_singleton_self _, filled⟩
  | cons found rest =>
      rw [expect]
      split
      · rename_i same
        exact tracks_take _ fun others => by
          rw [List.singleton_append, fed, expect, if_pos same]
          rfl
      · rename_i different
        exact tracks_refuse fun others => by
          rw [List.singleton_append, fed, expect, if_neg different]
          rfl

/-- With these steps, each reading tracks what it reads. From one token to the next it passes
through at most eight rules, which is where the steps go. -/
structure Tracked (finish steps : Nat) : Prop where
  ofSegments : ∀ lexemes, 8 * lexemes.length + 1 ≤ steps →
    Tracks finish (segments finish steps lexemes) [.segments] lexemes
  ofDescended : ∀ lexemes, 8 * lexemes.length + 1 ≤ steps →
    Tracks finish (descended finish steps lexemes) [.descended] lexemes
  ofBracket : ∀ lexemes, 8 * lexemes.length + 2 ≤ steps →
    Tracks finish (bracket finish steps lexemes) [.content, .rightBracket] lexemes
  ofContent : ∀ lexemes, 8 * lexemes.length + 1 ≤ steps →
    Tracks finish (content finish steps lexemes) [.content] lexemes
  ofDisjunction : ∀ lexemes, 8 * lexemes.length + 5 ≤ steps →
    Tracks finish (disjunction finish steps lexemes) Want.filter lexemes
  ofMoreDisjuncts : ∀ left lexemes, 8 * lexemes.length + 1 ≤ steps →
    Tracks finish (moreDisjuncts finish steps left lexemes) [.disjuncts] lexemes
  ofConjunction : ∀ lexemes, 8 * lexemes.length + 4 ≤ steps →
    Tracks finish (conjunction finish steps lexemes) [.unary, .conjuncts] lexemes
  ofMoreConjuncts : ∀ left lexemes, 8 * lexemes.length + 1 ≤ steps →
    Tracks finish (moreConjuncts finish steps left lexemes) [.conjuncts] lexemes
  ofUnary : ∀ lexemes, 8 * lexemes.length + 3 ≤ steps →
    Tracks finish (unary finish steps lexemes) [.unary] lexemes
  ofComparison : ∀ lexemes, 8 * lexemes.length + 2 ≤ steps →
    Tracks finish (comparison finish steps lexemes) [.operand, .operator] lexemes
  ofOperand : ∀ lexemes, 8 * lexemes.length + 1 ≤ steps →
    Tracks finish (operand finish steps lexemes) [.operand] lexemes

theorem Spells.length_le {α : Type} {phrase : List Token → α → Prop} {result : α}
    (spells : Spells phrase lexemes result rest) : rest.length ≤ lexemes.length := by
  rcases spells with ⟨front, rfl, -⟩
  simp

theorem tracks_segments (earlier : Tracked finish steps) (lexemes : List Lexeme)
    (enough : 8 * lexemes.length + 1 ≤ steps + 1) :
    Tracks finish (segments finish (steps + 1) lexemes) [.segments] lexemes := by
  cases lexemes with
  | nil => exact tracks_missing _ rfl
  | cons found rest =>
      rw [List.length_cons] at enough
      rw [segments]
      split
      all_goals rename_i mark
      · refine .cons [.dotted, .segments] (fun others => by simp [feed, mark]) ?_
        refine Tracks.bind (tracks_dotted rest) fun selector behind read => ?_
        rcases dotted_eq_ok_iff.mp read with ⟨next, rfl, -⟩
        rw [List.length_cons] at enough
        exact (earlier.ofSegments behind (by omega)).bind fun path last _ => tracks_ok _
      · refine .cons [.descended, .segments] (fun others => by simp [feed, mark]) ?_
        refine Tracks.bind (earlier.ofDescended rest (by omega)) fun selector behind read => ?_
        have shorter := (sound ..).ofDescended read |>.length_le
        exact (earlier.ofSegments behind (by omega)).bind fun path last _ => tracks_ok _
      · refine .cons [.content, .rightBracket, .segments] (fun others => by simp [feed, mark]) ?_
        refine Tracks.bind (earlier.ofBracket rest (by omega)) fun selector behind read => ?_
        have shorter := (sound ..).ofBracket read |>.length_le
        exact (earlier.ofSegments behind (by omega)).bind fun path last _ => tracks_ok _
      · exact tracks_skip _ fun others => by simp [feed]

theorem tracks_descended (earlier : Tracked finish steps) (lexemes : List Lexeme)
    (enough : 8 * lexemes.length + 1 ≤ steps + 1) :
    Tracks finish (descended finish (steps + 1) lexemes) [.descended] lexemes := by
  cases lexemes with
  | nil => exact tracks_end ⟨_, List.mem_singleton_self _, rfl⟩
  | cons found rest =>
      rw [List.length_cons] at enough
      rw [descended]
      split
      · rename_i mark
        exact .cons [.content, .rightBracket] (fun others => by simp [feed, mark])
          (earlier.ofBracket rest (by omega))
      · rename_i noBracket
        intro others
        have same : feed found ([.descended] ++ others) = feed found ([.dotted] ++ others) := by
          simp [feed, noBracket]
        rw [fault?_congr same]
        exact tracks_dotted (found :: rest) others

theorem tracks_bracket (earlier : Tracked finish steps) (lexemes : List Lexeme)
    (enough : 8 * lexemes.length + 2 ≤ steps + 1) :
    Tracks finish (bracket finish (steps + 1) lexemes) [.content, .rightBracket] lexemes := by
  rw [bracket]
  refine Tracks.bind (earlier.ofContent lexemes (by omega)) fun selector behind _ => ?_
  exact tracks_expect selector behind rfl fun _ _ => rfl

theorem tracks_content (earlier : Tracked finish steps) (lexemes : List Lexeme)
    (enough : 8 * lexemes.length + 1 ≤ steps + 1) :
    Tracks finish (content finish (steps + 1) lexemes) [.content] lexemes := by
  cases lexemes with
  | nil => exact tracks_end ⟨_, List.mem_singleton_self _, rfl⟩
  | cons found rest =>
      rw [List.length_cons] at enough
      rw [content]
      split
      all_goals rename_i mark
      · exact tracks_take _ fun others => by simp [feed, mark]
      · split
        · rename_i negative
          exact tracks_refuse fun others => by simp [feed, mark, negative]
        · rename_i natural
          exact tracks_take _ fun others => by simp [feed, mark, natural]
      · exact tracks_take _ fun others => by simp [feed, mark]
      · refine .cons Want.filter (fun others => by simp [feed, mark]) ?_
        exact Tracks.bind (earlier.ofDisjunction rest (by omega)) fun condition behind _ =>
          tracks_ok _
      · exact tracks_refuse fun others => by simp [feed, expected]

section Joins

variable {mark : Token} {join : Filter → Filter → Filter}
  {side whole : Nat → List Lexeme → Except ParseError (Filter × List Lexeme)}
  {more : Nat → Filter → List Lexeme → Except ParseError (Filter × List Lexeme)}
  {want : Want}

/-- Sides shorten what is left to read, and so each of them is tracked with fewer steps. -/
theorem Joins.tracks_whole (joins : Joins mark join side whole more)
    (ofSide : Tracks finish (side steps lexemes) wants lexemes)
    (shortens : ∀ {condition : Filter} {rest : List Lexeme},
      side steps lexemes = .ok (condition, rest) → rest.length ≤ lexemes.length)
    (ofMore : ∀ left rest, rest.length ≤ lexemes.length →
      Tracks finish (more steps left rest) [want] rest) :
    Tracks finish (whole (steps + 1) lexemes) (wants ++ [want]) lexemes := by
  rw [joins.whole_succ]
  exact Tracks.bind ofSide fun left behind read => ofMore left behind (shortens read)

theorem Joins.tracks_more (joins : Joins mark join side whole more) (optional : want.optional = true)
    (fed : ∀ found others, found.token = mark →
      feed found (want :: others) = .ok (wants ++ want :: others))
    (skips : ∀ found others, found.token ≠ mark → feed found (want :: others) = feed found others)
    (left : Filter) (lexemes : List Lexeme)
    (ofSide : ∀ rest, rest.length < lexemes.length → Tracks finish (side steps rest) wants rest)
    (shortens : ∀ {condition : Filter} {lexemes rest : List Lexeme},
      side steps lexemes = .ok (condition, rest) → rest.length ≤ lexemes.length)
    (ofMore : ∀ left rest, rest.length < lexemes.length →
      Tracks finish (more steps left rest) [want] rest) :
    Tracks finish (more (steps + 1) left lexemes) [want] lexemes := by
  cases lexemes with
  | nil =>
      rw [joins.more_nil]
      exact tracks_missing _ optional
  | cons found rest =>
      rw [joins.more_cons]
      split
      · rename_i same
        refine .cons (wants ++ [want]) (fun others => ?_) ?_
        · rw [List.append_assoc]
          exact fed found others same
        · refine Tracks.bind (ofSide rest (Nat.lt_succ_self _)) fun right behind read => ?_
          exact ofMore _ behind (Nat.lt_succ_of_le (shortens read))
      · rename_i different
        exact tracks_skip _ fun others => skips found others different

end Joins

theorem tracks_disjunction (earlier : Tracked finish steps) (lexemes : List Lexeme)
    (enough : 8 * lexemes.length + 5 ≤ steps + 1) :
    Tracks finish (disjunction finish (steps + 1) lexemes) Want.filter lexemes :=
  (joins_or finish).tracks_whole (earlier.ofConjunction lexemes (by omega))
    (fun read => (sound ..).ofConjunction read |>.length_le)
    fun left rest shorter => earlier.ofMoreDisjuncts left rest (by omega)

theorem tracks_moreDisjuncts (earlier : Tracked finish steps) (left : Filter)
    (lexemes : List Lexeme) (enough : 8 * lexemes.length + 1 ≤ steps + 1) :
    Tracks finish (moreDisjuncts finish (steps + 1) left lexemes) [.disjuncts] lexemes :=
  (joins_or finish).tracks_more rfl (fun found others same => by simp [feed, same, Want.filter])
    (fun found others different => by simp [feed, different]) left lexemes
    (fun rest shorter => earlier.ofConjunction rest (by omega))
    (fun read => (sound ..).ofConjunction read |>.length_le)
    fun left rest shorter => earlier.ofMoreDisjuncts left rest (by omega)

theorem tracks_conjunction (earlier : Tracked finish steps) (lexemes : List Lexeme)
    (enough : 8 * lexemes.length + 4 ≤ steps + 1) :
    Tracks finish (conjunction finish (steps + 1) lexemes) [.unary, .conjuncts] lexemes :=
  (joins_and finish).tracks_whole (earlier.ofUnary lexemes (by omega))
    (fun read => (sound ..).ofUnary read |>.length_le)
    fun left rest shorter => earlier.ofMoreConjuncts left rest (by omega)

theorem tracks_moreConjuncts (earlier : Tracked finish steps) (left : Filter)
    (lexemes : List Lexeme) (enough : 8 * lexemes.length + 1 ≤ steps + 1) :
    Tracks finish (moreConjuncts finish (steps + 1) left lexemes) [.conjuncts] lexemes :=
  (joins_and finish).tracks_more rfl (fun found others same => by simp [feed, same])
    (fun found others different => by simp [feed, different]) left lexemes
    (fun rest shorter => earlier.ofUnary rest (by omega))
    (fun read => (sound ..).ofUnary read |>.length_le)
    fun left rest shorter => earlier.ofMoreConjuncts left rest (by omega)

theorem tracks_unary (earlier : Tracked finish steps) (lexemes : List Lexeme)
    (enough : 8 * lexemes.length + 3 ≤ steps + 1) :
    Tracks finish (unary finish (steps + 1) lexemes) [.unary] lexemes := by
  cases lexemes with
  | nil => exact tracks_end ⟨_, List.mem_singleton_self _, rfl⟩
  | cons found rest =>
      have whole := earlier.ofComparison (found :: rest) (by omega)
      rw [List.length_cons] at enough
      rw [unary]
      split
      all_goals rename_i mark
      · refine .cons [.unary] (fun others => by simp [feed, mark]) ?_
        exact Tracks.bind (earlier.ofUnary rest (by omega)) fun condition behind _ => tracks_ok _
      · refine .cons [.unary, .conjuncts, .disjuncts, .rightParen]
          (fun others => by simp [feed, mark, Want.filter]) ?_
        refine Tracks.bind (earlier.ofDisjunction rest (by omega)) fun condition behind _ => ?_
        exact tracks_expect condition behind rfl fun _ _ => rfl
      · intro others
        have same : feed found ([.unary] ++ others) =
            feed found ([.operand, .operator] ++ others) := by
          simp [feed]
        rw [fault?_congr same]
        exact whole others

theorem tracks_comparison (earlier : Tracked finish steps) (lexemes : List Lexeme)
    (enough : 8 * lexemes.length + 2 ≤ steps + 1) :
    Tracks finish (comparison finish (steps + 1) lexemes) [.operand, .operator] lexemes := by
  rw [comparison]
  refine Tracks.bind (earlier.ofOperand lexemes (by omega)) fun left behind read => ?_
  have shorter := (sound ..).ofOperand read |>.length_le
  cases behind with
  | nil => exact tracks_missing _ rfl
  | cons found behind =>
      rw [List.length_cons] at shorter
      dsimp only
      split
      · rename_i noSign
        exact tracks_skip _ fun others => by simp [feed, noSign]
      · rename_i sign between
        refine .cons [.operand] (fun others => by simp [feed, between]) ?_
        exact Tracks.bind (earlier.ofOperand behind (by omega)) fun right last _ => tracks_ok _

theorem tracks_operand (earlier : Tracked finish steps) (lexemes : List Lexeme)
    (enough : 8 * lexemes.length + 1 ≤ steps + 1) :
    Tracks finish (operand finish (steps + 1) lexemes) [.operand] lexemes := by
  cases lexemes with
  | nil => exact tracks_end ⟨_, List.mem_singleton_self _, rfl⟩
  | cons found rest =>
      rw [List.length_cons] at enough
      rw [operand]
      split
      all_goals rename_i mark
      · refine .cons [.segments] (fun others => by simp [feed, feedOperand, mark]) ?_
        exact Tracks.bind (earlier.ofSegments rest (by omega)) fun path behind _ => tracks_ok _
      · refine .cons [.segments] (fun others => by simp [feed, feedOperand, mark]) ?_
        exact Tracks.bind (earlier.ofSegments rest (by omega)) fun path behind _ => tracks_ok _
      · exact tracks_literal fun others => by simp [feed, feedOperand]

theorem tracked (finish steps : Nat) : Tracked finish steps := by
  induction steps with
  | zero => constructor <;> intros <;> omega
  | succ steps earlier =>
      exact {
        ofSegments := tracks_segments earlier
        ofDescended := tracks_descended earlier
        ofBracket := tracks_bracket earlier
        ofContent := tracks_content earlier
        ofDisjunction := tracks_disjunction earlier
        ofMoreDisjuncts := tracks_moreDisjuncts earlier
        ofConjunction := tracks_conjunction earlier
        ofMoreConjuncts := tracks_moreConjuncts earlier
        ofUnary := tracks_unary earlier
        ofComparison := tracks_comparison earlier
        ofOperand := tracks_operand earlier }

/-- The parser refuses what has a fault, and for that fault. -/
theorem ofLexemes_eq_error_iff (filled : lexemes ≠ []) {error : ParseError} :
    ofLexemes finish lexemes = .error error ↔ fault? finish [.path] lexemes = some error := by
  have behind (rest : List Lexeme) (enough : rest.length ≤ lexemes.length)
      {next : List Segment × List Lexeme → Except ParseError (List Segment)}
      (finished : ∀ later, ∃ path, next (later, []) = .ok path)
      (left : ∀ later found last, next (later, found :: last) =
        .error (.unexpectedToken found.token found.start)) :
      (segments finish (enoughSteps lexemes) rest >>= next) = .error error ↔
        fault? finish [.segments] rest = some error := by
    have steps : 8 * rest.length + 1 ≤ enoughSteps lexemes := by
      unfold enoughSteps
      omega
    have tracks := (tracked finish _).ofSegments rest steps []
    rw [List.append_nil] at tracks
    rw [tracks]
    cases segments finish (enoughSteps lexemes) rest with
    | error other => simp [bind, Except.bind]
    | ok read =>
        rcases read with ⟨later, _ | ⟨found, last⟩⟩
        · rcases finished later with ⟨path, done⟩
          simp [bind, Except.bind, done, fault?]
        · simp [bind, Except.bind, left, fault?, feed]
  cases lexemes with
  | nil => exact absurd rfl filled
  | cons found rest =>
      rw [ofLexemes, opening]
      by_cases root : found.token = .dollar
      · have fed : feed found [.path] = .ok [.segments] := by simp [feed, root]
        rw [if_pos root, fault?_of_feed fed]
        exact behind rest (by simp) (fun _ => ⟨_, rfl⟩) fun _ _ _ => rfl
      rw [if_neg root]
      cases named : found.token.name? with
      | some name =>
          have fed : feed found [.path] = .ok [.segments] := by simp [feed, named]
          rw [fault?_of_feed fed]
          exact behind rest (by simp) (fun _ => ⟨_, rfl⟩) fun _ _ _ => rfl
      | none =>
          by_cases mark : found.token = .leftBracket
          · have same : feed found [.path] = feed found [.segments] := by
              simp [feed, mark, Token.name?]
            rw [fault?_congr same]
            dsimp only
            rw [if_pos mark]
            exact behind (found :: rest) (Nat.le_refl _) (fun _ => ⟨_, rfl⟩) fun _ _ _ => rfl
          · have refused : feed found [.path] =
                .error (.unexpectedToken found.token found.start) := by
              simp [feed, root, named, mark]
            rw [fault?_of_refused refused]
            dsimp only
            rw [if_neg mark]
            simp [bind, Except.bind]

end PathParser

end TemplateFill
