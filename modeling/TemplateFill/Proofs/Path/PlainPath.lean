import TemplateFill.Path.Query
import TemplateFill.Proofs.Path.Acceptance
import TemplateFill.Proofs.Path.Lexemes

/-!
Plain paths: names, single entries, and every entry.

A plain path is a list of steps. Its text starts with `$`; reading the text gives back the segments
of the steps, provided that the names are plain and the numbers fit into a literal.
-/

namespace TemplateFill

inductive Step where
  | name (key : String)
  | entry (position : Nat)
  | every
deriving DecidableEq

def PlainName (name : String) : Prop :=
  ∃ first rest, name.toList = first :: rest ∧ first.isAlpha = true ∧
    ∀ c ∈ rest, (c.isAlphanum || c == '_') = true

namespace Step

def text : Step → List Char
  | .name key => '.' :: key.toList
  | entry position => '[' :: Nat.toDigits 10 position ++ [']']
  | every => ['[', '*', ']']

def segment : Step → Segment
  | .name key => .child (.name key)
  | entry position => .child (.index position)
  | every => .child .wildcard

def tokens : Step → List Token
  | .name key => [.dot, .ofWord key]
  | entry position => [.leftBracket, .integer position, .rightBracket]
  | every => [.leftBracket, .star, .rightBracket]

/-- The name is plain, the position is at most the greatest integer literal. -/
def Plain : Step → Prop
  | .name key => PlainName key
  | entry position => (position : Int) ≤ Lexer.greatestInteger
  | every => True

def chars (steps : List Step) : List Char := steps.flatMap text

def path (steps : List Step) : String := String.ofList ('$' :: chars steps)

example : path [.name "a", .entry 12, .every, .name "b"] = "$.a[12][*].b" := by
  decide +kernel

@[simp] theorem chars_nil : chars [] = [] := rfl

@[simp] theorem chars_cons (step : Step) (later : List Step) :
    chars (step :: later) = step.text ++ chars later := rfl

@[simp] theorem chars_append (first later : List Step) :
    chars (first ++ later) = chars first ++ chars later :=
  List.flatMap_append

theorem toList_path (steps : List Step) : (path steps).toList = '$' :: chars steps :=
  String.toList_ofList

theorem text_ne_nil (step : Step) : step.text ≠ [] := by
  cases step <;> simp [text]

end Step

/-! ### Characters of names and numbers -/

theorem PlainName.letter {first : Char} (letter : first.isAlpha = true) :
    PlainName (String.ofList [first]) :=
  ⟨first, [], String.toList_ofList, letter, nofun⟩

theorem PlainName.all {name : String} (plain : PlainName name) :
    ∀ c ∈ name.toList, (c.isAlphanum || c == '_') = true := by
  obtain ⟨first, rest, split, letter, others⟩ := plain
  intro c inside
  rw [split] at inside
  rcases List.mem_cons.mp inside with rfl | later
  · simp [Char.isAlphanum, letter]
  · exact others c later

def NameText (name : String) : Prop :=
  (∃ first rest, name.toList = first :: rest ∧ Lexer.startsName first = true) ∧
    ∀ c ∈ name.toList, Lexer.continuesName c = true

theorem PlainName.nameText {name : String} (plain : PlainName name) : NameText name := by
  constructor
  · obtain ⟨first, rest, split, letter, _⟩ := plain
    exact ⟨first, rest, split, by simp [Lexer.startsName, letter]⟩
  · intro c inside
    have each := plain.all c inside
    simp only [Lexer.continuesName, Bool.or_eq_true] at each ⊢
    exact Or.inl (Or.inl each)

def Step.Named : Step → Prop
  | .name key => NameText key
  | .entry _ => True
  | .every => True

theorem Step.Plain.named {step : Step} (plain : step.Plain) : step.Named := by
  cases step with
  | name key => exact PlainName.nameText plain
  | entry position => trivial
  | every => trivial

/-- The text of a named step behind its first character holds no mark of a root, an entry, or
another step. -/
theorem Step.not_mark_of_mem_tail {step : Step} (named : step.Named) {c : Char}
    (inside : c ∈ step.text.tail) : c ≠ '$' ∧ c ≠ '[' ∧ c ≠ '.' := by
  cases step with
  | name key =>
      have continues := (show NameText key from named).2 c inside
      refine ⟨?_, ?_, ?_⟩ <;> rintro rfl <;> exact absurd continues (by decide)
  | entry position =>
      have closed : c ∈ Nat.toDigits 10 position ++ [']'] := inside
      rcases List.mem_append.mp closed with digit | last
      · have isDigit := Nat.isDigit_of_mem_toDigits (by decide) (by decide) digit
        refine ⟨?_, ?_, ?_⟩ <;> rintro rfl <;> exact absurd isDigit (by decide)
      · cases List.mem_singleton.mp last
        decide
  | every =>
      have cases : c = '*' ∨ c = ']' := by simpa [text] using inside
      rcases cases with rfl | rfl <;> decide

theorem Text.digitsValue_toDigits (number : Nat) :
    Text.digitsValue (Nat.toDigits 10 number) = number := by
  have value := Nat.ofDigitChars_ten_toDigits (n := number)
  rw [Nat.ofDigitChars_eq_foldl] at value
  simp only [Nat.mul_comm 10] at value
  exact value

/-! ### Reading tokens -/

def Reads (token : Token) (text rest : List Char) : Prop :=
  rest.length < text.length ∧ ∀ position, ∃ start stop after,
    (Cursor.mk position text).next = (.ok (some ⟨token, start, stop⟩), ⟨after, rest⟩)

inductive Scans : List Token → List Char → Prop
  | done : Scans [] []
  | next {token : Token} {later : List Token} {text rest : List Char}
      (reads : Reads token text rest) (scans : Scans later rest) : Scans (token :: later) text

theorem Scans.length_le {tokens : List Token} {text : List Char} (scans : Scans tokens text) :
    tokens.length ≤ text.length := by
  induction scans with
  | done => exact Nat.le_refl _
  | next reads _ ih =>
      have shorter := reads.1
      simp only [List.length_cons]
      omega

theorem Scans.runFrom {tokens : List Token} {text : List Char} (scans : Scans tokens text) :
    ∀ (bound position : Nat), tokens.length < bound →
      (Lexeme.runFrom bound ⟨position, text⟩).error? = none ∧
        (Lexeme.runFrom bound ⟨position, text⟩).lexemes.map Lexeme.token = tokens := by
  induction scans with
  | done =>
      intro bound position enough
      cases bound with
      | zero => exact absurd enough (Nat.not_lt_zero _)
      | succ more => exact ⟨rfl, rfl⟩
  | next reads _ ih =>
      intro bound position enough
      cases bound with
      | zero => exact absurd enough (Nat.not_lt_zero _)
      | succ more =>
          obtain ⟨start, stop, after, found⟩ := reads.2 position
          obtain ⟨fine, same⟩ := ih more after (Nat.lt_of_succ_lt_succ enough)
          rw [Lexeme.runFrom, found]
          exact ⟨fine, by rw [List.map_cons, same]⟩

theorem Scans.scan {tokens : List Token} {text : List Char} (scans : Scans tokens text) :
    ∃ lexemes, Lexeme.scan text = .ok lexemes ∧ lexemes.map Lexeme.token = tokens := by
  obtain ⟨fine, same⟩ := scans.runFrom (text.length + 1) 0 (Nat.lt_succ_of_le scans.length_le)
  refine ⟨(Lexeme.run text).lexemes, ?_, same⟩
  unfold Lexeme.scan Lexeme.run Cursor.start
  rw [fine]

theorem Reads.of_readToken {token : Token} {first : Char} {text rest : List Char}
    (solid : Lexer.isSpace first = false) (shorter : rest.length ≤ text.length)
    (reads : ∀ position, ∃ after,
      Lexer.readToken position (first :: text) = .ok (token, ⟨after, rest⟩)) :
    Reads token (first :: text) rest := by
  refine ⟨Nat.lt_succ_of_le shorter, fun position => ?_⟩
  obtain ⟨after, found⟩ := reads position
  refine ⟨position, after, after, ?_⟩
  have skipped : (Cursor.mk position (first :: text)).skipSpace = ⟨position, first :: text⟩ := by
    simp [Cursor.skipSpace, solid]
  simp only [Cursor.next, skipped, found]
  rfl

open Lexer in
theorem Reads.of_writes {token : Token} {written rest : List Char} (writes : Writes token written)
    (ends : EndsBefore token written rest) : Reads token (written ++ rest) rest := by
  rcases writes.exists_cons with ⟨first, others, same, solid⟩
  have found (position : Nat) := readToken_of_writes writes ends position
  subst same
  exact .of_readToken solid (by simp) fun position => ⟨_, found position⟩

def StartsStep : List Char → Prop
  | [] => True
  | c :: _ => c = '.' ∨ c = '[' ∨ c = ']'

theorem Step.startsStep_chars (steps : List Step) : StartsStep (chars steps) := by
  cases steps with
  | nil => trivial
  | cons step later =>
      cases step with
      | name key => exact Or.inl rfl
      | entry position => exact Or.inr (Or.inl rfl)
      | every => exact Or.inr (Or.inl rfl)

private theorem StartsStep.stops {rest : List Char} (apart : StartsStep rest) {p : Char → Bool}
    (dot : p '.' = false) (opening : p '[' = false) (closing : p ']' = false) :
    rest.takeWhile p = [] ∧ rest.dropWhile p = rest := by
  cases rest with
  | nil => exact ⟨rfl, rfl⟩
  | cons c behind => rcases apart with rfl | rfl | rfl <;> simp [*]

open Lexer in
theorem NameText.reads_of_stop {key : String} (named : NameText key) {rest : List Char}
    (stop : rest.takeWhile continuesName = []) :
    Reads (.ofWord key) (key.toList ++ rest) rest := by
  rcases named with ⟨⟨first, others, split, starts⟩, continues⟩
  rw [split] at continues
  have writes : Writes (.ofWord (String.ofList (first :: others))) (first :: others) :=
    .name starts (List.forall_mem_cons.mp continues).2
  rw [← split, String.ofList_toList] at writes
  refine .of_writes writes (.ofWord key fun c more same => ?_)
  subst same
  simpa using stop

theorem NameText.reads {key : String} (named : NameText key) {rest : List Char}
    (apart : StartsStep rest) : Reads (.ofWord key) (key.toList ++ rest) rest :=
  named.reads_of_stop (apart.stops (by decide) (by decide) (by decide)).1

open Lexer in
theorem reads_integer {number : Nat} (bounded : (number : Int) ≤ greatestInteger)
    (rest : List Char) :
    Reads (.integer number) (Nat.toDigits 10 number ++ ']' :: rest) (']' :: rest) := by
  have each : ∀ c ∈ Nat.toDigits 10 number, c.isDigit = true := fun c inside =>
    Nat.isDigit_of_mem_toDigits (by decide) (by decide) inside
  have value : signedValue false (Nat.toDigits 10 number) = number :=
    congrArg Int.ofNat (Text.digitsValue_toDigits number)
  have fits : Fits (signedValue false (Nat.toDigits 10 number)) := by
    rw [value]
    exact ⟨by unfold leastInteger; omega, bounded⟩
  have writes := Writes.integer Nat.toDigits_ne_nil each fits
  rw [value] at writes
  refine .of_writes writes ⟨?_, ?_⟩
  · intro c more same
    cases same
    rfl
  · intro _ _ c more same
    cases same

/-! ### Reading steps -/

theorem reads_dot {rest : List Char} (apart : ∀ behind, rest ≠ '.' :: behind) :
    Reads .dot ('.' :: rest) rest := by
  have ends : Lexer.EndsBefore .dot Token.dot.text.toList rest := by
    refine .of_isMark rfl fun c more same => ?_
    rw [Lexer.goesOn, beq_eq_false_iff_ne]
    rintro rfl
    exact apart more same
  exact .of_writes (.mark rfl) ends

theorem reads_mark {mark : Char} {token : Token} (rest : List Char)
    (solid : Lexer.isSpace mark = false)
    (reads : ∀ position, Lexer.readToken position (mark :: rest) =
      .ok (token, ⟨position + 1, rest⟩)) : Reads token (mark :: rest) rest :=
  Reads.of_readToken solid (Nat.le_refl _) fun position => ⟨_, reads position⟩

theorem Step.scans {step : Step} (plain : step.Plain) {later : List Token} {rest : List Char}
    (apart : StartsStep rest) (behind : Scans later rest) :
    Scans (step.tokens ++ later) (step.text ++ rest) := by
  cases step with
  | name key =>
      have named : PlainName key := plain
      refine .next (reads_dot ?_) (.next (named.nameText.reads apart) behind)
      obtain ⟨first, others, split, letter, _⟩ := named
      rintro text same
      rw [split] at same
      cases same
      exact absurd letter (by decide)
  | entry position =>
      refine .next (reads_mark _ (by decide) fun _ => rfl) ?_
      have grouped : (Nat.toDigits 10 position ++ [']']) ++ rest =
          Nat.toDigits 10 position ++ ']' :: rest := List.append_assoc ..
      change Scans (.integer position :: .rightBracket :: later)
        ((Nat.toDigits 10 position ++ [']']) ++ rest)
      rw [grouped]
      exact .next (reads_integer plain rest) (.next (reads_mark _ (by decide) fun _ => rfl) behind)
  | every =>
      refine .next (reads_mark _ (by decide) fun _ => rfl) ?_
      refine .next (reads_mark _ (by decide) fun _ => rfl) ?_
      exact .next (reads_mark _ (by decide) fun _ => rfl) behind

theorem Step.scans_chars {steps : List Step} (plain : ∀ step ∈ steps, step.Plain) :
    Scans (steps.flatMap tokens) (chars steps) := by
  induction steps with
  | nil => exact .done
  | cons step later ih =>
      apply Step.scans (plain step (List.mem_cons_self ..)) (Step.startsStep_chars later)
      exact ih fun other inside => plain other (List.mem_cons_of_mem _ inside)

/-! ### Reading paths -/

theorem Token.name?_ofWord (word : String) : (Token.ofWord word).name? = some word := by
  unfold Token.ofWord
  split
  · rename_i same; rw [same]; rfl
  · split
    · rename_i same; rw [same]; rfl
    · split
      · rename_i same; rw [same]; rfl
      · rfl

theorem Grammar.isDotted_ofWord (word : String) : IsDotted (.ofWord word) (.name word) :=
  .name (PathParser.name?_eq_some_iff.mp (Token.name?_ofWord word))

theorem Scans.parse {tokens : List Token} {text : String} {segments : List Segment}
    (scans : Scans tokens text.toList) (path : Grammar.IsPath tokens segments) :
    Segment.parse text = .ok segments := by
  obtain ⟨lexemes, scanned, rfl⟩ := scans.scan
  unfold Segment.parse
  dsimp only
  rw [scanned]
  exact PathParser.ofLexemes_of_isPath path

theorem Step.isSegment (step : Step) : Grammar.IsSegment step.tokens step.segment := by
  cases step with
  | name key => exact .child (Grammar.isDotted_ofWord key)
  | entry position => exact .bracketChild (.index position)
  | every => exact .bracketChild .wildcard

theorem Step.areSegments (steps : List Step) :
    Grammar.AreSegments (steps.flatMap tokens) (steps.map segment) := by
  induction steps with
  | nil => exact .nil
  | cons step later ih => exact .cons step.isSegment ih

/-- Reading the text of plain steps gives back their segments. -/
theorem Step.parse_path {steps : List Step} (plain : ∀ step ∈ steps, step.Plain) :
    Segment.parse (path steps) = .ok (steps.map segment) := by
  have scans : Scans (.dollar :: steps.flatMap tokens) (path steps).toList := by
    rw [toList_path]
    exact .next (reads_mark _ (by decide) fun _ => rfl) (scans_chars plain)
  exact scans.parse (.root (areSegments steps))

end TemplateFill
