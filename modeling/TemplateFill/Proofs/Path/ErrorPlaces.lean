import TemplateFill.Proofs.Path.Completion
import TemplateFill.Proofs.Path.Spans

/-!
Where the errors of a path lie.

Only a blank text has an error without a place. A place is a byte offset in front of a character of
the text or at its end: where the text goes on with no token, or where the first token stands behind
which it goes on to no path. In front of that token the text can be completed to a path, by closing
what is open. The end is blamed exactly if the tokens are those of a longer path cut short.
-/

namespace TemplateFill

open Text (byteLength)
open Lexer PathParser

namespace Lexeme

variable {position : Nat} {read rest other blanks : List Char} {lexemes first later : List Lexeme}

/-! ### Tiles in parts -/

/-- Tiles stay tiles if what follows them is replaced by a text that goes on with no token. -/
theorem Tiles.part (tiles : Tiles rest position read lexemes)
    (parts : ∀ c more, other = c :: more → Parts c) : Tiles other position read lexemes := by
  induction tiles with
  | nil => exact .nil
  | cons blank writes ends tiles ih => exact .cons blank writes (ends.part parts) ih

theorem parts_of_blank (blank : Blank blanks) : ∀ c more, blanks = c :: more → Parts c := by
  rintro c more rfl
  exact parts_of_isSpace (blank c (List.mem_cons_self ..))

theorem Tiles.exists_split (tiles : Tiles rest position read (first ++ later)) :
    ∃ before behind, read = before ++ behind ∧ Tiles (behind ++ rest) position before first ∧
      Tiles rest (position + byteLength before) behind later := by
  induction first generalizing position read with
  | nil => exact ⟨[], read, rfl, .nil, tiles⟩
  | cons lexeme first ih =>
      cases tiles with
      | @cons _ blanks written read token _ blank writes ends tiles =>
          rcases ih tiles with ⟨before, behind, rfl, front, back⟩
          refine ⟨blanks ++ (written ++ before), behind, by simp, ?_, ?_⟩
          · exact .cons blank writes (by simpa using ends) front
          · simpa [Nat.add_assoc] using back

theorem Tiles.append {behind : List Char} (front : Tiles (behind ++ rest) position read first)
    (back : Tiles rest (position + byteLength read) behind later) :
    Tiles rest position (read ++ behind) (first ++ later) := by
  induction front with
  | nil => exact back
  | @cons position blanks written read token first blank writes ends tiles ih =>
      have further := ih (by simpa [Nat.add_assoc] using back)
      have whole := Tiles.cons blank writes (by simpa using ends) further
      simpa using whole

theorem Tiles.indent {lexeme : Lexeme} (blank : Blank blanks)
    (tiles : Tiles rest (position + byteLength blanks) read (lexeme :: later)) :
    Tiles rest position (blanks ++ read) (lexeme :: later) := by
  cases tiles with
  | @cons _ others written read token _ blankOthers writes ends tiles =>
      have whole : Tiles rest position (blanks ++ others ++ (written ++ read)) _ :=
        .cons (blank.append blankOthers) writes ends (by simpa [Nat.add_assoc] using tiles)
      simpa [Nat.add_assoc] using whole

/-! ### Texts of tokens -/

def spell (tokens : List Token) : List Char :=
  tokens.flatMap fun token => ' ' :: token.text.toList

theorem exists_tiles_spell {tokens : List Token}
    (each : ∀ token ∈ tokens, Writes token token.text.toList) (position : Nat) :
    ∃ lexemes, Tiles [] position (spell tokens) lexemes ∧ lexemes.map Lexeme.token = tokens := by
  induction tokens generalizing position with
  | nil => exact ⟨[], .nil, rfl⟩
  | cons token tokens ih =>
      rcases List.forall_mem_cons.mp each with ⟨writes, others⟩
      rcases ih others (position + 1 + byteLength token.text.toList) with ⟨lexemes, tiles, same⟩
      have blank : Blank [' '] := List.forall_mem_singleton.mpr rfl
      have stops : ∀ c more, spell tokens ++ [] = c :: more → Parts c := by
        intro c more begins
        cases tokens with
        | nil => cases begins
        | cons next tokens =>
            cases begins
            exact parts_of_isSpace rfl
      have ends : EndsBefore token token.text.toList ([] ++ (spell tokens ++ [])) :=
        EndsBefore.part (endsBefore_nil token _) stops
      refine ⟨_, .cons blank writes ends tiles, ?_⟩
      rw [List.map_cons, same]

/-- Behind the tokens of a text further tokens can be written. -/
theorem exists_scan_spell (tiles : Tiles rest 0 read lexemes) (blank : Blank blanks)
    {tokens : List Token} (each : ∀ token ∈ tokens, Writes token token.text.toList) :
    ∃ others, scan (read ++ blanks ++ spell tokens) = .ok others ∧
      others.map Lexeme.token = lexemes.map Lexeme.token ++ tokens := by
  cases tokens with
  | nil =>
      have alone := scan_of_tiles (tiles.part (parts_of_blank blank)) blank
      exact ⟨lexemes, by simpa [spell] using alone, by simp⟩
  | cons token tokens =>
      rcases exists_tiles_spell each (0 + byteLength read + byteLength blanks) with
        ⟨others, back, same⟩
      cases others with
      | nil => cases same
      | cons lexeme others =>
          have behind := back.indent blank
          have starts :
              ∀ c more, blanks ++ spell (token :: tokens) ++ [] = c :: more → Parts c := by
            intro c more begins
            cases blanks with
            | nil =>
                cases begins
                exact parts_of_isSpace rfl
            | cons first blanks =>
                cases begins
                exact parts_of_isSpace (blank c (List.mem_cons_self ..))
          have whole := scan_of_tiles ((tiles.part starts).append behind) nofun
          refine ⟨lexemes ++ lexeme :: others, by simpa using whole, ?_⟩
          rw [List.map_append, same]

end Lexeme

/-! ### Places -/

theorem Lexer.Refuses.exists_place {before bad : List Char} {error : ParseError}
    (refuses : Refuses (byteLength before) bad error) :
    ∃ first later, bad = first ++ later ∧
      error.position? = some (byteLength (before ++ first)) := by
  cases refuses with
  | character => exact ⟨[], _, rfl, by simp [ParseError.position?]⟩
  | integer => exact ⟨[], _, rfl, by simp [ParseError.position?]⟩
  | unclosed => exact ⟨[], _, rfl, by simp [ParseError.position?]⟩
  | @escape quote body _ behind isQuote =>
      have single := utf8Size_of_isQuote isQuote
      exact ⟨quote :: body, '\\' :: behind, rfl, by
        simp [ParseError.position?, single, Nat.add_assoc]⟩

namespace PathParser

theorem Blames.position?_eq {found : Lexeme} {error : ParseError} (blames : Blames found error) :
    error.position? = some found.start := by
  cases blames <;> rfl

theorem Blames.ne_unexpectedEnd {found : Lexeme} {error : ParseError} (blames : Blames found error)
    (position : Nat) : error ≠ .unexpectedEnd position := by
  cases blames <;> nofun

theorem writes_of_mem_completion {want : Want} {token : Token} (inside : token ∈ want.completion) :
    Writes token token.text.toList := by
  have word : Writes (.ofWord (String.ofList ['n', 'u', 'l', 'l'])) ['n', 'u', 'l', 'l'] :=
    .name rfl (List.all_eq_true.mp rfl)
  have null : Token.ofWord (String.ofList ['n', 'u', 'l', 'l']) = .nullWord := by decide +kernel
  rw [null] at word
  have each : token = .nullWord ∨ token.isMark = true := by
    cases want <;> simp_all [Want.completion, Token.isMark]
  rcases each with rfl | isMark
  · exact word
  · exact .mark isMark

end PathParser

namespace Segment

variable {text : String} {error : ParseError} {lexemes : List Lexeme}

theorem parse_of_scan {chars : List Char} (scanned : Lexeme.scan chars = .ok lexemes) :
    parse (String.ofList chars) = ofLexemes (byteLength chars) lexemes := by
  unfold parse
  dsimp only
  rw [String.toList_ofList, scanned]
  rfl

theorem scan_eq_nil_iff {chars : List Char} : Lexeme.scan chars = .ok [] ↔ Blank chars := by
  constructor
  · intro scanned
    rcases Lexeme.scan_eq_ok_iff.mp scanned with ⟨read, blanks, rfl, tiles, blank⟩
    cases tiles
    exact blank
  · intro blank
    exact Lexeme.scan_of_tiles .nil blank

/-- A text can be cut in front of a token and completed there, if the tokens before it can be. -/
theorem exists_completed {chars : List Char} {before behind : List Lexeme} {found : Lexeme}
    (scanned : Lexeme.scan chars = .ok (before ++ found :: behind)) {others : List Want}
    (viable : Completes [.path] (before.map Lexeme.token ++ others.flatMap Want.completion)) :
    ∃ front rest more path, chars = front ++ rest ∧ found.start = byteLength front ∧
      parse (String.ofList (front ++ more)) = .ok path := by
  rcases Lexeme.scan_eq_ok_iff.mp scanned with ⟨read, last, rfl, tiles, -⟩
  rcases tiles.exists_split with ⟨front, back, rfl, frontTiles, backTiles⟩
  cases backTiles with
  | @cons _ blanks written later token _ blank writes ends _ =>
      have each : ∀ token ∈ others.flatMap Want.completion, Writes token token.text.toList := by
        intro token inside
        rcases List.mem_flatMap.mp inside with ⟨want, -, within⟩
        exact writes_of_mem_completion within
      rcases Lexeme.exists_scan_spell frontTiles blank each with ⟨completed, whole, same⟩
      have accepted : Accepted (completed.map Lexeme.token) := by
        rw [same]
        exact completes_path_iff.mp viable
      rcases exists_ofLexemes accepted _ with ⟨path, read⟩
      have parsed := (parse_of_scan whole).trans read
      exact ⟨front ++ blanks, written ++ later ++ last, _, path, by simp, by simp, parsed⟩

/-- What is wrong with a text that falls into tokens. -/
theorem fails_of_parse (scanned : Lexeme.scan text.toList = .ok lexemes)
    (refused : parse text = .error error) (filled : lexemes ≠ []) :
    Fails (byteLength text.toList) [.path] lexemes error := by
  have read := parse_of_scan scanned
  rw [String.ofList_toList, refused] at read
  exact fails_of_fault? ((ofLexemes_eq_error_iff filled).mp read.symm)

theorem parse_of_blank (blank : Blank text.toList) : parse text = .error .emptyExpression := by
  have read := parse_of_scan (scan_eq_nil_iff.mpr blank)
  rwa [String.ofList_toList] at read

theorem parse_of_scan_error {fault : ParseError} (failed : Lexeme.scan text.toList = .error fault) :
    parse text = .error fault := by
  unfold parse
  dsimp only
  rw [failed]
  rfl

theorem refuses_of_parse (failed : Lexeme.scan text.toList = .error error) :
    ∃ before bad lexemes, text.toList = before ++ bad ∧ Lexeme.scan before = .ok lexemes ∧
      Refuses (byteLength before) bad error := by
  rcases Lexeme.refuses_of_scan failed with
    ⟨read, blanks, bad, lexemes, whole, tiles, blank, refuses⟩
  have fine := Lexeme.scan_of_tiles (tiles.part (Lexeme.parts_of_blank blank)) blank
  rw [← Text.byteLength_append] at refuses
  exact ⟨read ++ blanks, bad, lexemes, by rw [whole, List.append_assoc], fine, refuses⟩

/-- The error of a text that is not blank has a place in it. -/
theorem exists_place (refused : parse text = .error error) (filled : ¬Blank text.toList) :
    ∃ before behind, text.toList = before ++ behind ∧
      error.position? = some (byteLength before) := by
  cases scanned : Lexeme.scan text.toList with
  | error fault =>
      rw [parse_of_scan_error scanned] at refused
      cases refused
      rcases refuses_of_parse scanned with ⟨before, bad, _, whole, -, refuses⟩
      rcases refuses.exists_place with ⟨first, later, rfl, place⟩
      exact ⟨before ++ first, later, by rw [whole, List.append_assoc], place⟩
  | ok lexemes =>
      have some : lexemes ≠ [] := by
        rintro rfl
        exact filled (scan_eq_nil_iff.mp scanned)
      cases fails_of_parse scanned refused some with
      | refused before split blames viable dead =>
          rw [split] at scanned
          rcases exists_completed scanned viable with ⟨front, rest, _, _, whole, start, -⟩
          exact ⟨front, rest, whole, by rw [blames.position?_eq, start]⟩
      | unfinished => exact ⟨text.toList, [], (List.append_nil _).symm, rfl⟩

theorem unexpectedEnd_iff (scanned : Lexeme.scan text.toList = .ok lexemes)
    (refused : parse text = .error error) (filled : lexemes ≠ []) :
    (∃ position, error = .unexpectedEnd position) ↔
      ∃ more, more ≠ [] ∧ Accepted (lexemes.map Lexeme.token ++ more) := by
  cases fails_of_parse scanned refused filled with
  | @refused before behind found others _ split blames viable dead =>
      constructor
      · rintro ⟨position, same⟩
        exact absurd same (blames.ne_unexpectedEnd position)
      · rintro ⟨more, -, accepted⟩
        have completes := completes_path_iff.mpr accepted
        rw [split] at completes
        simp only [List.map_append, List.map_cons, List.append_assoc, List.cons_append] at completes
        exact absurd completes (dead _)
  | unfinished some viable =>
      exact ⟨fun _ => ⟨_, some, completes_path_iff.mp viable⟩, fun _ => ⟨_, rfl⟩⟩

/-- Errors have the places that readers of a path expect. Only a blank text has one without a place.
Any other place is in front of a character or at the end. If no token is read from a place on, the
text in front of it falls into tokens. If the text falls into tokens, then either they are those of
a longer path, and the error is that the end comes too soon, or the error blames a token: in front of
it the text can be completed to a path, and together with it the tokens start no path. -/
theorem parse_error_place (refused : parse text = .error error) :
    (error.position? = none ↔ Blank text.toList) ∧
    (error = .emptyExpression ↔ Blank text.toList) ∧
    (∀ position, error.position? = some position →
      ∃ before behind, text.toList = before ++ behind ∧ position = byteLength before) ∧
    (∀ fault, Lexeme.scan text.toList = .error fault → error = fault ∧
      ∃ before bad lexemes, text.toList = before ++ bad ∧ Lexeme.scan before = .ok lexemes ∧
        Refuses (byteLength before) bad error) ∧
    ∀ lexemes, Lexeme.scan text.toList = .ok lexemes → ¬Blank text.toList →
      ((∃ position, error = .unexpectedEnd position) ↔
        ∃ more, more ≠ [] ∧ Accepted (lexemes.map Lexeme.token ++ more)) ∧
      (∀ position, error = .unexpectedEnd position → position = byteLength text.toList) ∧
      ((∀ position, error ≠ .unexpectedEnd position) →
        ∃ read found behind, lexemes = read ++ found :: behind ∧ Blames found error ∧
          (∃ before rest more path, text.toList = before ++ rest ∧
            found.start = byteLength before ∧
            parse (String.ofList (before ++ more)) = .ok path) ∧
          ∀ more, ¬Accepted (read.map Lexeme.token ++ found.token :: more)) := by
  have place (filled : ¬Blank text.toList) := exists_place refused filled
  have empty (blank : Blank text.toList) : error = .emptyExpression := by
    rw [parse_of_blank blank] at refused
    cases refused
    rfl
  refine ⟨⟨fun none => ?_, fun blank => ?_⟩, ⟨fun same => ?_, empty⟩, fun position found => ?_,
    fun fault failed => ?_, fun lexemes scanned filled => ?_⟩
  · by_contra filled
    rcases place filled with ⟨_, _, -, some⟩
    rw [none] at some
    cases some
  · rw [empty blank]
    rfl
  · by_contra filled
    rcases place filled with ⟨_, _, -, some⟩
    rw [same] at some
    cases some
  · by_cases blank : Blank text.toList
    · rw [empty blank] at found
      cases found
    · rcases place blank with ⟨before, behind, whole, some⟩
      rw [found] at some
      cases some
      exact ⟨before, behind, whole, rfl⟩
  · rw [parse_of_scan_error failed] at refused
    cases refused
    exact ⟨rfl, refuses_of_parse failed⟩
  · have some : lexemes ≠ [] := by
      rintro rfl
      exact filled (scan_eq_nil_iff.mp scanned)
    refine ⟨unexpectedEnd_iff scanned refused some, ?_, ?_⟩
    · rintro position rfl
      cases fails_of_parse scanned refused some with
      | refused _ _ blames => exact absurd rfl (blames.ne_unexpectedEnd position)
      | unfinished => rfl
    · intro noEnd
      cases fails_of_parse scanned refused some with
      | @refused before behind found others _ split blames viable dead =>
          rw [split] at scanned
          exact ⟨before, found, behind, split, blames, exists_completed scanned viable,
            fun more accepted => dead more (completes_path_iff.mpr accepted)⟩
      | unfinished => exact absurd rfl (noEnd _)

/-- A second number behind a comparison, behind a name of a letter of two bytes. -/
theorem parse_error_place_number :
    parse "$[?@.é == 1 2]" =
        .error (.expectedToken (.exactly .rightBracket) (.integer 2) 13) ∧
      (∃ before behind, "$[?@.é == 1 2]".toList = before ++ behind ∧ 13 = byteLength before) ∧
      ¬∃ more, more ≠ [] ∧ Accepted ([.dollar, .leftBracket, .question, .at, .dot, .identifier "é",
        .equal, .integer 1, .integer 2, .rightBracket] ++ more) := by
  have scanned : Lexeme.scan "$[?@.é == 1 2]".toList =
      .ok [⟨.dollar, 0, 1⟩, ⟨.leftBracket, 1, 2⟩, ⟨.question, 2, 3⟩, ⟨.at, 3, 4⟩, ⟨.dot, 4, 5⟩,
        ⟨.identifier "é", 5, 7⟩, ⟨.equal, 8, 10⟩, ⟨.integer 1, 11, 12⟩, ⟨.integer 2, 13, 14⟩,
        ⟨.rightBracket, 14, 15⟩] := by
    decide +kernel
  have refused : parse "$[?@.é == 1 2]" =
      .error (.expectedToken (.exactly .rightBracket) (.integer 2) 13) := by
    unfold parse
    dsimp only
    rw [scanned]
    rfl
  have filled : ¬Blank "$[?@.é == 1 2]".toList := by
    intro blank
    have empty := scan_eq_nil_iff.mpr blank
    rw [scanned] at empty
    cases empty
  have places := parse_error_place refused
  refine ⟨refused, places.2.2.1 13 rfl, fun longer => ?_⟩
  rcases (places.2.2.2.2 _ scanned filled).1.mpr longer with ⟨position, impossible⟩
  cases impossible

end Segment

end TemplateFill
