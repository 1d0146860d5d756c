import TemplateFill.Proofs.Path.Lexemes

/-!
Tokens tile a text.

The tokens of a text stand one behind another with nothing but blanks in front of each, and reading
them reaches either the blanks at the end or the first place where no token is read. So the spans
are disjoint pieces of the text in order, every byte outside them belongs to a blank, and each piece
taken alone is the one token that it was read as.
-/

namespace TemplateFill

namespace Text

def bytes (text : List Char) : List UInt8 := text.flatMap String.utf8EncodeChar

@[simp] theorem bytes_nil : bytes [] = [] := rfl

@[simp] theorem bytes_cons (c : Char) (text : List Char) :
    bytes (c :: text) = String.utf8EncodeChar c ++ bytes text :=
  List.flatMap_cons ..

@[simp] theorem bytes_append (first later : List Char) :
    bytes (first ++ later) = bytes first ++ bytes later :=
  List.flatMap_append

@[simp] theorem length_bytes (text : List Char) : (bytes text).length = byteLength text := by
  induction text with
  | nil => rfl
  | cons c text ih => simp [ih]

end Text

open Text (byteLength bytes)

namespace Lexer

def blankBytes : List UInt8 := [9, 10, 13, 32]

def Blank (text : List Char) : Prop := ∀ c ∈ text, isSpace c = true

theorem Blank.append {first later : List Char} (blank : Blank first) (blankLater : Blank later) :
    Blank (first ++ later) := by
  intro c inside
  rcases List.mem_append.mp inside with before | behind
  · exact blank c before
  · exact blankLater c behind

theorem isSpace_iff {c : Char} : isSpace c = true ↔ c = ' ' ∨ c = '\t' ∨ c = '\r' ∨ c = '\n' := by
  simp [isSpace, or_assoc]

theorem Blank.byteLength {text : List Char} (blank : Blank text) :
    Text.byteLength text = text.length := by
  apply Text.byteLength_of_ascii
  intro c inside
  rcases isSpace_iff.mp (blank c inside) with rfl | rfl | rfl | rfl <;> decide

theorem Blank.mem_bytes {text : List Char} (blank : Blank text) {byte : UInt8}
    (inside : byte ∈ bytes text) : byte ∈ blankBytes := by
  rcases List.mem_flatMap.mp inside with ⟨c, within, encoded⟩
  have each : (String.utf8EncodeChar c).all (fun byte => byte ∈ blankBytes) = true := by
    rcases isSpace_iff.mp (blank c within) with rfl | rfl | rfl | rfl <;> rfl
  exact of_decide_eq_true (List.all_eq_true.mp each byte encoded)

end Lexer

namespace Lexeme

open Lexer

/-- Tokens stand one behind another in a text that starts at the position, with blanks in front of
each; the rest of the text follows. -/
inductive Tiles (rest : List Char) : Nat → List Char → List Lexeme → Prop
  | nil {position : Nat} : Tiles rest position [] []
  | cons {position : Nat} {blanks written later : List Char} {token : Token}
      {lexemes : List Lexeme} (blank : Blank blanks) (writes : Writes token written)
      (ends : EndsBefore token written (later ++ rest))
      (tiles : Tiles rest (position + byteLength blanks + byteLength written) later lexemes) :
      Tiles rest position (blanks ++ (written ++ later))
        (⟨token, position + byteLength blanks, position + byteLength blanks + byteLength written⟩ ::
          lexemes)

/-- Why no token follows: the text ends behind blanks, or its next token is refused. -/
inductive Stops (position : Nat) : List Char → Option ParseError → Prop
  | ended {blanks : List Char} (blank : Blank blanks) : Stops position blanks none
  | refused {blanks others : List Char} {first : Char} {halt : Halt} (blank : Blank blanks)
      (solid : isSpace first = false)
      (failed : readToken (position + byteLength blanks) (first :: others) = .error halt) :
      Stops position (blanks ++ first :: others) (some halt.error)

variable {position : Nat} {text read rest : List Char} {lexemes : List Lexeme}
  {error? : Option ParseError}

/-! ### Reading tiles -/

theorem Tiles.length_le (tiles : Tiles rest position read lexemes) :
    lexemes.length ≤ read.length := by
  induction tiles with
  | nil => exact Nat.le_refl _
  | cons blank writes ends tiles ih =>
      rcases writes.exists_cons with ⟨first, others, rfl, -⟩
      simp only [List.length_cons, List.length_append]
      omega

theorem skipSpace_append {blanks : List Char} (blank : Blank blanks)
    (solid : ∀ c others, text = c :: others → isSpace c = false) (position : Nat) :
    (Cursor.mk position (blanks ++ text)).skipSpace = ⟨position + byteLength blanks, text⟩ := by
  rw [Cursor.skipSpace]
  dsimp only
  rw [(span_stop blank solid).1, (span_stop blank solid).2, blank.byteLength]

theorem Tiles.runFrom (tiles : Tiles rest position read lexemes) (bound : Nat) :
    runFrom (lexemes.length + bound) ⟨position, read ++ rest⟩ =
      { runFrom bound ⟨position + byteLength read, rest⟩ with
        lexemes := lexemes ++ (runFrom bound ⟨position + byteLength read, rest⟩).lexemes } := by
  induction tiles with
  | nil => simp
  | @cons position blanks written later token lexemes blank writes ends tiles ih =>
      have stop : position + byteLength (blanks ++ (written ++ later)) =
          position + byteLength blanks + byteLength written + byteLength later := by
        simp [Nat.add_assoc]
      have next : (Cursor.mk position ((blanks ++ (written ++ later)) ++ rest)).next =
          (.ok (some ⟨token, position + byteLength blanks,
              position + byteLength blanks + byteLength written⟩),
            ⟨position + byteLength blanks + byteLength written, later ++ rest⟩) := by
        rcases writes.exists_cons with ⟨first, others, same, solid⟩
        have found := readToken_of_writes writes ends (position + byteLength blanks)
        have behind : ∀ c more, written ++ (later ++ rest) = c :: more → isSpace c = false := by
          intro c more cons
          rw [same] at cons
          cases cons
          exact solid
        rw [Cursor.next, List.append_assoc, List.append_assoc, skipSpace_append blank behind]
        dsimp only
        rw [found, same]
        rfl
      rw [List.length_cons, Nat.add_right_comm, Lexeme.runFrom, next]
      dsimp only
      rw [ih, stop]
      rfl

theorem Stops.runFrom (stops : Stops position rest error?) (bound : Nat) :
    (runFrom (bound + 1) ⟨position, rest⟩).lexemes = [] ∧
      (runFrom (bound + 1) ⟨position, rest⟩).error? = error? := by
  cases stops with
  | ended blank =>
      have nothing : ∀ c others, [] = c :: others → isSpace c = false := nofun
      have skipped := skipSpace_append blank nothing position
      rw [List.append_nil] at skipped
      rw [Lexeme.runFrom, Cursor.next, skipped]
      exact ⟨rfl, rfl⟩
  | @refused blanks others first halt blank solid failed =>
      have visible : ∀ c more, first :: others = c :: more → isSpace c = false := by
        intro c more same
        cases same
        exact solid
      rw [Lexeme.runFrom, Cursor.next, skipSpace_append blank visible]
      dsimp only
      rw [failed]
      exact ⟨rfl, rfl⟩

theorem run_of_tiles (tiles : Tiles rest 0 read lexemes)
    (stops : Stops (byteLength read) rest error?) :
    (run (read ++ rest)).lexemes = lexemes ∧ (run (read ++ rest)).error? = error? := by
  have enough : (read ++ rest).length + 1 =
      lexemes.length + ((read ++ rest).length - lexemes.length + 1) := by
    have fewer := tiles.length_le
    rw [List.length_append]
    omega
  have whole := tiles.runFrom ((read ++ rest).length - lexemes.length + 1)
  have last := stops.runFrom ((read ++ rest).length - lexemes.length)
  rw [Nat.zero_add] at whole
  rw [run, enough, Cursor.start, whole]
  dsimp only
  rw [last.1, last.2, List.append_nil]
  exact ⟨rfl, rfl⟩

theorem exists_tiles (position : Nat) (text : List Char) :
    ∃ read rest lexemes error?, text = read ++ rest ∧ Tiles rest position read lexemes ∧
      Stops (position + byteLength read) rest error? := by
  -- on the length of the text, since a token takes a character at least
  induction length : text.length using Nat.strong_induction_on generalizing position text with
  | h size ih =>
  have split := List.takeWhile_append_dropWhile (p := isSpace) (l := text)
  have blank : Blank (text.takeWhile isSpace) := fun c inside => List.mem_takeWhile_imp inside
  have visible := List.head?_dropWhile_not isSpace text
  generalize text.takeWhile isSpace = blanks at *
  cases solid : text.dropWhile isSpace with
  | nil =>
      rw [solid, List.append_nil] at split
      subst split
      exact ⟨[], blanks, [], none, rfl, .nil, .ended blank⟩
  | cons first others =>
      rw [solid] at split visible
      have noBlank : isSpace first = false := by simpa using visible
      have answer := answers_readToken (List.cons_ne_nil first others)
        (position + byteLength blanks)
      cases found : readToken (position + byteLength blanks) (first :: others) with
      | error halt =>
          subst split
          exact ⟨[], _, [], _, rfl, .nil, .refused blank noBlank found⟩
      | ok result =>
          rw [found] at answer
          cases answer with
          | @token token written later same writes ends =>
              rcases writes.exists_cons with ⟨start, more, filled, -⟩
              have shorter : later.length < size := by
                rw [← length, ← split, same, filled]
                simp
                omega
              rcases ih later.length shorter
                (position + byteLength blanks + byteLength written) later rfl with
                ⟨read, rest, lexemes, error?, rfl, tiles, stops⟩
              have whole := Tiles.cons blank writes ends tiles
              refine ⟨blanks ++ (written ++ read), rest, _, error?, ?_, whole, ?_⟩
              · rw [← split, same, List.append_assoc, List.append_assoc]
              · simpa [Nat.add_assoc] using stops

theorem scan_of_tiles {blanks : List Char} (tiles : Tiles blanks 0 read lexemes)
    (blank : Blank blanks) : scan (read ++ blanks) = .ok lexemes := by
  rcases run_of_tiles tiles (.ended blank) with ⟨same, none⟩
  rw [scan, none, same]

theorem scan_eq_ok_iff :
    scan text = .ok lexemes ↔
      ∃ read blanks, text = read ++ blanks ∧ Tiles blanks 0 read lexemes ∧ Blank blanks := by
  constructor
  · intro scanned
    rcases exists_tiles 0 text with ⟨read, rest, found, error?, rfl, tiles, stops⟩
    rw [Nat.zero_add] at stops
    rcases run_of_tiles tiles stops with ⟨same, halted⟩
    rw [scan, halted, same] at scanned
    cases stops with
    | ended blank =>
        cases scanned
        exact ⟨read, rest, rfl, tiles, blank⟩
    | refused => cases scanned
  · rintro ⟨read, blanks, rfl, tiles, blank⟩
    exact scan_of_tiles tiles blank

theorem refuses_of_scan {error : ParseError} (failed : scan text = .error error) :
    ∃ read blanks bad lexemes, text = read ++ (blanks ++ bad) ∧
      Tiles (blanks ++ bad) 0 read lexemes ∧ Blank blanks ∧
      Refuses (byteLength read + byteLength blanks) bad error := by
  rcases exists_tiles 0 text with ⟨read, rest, lexemes, error?, rfl, tiles, stops⟩
  rw [Nat.zero_add] at stops
  rw [scan, (run_of_tiles tiles stops).2] at failed
  cases stops with
  | ended blank => cases failed
  | @refused blanks others first halt blank solid found =>
      cases failed
      have answer := answers_readToken (List.cons_ne_nil first others)
        (byteLength read + byteLength blanks)
      rw [found] at answer
      cases answer with
      | fault refuses => exact ⟨read, blanks, first :: others, lexemes, rfl, tiles, blank, refuses⟩

/-! ### Spans -/

/-- Each span is a piece of the text that its token is written by. -/
theorem Tiles.exists_piece (tiles : Tiles rest position read lexemes) {lexeme : Lexeme}
    (inside : lexeme ∈ lexemes) :
    ∃ before written behind, read = before ++ (written ++ behind) ∧
      lexeme.start = position + byteLength before ∧
      lexeme.stop = lexeme.start + byteLength written ∧ Writes lexeme.token written := by
  induction tiles with
  | nil => cases inside
  | @cons position blanks written later token lexemes blank writes ends tiles ih =>
      rcases List.mem_cons.mp inside with rfl | deeper
      · exact ⟨blanks, written, later, rfl, rfl, rfl, writes⟩
      · rcases ih deeper with ⟨before, piece, behind, rfl, start, stop, writes⟩
        refine ⟨blanks ++ (written ++ before), piece, behind, by simp, ?_, stop, writes⟩
        simpa [Nat.add_assoc] using start

theorem Tiles.le_start (tiles : Tiles rest position read lexemes) {lexeme : Lexeme}
    (inside : lexeme ∈ lexemes) : position ≤ lexeme.start := by
  rcases tiles.exists_piece inside with ⟨_, _, _, -, start, -, -⟩
  omega

theorem byteLength_pos {token : Token} {written : List Char} (writes : Writes token written) :
    0 < byteLength written := by
  rcases writes.exists_cons with ⟨first, others, rfl, -⟩
  have size := first.utf8Size_pos
  rw [Text.byteLength_cons]
  omega

theorem Tiles.start_lt_stop (tiles : Tiles rest position read lexemes) {lexeme : Lexeme}
    (inside : lexeme ∈ lexemes) : lexeme.start < lexeme.stop := by
  rcases tiles.exists_piece inside with ⟨_, _, _, -, -, stop, writes⟩
  have positive := byteLength_pos writes
  omega

theorem Tiles.pairwise (tiles : Tiles rest position read lexemes) :
    lexemes.Pairwise fun first later => first.start < later.start ∧ first.stop ≤ later.start := by
  induction tiles with
  | nil => exact .nil
  | cons blank writes ends tiles ih =>
      refine .cons (fun later inside => ?_) ih
      have apart := tiles.le_start inside
      have positive := byteLength_pos writes
      dsimp only
      omega

theorem Tiles.mem_blankBytes (tiles : Tiles rest position read lexemes) (blankRest : Blank rest)
    {offset : Nat} {byte : UInt8} (found : (bytes (read ++ rest))[offset]? = some byte)
    (outside : ∀ lexeme ∈ lexemes,
      position + offset < lexeme.start ∨ lexeme.stop ≤ position + offset) :
    byte ∈ blankBytes := by
  induction tiles generalizing offset with
  | nil => exact blankRest.mem_bytes (List.mem_of_getElem? found)
  | @cons position blanks written later token lexemes blank writes ends tiles ih =>
      rw [List.append_assoc, List.append_assoc, Text.bytes_append, Text.bytes_append] at found
      have around := outside _ (List.mem_cons_self ..)
      dsimp only at around
      rcases Nat.lt_or_ge offset (byteLength blanks) with within | beyond
      · rw [List.getElem?_append_left (by simpa using within)] at found
        exact blank.mem_bytes (List.mem_of_getElem? found)
      · have behind : byteLength blanks + byteLength written ≤ offset := by omega
        rw [List.getElem?_append_right (by simpa using beyond), Text.length_bytes,
          List.getElem?_append_right (by rw [Text.length_bytes]; omega), Text.length_bytes] at found
        refine ih found fun lexeme inside => ?_
        have apart := outside lexeme (List.mem_cons_of_mem _ inside)
        have same : position + byteLength blanks + byteLength written +
            (offset - byteLength blanks - byteLength written) = position + offset := by omega
        rwa [same]

theorem scan_of_writes {token : Token} {written : List Char} (writes : Writes token written) :
    scan written = .ok [⟨token, 0, byteLength written⟩] := by
  have alone : Tiles [] 0 ([] ++ (written ++ [])) _ :=
    .cons nofun writes (endsBefore_nil token _) .nil
  have scanned := scan_of_tiles alone nofun
  simpa using scanned

/-- The spans of a text are pieces of it that are not empty, in order and apart; outside of them are
blanks alone; and each piece is again the token that was read from it, and no other. -/
theorem scan_tiles (scanned : scan text = .ok lexemes) :
    (∀ lexeme ∈ lexemes, ∃ before written behind, text = before ++ (written ++ behind) ∧
      lexeme.start = byteLength before ∧ lexeme.stop = byteLength (before ++ written) ∧
      lexeme.start < lexeme.stop ∧ lexeme.stop ≤ byteLength text ∧
      scan written = .ok [⟨lexeme.token, 0, byteLength written⟩]) ∧
    (lexemes.Pairwise fun first later => first.start < later.start ∧ first.stop ≤ later.start) ∧
    ∀ offset byte, (bytes text)[offset]? = some byte →
      (∀ lexeme ∈ lexemes, offset < lexeme.start ∨ lexeme.stop ≤ offset) →
      byte ∈ blankBytes := by
  rcases scan_eq_ok_iff.mp scanned with ⟨read, blanks, rfl, tiles, blank⟩
  refine ⟨fun lexeme inside => ?_, tiles.pairwise, fun offset byte found outside => ?_⟩
  · have filled := tiles.start_lt_stop inside
    rcases tiles.exists_piece inside with ⟨before, written, behind, rfl, start, stop, writes⟩
    refine ⟨before, written, behind ++ blanks, ?_, ?_, ?_, filled, ?_, scan_of_writes writes⟩
    · simp
    · omega
    · rw [Text.byteLength_append]
      omega
    · simp only [Text.byteLength_append]
      omega
  · have aside : ∀ lexeme ∈ lexemes, 0 + offset < lexeme.start ∨ lexeme.stop ≤ 0 + offset := by
      intro lexeme inside
      rw [Nat.zero_add]
      exact outside lexeme inside
    exact tiles.mem_blankBytes blank found aside

/-- Blanks between and behind tokens, and a name and a string of letters of two bytes. -/
theorem scan_tiles_accents :
    scan "$ .né['é'] ".toList = .ok [⟨.dollar, 0, 1⟩, ⟨.dot, 2, 3⟩, ⟨.identifier "né", 3, 6⟩,
        ⟨.leftBracket, 6, 7⟩, ⟨.string "é", 7, 11⟩, ⟨.rightBracket, 11, 12⟩] ∧
      ∀ offset byte, (bytes "$ .né['é'] ".toList)[offset]? = some byte →
        (∀ lexeme ∈ [(⟨.dollar, 0, 1⟩ : Lexeme), ⟨.dot, 2, 3⟩, ⟨.identifier "né", 3, 6⟩,
          ⟨.leftBracket, 6, 7⟩, ⟨.string "é", 7, 11⟩, ⟨.rightBracket, 11, 12⟩],
          offset < lexeme.start ∨ lexeme.stop ≤ offset) → byte ∈ blankBytes := by
  have scanned : scan "$ .né['é'] ".toList = .ok [⟨.dollar, 0, 1⟩, ⟨.dot, 2, 3⟩,
      ⟨.identifier "né", 3, 6⟩, ⟨.leftBracket, 6, 7⟩, ⟨.string "é", 7, 11⟩,
      ⟨.rightBracket, 11, 12⟩] := by
    decide +kernel
  exact ⟨scanned, (scan_tiles scanned).2.2⟩

end Lexeme

end TemplateFill
