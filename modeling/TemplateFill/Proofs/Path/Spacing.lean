import TemplateFill.Proofs.Path.Completion
import TemplateFill.Proofs.Path.Spans

/-!
Blanks between tokens.

Blanks can be put in wherever a token starts or stops: each token still ends where it ended, since a
blank goes on with no token, and what is put in joins the blanks that are skipped in front of the
next one. So the tokens stay, each moved by the bytes put in up to it, and the path that they stand
for or the reason why they are refused stays with them.
-/

namespace TemplateFill

open Text (byteLength)
open Lexer

variable {gap : Nat → List Char}

/-! ### Putting blanks in -/

/-- A text that starts at the offset, with the gap for its offset in front of each character. -/
def spread (gap : Nat → List Char) : Nat → List Char → List Char
  | _, [] => []
  | offset, c :: text => gap offset ++ c :: spread gap (offset + c.utf8Size) text

def spaced (gap : Nat → List Char) (text : List Char) : List Char :=
  spread gap 0 text ++ gap (byteLength text)

def added (gap : Nat → List Char) : Nat → Nat
  | 0 => 0
  | offset + 1 => added gap offset + byteLength (gap offset)

def shifted (gap : Nat → List Char) (offset : Nat) : Nat := offset + added gap (offset + 1)

def Lexeme.spaced (gap : Nat → List Char) (lexeme : Lexeme) : Lexeme :=
  { lexeme with
    start := shifted gap lexeme.start
    stop := lexeme.stop + added gap lexeme.stop }

example : spaced (fun offset => if offset = 2 then [' ', '\t'] else []) "$.a".toList =
    "$. \ta".toList := by
  decide +kernel

@[simp] theorem spread_nil (offset : Nat) : spread gap offset [] = [] := rfl

@[simp] theorem spread_cons (offset : Nat) (c : Char) (text : List Char) :
    spread gap offset (c :: text) = gap offset ++ c :: spread gap (offset + c.utf8Size) text :=
  rfl

theorem spread_append (offset : Nat) (first later : List Char) :
    spread gap offset (first ++ later) =
      spread gap offset first ++ spread gap (offset + byteLength first) later := by
  induction first generalizing offset with
  | nil => simp
  | cons c first ih => simp [ih, Nat.add_assoc]

theorem spread_of_empty {text : List Char} {offset : Nat}
    (empty : ∀ place, offset ≤ place → place < offset + byteLength text → gap place = []) :
    spread gap offset text = text := by
  induction text generalizing offset with
  | nil => rfl
  | cons c text ih =>
      have size := c.utf8Size_pos
      simp only [Text.byteLength_cons] at empty
      rw [spread_cons, empty offset (by omega) (by omega),
        ih fun place least below => empty place (by omega) (by omega)]
      rfl

theorem added_of_empty {offset : Nat} (width : Nat)
    (empty : ∀ place, offset ≤ place → place < offset + width → gap place = []) :
    added gap (offset + width) = added gap offset := by
  induction width with
  | zero => rfl
  | succ width ih =>
      rw [← Nat.add_assoc, added, empty (offset + width) (by omega) (by omega),
        ih fun place least below => empty place least (by omega)]
      rfl

theorem spread_token {written : List Char} (filled : written ≠ []) {start : Nat}
    (inside : ∀ place, start < place → place < start + byteLength written → gap place = []) :
    spread gap start written = gap start ++ written ∧
      added gap (start + byteLength written) = added gap (start + 1) := by
  cases written with
  | nil => exact absurd rfl filled
  | cons c others =>
      have size := c.utf8Size_pos
      have width : start + byteLength (c :: others) =
          start + 1 + (byteLength (c :: others) - 1) := by
        rw [Text.byteLength_cons]
        omega
      rw [Text.byteLength_cons] at inside
      constructor
      · have alone : spread gap (start + c.utf8Size) others = others :=
          spread_of_empty fun place least below => inside place (by omega) (by omega)
        rw [spread_cons, alone]
      · rw [width]
        refine added_of_empty _ fun place least below => inside place (by omega) ?_
        rw [← width, Text.byteLength_cons] at below
        omega

theorem blank_spread {text : List Char} (gaps : ∀ offset, Blank (gap offset)) (blank : Blank text)
    (offset : Nat) : Blank (spread gap offset text) := by
  induction text generalizing offset with
  | nil => exact nofun
  | cons c text ih =>
      have each := List.forall_mem_cons.mp blank
      exact (gaps offset).append (List.forall_mem_cons.mpr ⟨each.1, ih each.2 _⟩)

theorem byteLength_spread (gap : Nat → List Char) {blanks : List Char} (blank : Blank blanks)
    (offset : Nat) : byteLength (spread gap offset blanks) + added gap offset =
      byteLength blanks + added gap (offset + byteLength blanks) := by
  induction blanks generalizing offset with
  | nil => simp
  | cons c blanks ih =>
      have each := List.forall_mem_cons.mp blank
      have single : c.utf8Size = 1 := by
        rcases isSpace_iff.mp each.1 with rfl | rfl | rfl | rfl <;> rfl
      have later := ih each.2 (offset + 1)
      have next : added gap (offset + 1) = added gap offset + byteLength (gap offset) := rfl
      rw [next, Nat.add_assoc offset] at later
      simp only [spread_cons, Text.byteLength_append, Text.byteLength_cons, single]
      omega

/-- The first character of a spread text is a blank or the first character of the text. -/
theorem spread_eq_cons {text tail more : List Char} {c : Char} {offset : Nat}
    (gaps : ∀ offset, Blank (gap offset)) (blankTail : Blank tail)
    (same : spread gap offset text ++ tail = c :: more) :
    isSpace c = true ∨ ∃ others, text = c :: others ∧
      more = spread gap (offset + c.utf8Size) others ++ tail := by
  cases text with
  | nil =>
      have whole : tail = c :: more := same
      exact Or.inl (blankTail c (by simp [whole]))
  | cons first text =>
      rw [spread_cons] at same
      cases shape : gap offset with
      | nil =>
          rw [shape] at same
          cases same
          exact Or.inr ⟨text, rfl, rfl⟩
      | cons blank others =>
          rw [shape] at same
          cases same
          exact Or.inl (gaps offset _ (by simp [shape]))

theorem endsBefore_spread {token : Token} {written text tail : List Char}
    (gaps : ∀ offset, Blank (gap offset)) (blankTail : Blank tail)
    (ends : EndsBefore token written text) (offset : Nat) :
    EndsBefore token written (spread gap offset text ++ tail) := by
  constructor
  · intro c more same
    rcases spread_eq_cons gaps blankTail same with space | ⟨others, rfl, -⟩
    · exact parts_of_isSpace space token written
    · exact ends.next c others rfl
  · intro value integral c more same
    rcases spread_eq_cons gaps blankTail same with space | ⟨others, rfl, behind⟩
    · cases space
    · rcases spread_eq_cons gaps blankTail behind.symm with space | ⟨last, rfl, -⟩
      · exact (parts_of_isSpace space).isDigit
      · exact ends.point value integral c last rfl

/-! ### Tokens -/

namespace Lexeme

variable {position : Nat} {text read rest tail : List Char} {lexemes : List Lexeme}

/-- Tiles stay tiles, and their text grows by what is put in. -/
theorem tiles_spread (tiles : Tiles rest position read lexemes)
    (gaps : ∀ offset, Blank (gap offset)) (blankTail : Blank tail)
    (inside : ∀ lexeme ∈ lexemes, ∀ place, lexeme.start < place → place < lexeme.stop →
      gap place = []) :
    Tiles (spread gap (position + byteLength read) rest ++ tail) (position + added gap position)
        (spread gap position read) (lexemes.map (Lexeme.spaced gap)) ∧
      byteLength (spread gap position read) + added gap position =
        byteLength read + added gap (position + byteLength read) := by
  induction tiles with
  | nil => exact ⟨.nil, by simp⟩
  | @cons position blanks written later token lexemes blank writes ends tiles ih =>
      have filled : written ≠ [] := by
        rcases writes.exists_cons with ⟨first, others, rfl, -⟩
        simp
      rcases List.forall_mem_cons.mp inside with ⟨within, deeper⟩
      rcases spread_token filled within with ⟨alone, width⟩
      dsimp only at alone width
      rcases ih deeper with ⟨laterTiles, laterLength⟩
      have before := byteLength_spread gap blank position
      have front : Blank (spread gap position blanks ++ gap (position + byteLength blanks)) :=
        (blank_spread gaps blank position).append (gaps _)
      have start : position + added gap position +
          byteLength (spread gap position blanks ++ gap (position + byteLength blanks)) =
            shifted gap (position + byteLength blanks) := by
        rw [Text.byteLength_append, shifted, added]
        omega
      have stop : shifted gap (position + byteLength blanks) + byteLength written =
          position + byteLength blanks + byteLength written +
            added gap (position + byteLength blanks + byteLength written) := by
        rw [shifted, ← width]
        omega
      have whole : spread gap position (blanks ++ (written ++ later)) =
          spread gap position blanks ++ gap (position + byteLength blanks) ++
            (written ++ spread gap (position + byteLength blanks + byteLength written) later) := by
        rw [spread_append, spread_append, alone]
        simp
      have width' : position + byteLength (blanks ++ (written ++ later)) =
          position + byteLength blanks + byteLength written + byteLength later := by
        simp [Nat.add_assoc]
      have further := endsBefore_spread gaps blankTail ends
        (position + byteLength blanks + byteLength written)
      rw [spread_append, List.append_assoc] at further
      rw [← stop, ← start] at laterTiles
      have tiles' := Tiles.cons front writes further laterTiles
      rw [start, stop] at tiles'
      constructor
      · rw [whole, width']
        exact tiles'
      · rw [whole, width']
        rw [shifted, ← width] at start
        rw [Text.byteLength_append] at start ⊢
        simp only [Text.byteLength_append]
        omega

/-- No token starts or stops within another. -/
theorem Tiles.boundary_outside (tiles : Tiles rest position read lexemes) {lexeme other : Lexeme}
    (inside : lexeme ∈ lexemes) (otherInside : other ∈ lexemes) {place : Nat}
    (boundary : place = other.start ∨ place = other.stop) :
    ¬(lexeme.start < place ∧ place < lexeme.stop) := by
  induction tiles with
  | nil => cases inside
  | cons blank writes ends tiles ih =>
      rcases List.mem_cons.mp inside with rfl | deeper
      · rcases List.mem_cons.mp otherInside with rfl | otherDeeper
        · omega
        · have apart := tiles.le_start otherDeeper
          have filled := tiles.start_lt_stop otherDeeper
          dsimp only
          omega
      · rcases List.mem_cons.mp otherInside with rfl | otherDeeper
        · have apart := tiles.le_start deeper
          dsimp only at boundary
          omega
        · exact ih deeper otherDeeper

end Lexeme

/-- Blanks put in where tokens start or stop change neither the tokens nor what they stand for: the
tokens move by what is put in up to them, and so does the place of an error. -/
theorem Segment.parse_spaced {text : List Char} {lexemes : List Lexeme}
    (scanned : Lexeme.scan text = .ok lexemes) (gaps : ∀ offset, Blank (gap offset))
    (between : ∀ offset, gap offset ≠ [] →
      ∃ lexeme ∈ lexemes, offset = lexeme.start ∨ offset = lexeme.stop) :
    Lexeme.scan (spaced gap text) = .ok (lexemes.map (Lexeme.spaced gap)) ∧
      Segment.parse (String.ofList (spaced gap text)) =
        (Segment.parse (String.ofList text)).mapError
          (PathParser.movedError (shifted gap)) := by
  rcases Lexeme.scan_eq_ok_iff.mp scanned with ⟨read, blanks, rfl, tiles, blank⟩
  have inside : ∀ lexeme ∈ lexemes, ∀ place, lexeme.start < place → place < lexeme.stop →
      gap place = [] := by
    intro lexeme within place after before
    by_contra filled
    rcases between place filled with ⟨other, otherWithin, boundary⟩
    exact tiles.boundary_outside within otherWithin boundary ⟨after, before⟩
  rcases Lexeme.tiles_spread tiles gaps (gaps (byteLength (read ++ blanks))) inside with
    ⟨newTiles, newLength⟩
  have last : Blank (spread gap (byteLength read) blanks ++ gap (byteLength (read ++ blanks))) :=
    (blank_spread gaps blank _).append (gaps _)
  have whole : spaced gap (read ++ blanks) = spread gap 0 read ++
      (spread gap (byteLength read) blanks ++ gap (byteLength (read ++ blanks))) := by
    rw [spaced, spread_append, Nat.zero_add, List.append_assoc]
  have finish : byteLength (spaced gap (read ++ blanks)) =
      shifted gap (byteLength (read ++ blanks)) := by
    have behind := byteLength_spread gap blank (byteLength read)
    rw [whole, shifted, added]
    simp only [Text.byteLength_append, Nat.zero_add, added] at newLength behind ⊢
    omega
  have again : Lexeme.scan (spaced gap (read ++ blanks)) =
      .ok (lexemes.map (Lexeme.spaced gap)) := by
    rw [Nat.zero_add] at newTiles
    rw [whole]
    exact Lexeme.scan_of_tiles newTiles last
  refine ⟨again, ?_⟩
  have places (lexeme : Lexeme) :
      PathParser.Moved (shifted gap) lexeme (Lexeme.spaced gap lexeme) := ⟨rfl, rfl⟩
  unfold parse
  dsimp only
  rw [String.toList_ofList, String.toList_ofList, again, scanned, finish]
  exact PathParser.ofLexemes_moved places (byteLength (read ++ blanks)) lexemes

/-- Two spaces behind a dot and a tab in front of a bracket move the refusal of that bracket by
three bytes. -/
theorem Segment.parse_spaced_bracket :
    let gap (offset : Nat) : List Char :=
      if offset = 2 then [' ', ' '] else if offset = 4 then ['\t'] else []
    Lexeme.scan "$.é]".toList =
        .ok [⟨.dollar, 0, 1⟩, ⟨.dot, 1, 2⟩, ⟨.identifier "é", 2, 4⟩, ⟨.rightBracket, 4, 5⟩] ∧
      (∀ offset, Blank (gap offset)) ∧
      spaced gap "$.é]".toList = "$.  é\t]".toList ∧
      Segment.parse (String.ofList (spaced gap "$.é]".toList)) =
        .error (.unexpectedToken .rightBracket 7) := by
  intro gap
  have scanned : Lexeme.scan "$.é]".toList =
      .ok [⟨.dollar, 0, 1⟩, ⟨.dot, 1, 2⟩, ⟨.identifier "é", 2, 4⟩, ⟨.rightBracket, 4, 5⟩] := by
    decide +kernel
  have gaps : ∀ offset, Blank (gap offset) := by
    intro offset
    dsimp only [gap]
    split
    · exact List.all_eq_true.mp rfl
    · split <;> exact List.all_eq_true.mp rfl
  have between : ∀ offset, gap offset ≠ [] → ∃ lexeme ∈ [(⟨.dollar, 0, 1⟩ : Lexeme), ⟨.dot, 1, 2⟩,
      ⟨.identifier "é", 2, 4⟩, ⟨.rightBracket, 4, 5⟩],
        offset = lexeme.start ∨ offset = lexeme.stop := by
    intro offset filled
    dsimp only [gap] at filled
    split at filled
    · rename_i same
      exact ⟨⟨.dot, 1, 2⟩, by simp, Or.inr same⟩
    · split at filled
      · rename_i same
        exact ⟨⟨.rightBracket, 4, 5⟩, by simp, Or.inl same⟩
      · exact absurd rfl filled
  have refused : Segment.parse (String.ofList "$.é]".toList) =
      .error (.unexpectedToken .rightBracket 4) := by
    unfold Segment.parse
    dsimp only
    rw [String.toList_ofList, scanned]
    rfl
  have place : shifted gap 4 = 7 := by decide +kernel
  refine ⟨scanned, gaps, by decide +kernel, ?_⟩
  rw [(Segment.parse_spaced scanned gaps between).2, refused, ← place]
  rfl

end TemplateFill
