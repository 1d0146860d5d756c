import Mathlib.Data.List.Chain
import Mathlib.Logic.Function.Iterate
import TemplateFill.Proofs.Path.Spans

/-!
Where the cursor stands after any number of calls.

A call leaves the cursor in front of a character, whether it reads a token, finds the end or fails,
but for one way to fail: behind a backslash that starts no escape two bytes are skipped, and a
character of more than one byte is cut in two. As long as no call does so, offsets move forward from
character to character.
-/

namespace TemplateFill

open Text (byteLength)

/-! ### Offsets in front of characters -/

namespace Text

theorem utf8ByteSize_ofList (text : List Char) :
    (String.ofList text).utf8ByteSize = byteLength text := by
  induction text with
  | nil => rfl
  | cons c text ih =>
      rw [String.ofList_cons, String.utf8ByteSize_append, String.utf8ByteSize_singleton, ih,
        byteLength_cons]

theorem isValid_iff {text : String} {offset : Nat} :
    (⟨offset⟩ : String.Pos.Raw).IsValid text ↔
      ∃ front back, text.toList = front ++ back ∧ offset = byteLength front := by
  rw [String.Pos.Raw.isValid_iff_exists_append]
  constructor
  · rintro ⟨front, back, rfl, same⟩
    refine ⟨front.toList, back.toList, String.toList_append, ?_⟩
    rw [← utf8ByteSize_ofList, String.ofList_toList]
    exact congrArg String.Pos.Raw.byteIdx same
  · rintro ⟨front, back, split, rfl⟩
    refine ⟨String.ofList front, String.ofList back, ?_, ?_⟩
    · rw [← String.ofList_append, ← split, String.ofList_toList]
    · exact String.Pos.Raw.ext (utf8ByteSize_ofList front).symm

/-- No valid position is one byte behind the start of a longer character. -/
theorem not_isValid_within {text : String} {front behind : List Char} {c : Char}
    (split : text.toList = front ++ c :: behind) (wide : 1 < c.utf8Size) :
    ¬(⟨byteLength front + 1⟩ : String.Pos.Raw).IsValid text := by
  intro valid
  rcases isValid_iff.mp valid with ⟨other, back, same, length⟩
  rw [split] at same
  rcases List.append_eq_append_iff.mp same with ⟨more, rfl, rest⟩ | ⟨more, rfl, rest⟩
  · cases more with
    | nil => simp at length
    | cons first more =>
        obtain ⟨rfl, -⟩ := List.cons.inj rest
        simp at length
        omega
  · simp at length
    omega

end Text

/-! ### One token -/

namespace Lexer

/-- A literal stands at the start of the text that has a backslash in front of a character of more
than one byte, and no bad escape before that. -/
def Cuts (text : List Char) : Prop :=
  ∃ quote body meant c behind, text = quote :: (body ++ '\\' :: c :: behind) ∧
    (quote = '\'' ∨ quote = '"') ∧ Decodes ReadEscape quote body meant ∧ 1 < c.utf8Size

def StopsBehind (position : Nat) (text : List Char) (cursor : Cursor) : Prop :=
  ∃ taken, text = taken ++ cursor.rest ∧ cursor.position = position + byteLength taken

def StopsWithin (position : Nat) (text : List Char) (cursor : Cursor) : Prop :=
  ∃ taken c behind, text = taken ++ c :: behind ∧ 1 < c.utf8Size ∧
    cursor.position = position + byteLength taken + 1

def stopOf : Except Halt (Token × Cursor) → Cursor
  | .ok (_, after) => after
  | .error halt => halt.cursor

variable {position : Nat} {text : List Char} {halt : Halt}

theorem ReadEscape.exists_head {written : List Char} {meant : Char}
    (escape : ReadEscape written meant) :
    ∃ first more, written = first :: more ∧ first.utf8Size = 1 := by
  cases escape with
  | proper escape =>
      cases escape with
      | letter listed => exact ⟨_, _, rfl, utf8Size_of_mem listed⟩
      | code _ _ => exact ⟨_, _, rfl, rfl⟩
  | signed _ => exact ⟨_, _, rfl, rfl⟩

/-- A token is refused where it would start, or in a string, or as a number out of range. -/
theorem readToken_error_cases (failed : readToken position text = .error halt) :
    halt.cursor = ⟨position, text⟩ ∨
      (∃ quote rest, text = quote :: rest ∧ (quote = '\'' ∨ quote = '"')) ∨
      ∃ c rest, text = c :: rest ∧ (c.isDigit = true ∨ c = '-' ∧ rest.head?.any Char.isDigit) ∧
        readNumber position text = .error halt := by
  unfold readToken at failed
  split at failed
  case h_21 c rest _ _ _ _ _ _ _ _ _ _ _ _ _ _ _ _ _ _ _ _ =>
    dsimp only at failed
    by_cases isQuote : c = '\'' ∨ c = '"'
    · exact Or.inr (Or.inl ⟨c, rest, rfl, isQuote⟩)
    rw [if_neg (by simpa using isQuote)] at failed
    by_cases number : c.isDigit = true ∨ c = '-' ∧ rest.head?.any Char.isDigit
    · rw [if_pos (by simpa using number)] at failed
      exact Or.inr (Or.inr ⟨c, rest, rfl, number, failed⟩)
    rw [if_neg (by simpa using number)] at failed
    split at failed
    · cases failed
    · cases failed
      exact Or.inl rfl
  case h_22 =>
    cases failed
    exact Or.inl rfl
  all_goals cases failed

theorem stopsBehind_number {c : Char} {rest : List Char}
    (number : c.isDigit = true ∨ c = '-' ∧ rest.head?.any Char.isDigit)
    (failed : readNumber position (c :: rest) = .error halt) :
    StopsBehind position (c :: rest) halt.cursor := by
  rcases exists_signed number with ⟨negative, digits, behind, same, filled, each, stops⟩
  rw [same] at failed ⊢
  rw [readNumber_signed filled each stops] at failed
  have ascii : byteLength (signed negative digits) = (signed negative digits).length :=
    byteLength_signed fun c inside => ascii_of_isDigit (each c inside)
  split at failed
  · split at failed
    · cases failed
    · cases failed
      exact ⟨signed negative digits, rfl, by rw [ascii]⟩
  · cases failed

/-- A string that is refused ends behind what was read of it, unless a character is cut. -/
theorem stopsBehind_quote {quote : Char} {rest : List Char} (isQuote : quote = '\'' ∨ quote = '"')
    (whole : ¬Cuts (quote :: rest)) (failed : readToken position (quote :: rest) = .error halt) :
    StopsBehind position (quote :: rest) halt.cursor := by
  have single := utf8Size_of_isQuote isQuote
  rcases exists_row quote rest with ⟨body, meant, tail, rfl, row, ends⟩
  rw [readToken_quote isQuote, readString_append row] at failed
  cases ends with
  | closed behind =>
      rw [readString_closed (ne_backslash_of_isQuote isQuote)] at failed
      cases failed
  | @bad behind filled noEscape =>
      rw [readString_bad filled noEscape] at failed
      cases failed
      rcases List.exists_cons_of_ne_nil filled with ⟨c, behind, rfl⟩
      have narrow : c.utf8Size = 1 := by
        have wide : ¬1 < c.utf8Size := fun wide =>
          whole ⟨quote, body, meant, c, behind, rfl, isQuote, row, wide⟩
        have positive := c.utf8Size_pos
        omega
      refine ⟨quote :: (body ++ ['\\', c]), by simp [badEscape], ?_⟩
      have mark : '\\'.utf8Size = 1 := rfl
      simp [badEscape, single, narrow, mark]
      omega
  | cut =>
      rw [readString] at failed
      cases failed
      exact ⟨quote :: body, rfl, by simp [single, Nat.add_assoc]⟩
  | done =>
      rw [readString] at failed
      cases failed
      exact ⟨quote :: body, by simp, by simp [single, Nat.add_assoc]⟩

theorem stopsBehind_readToken (filled : text ≠ []) (whole : ¬Cuts text) (position : Nat) :
    StopsBehind position text (stopOf (readToken position text)) := by
  cases read : readToken position text with
  | ok result =>
      rcases (readToken_eq_ok_iff filled).mp read with ⟨written, rest, rfl, -, -, after⟩
      exact ⟨written, by rw [stopOf, after], by rw [stopOf, after]⟩
  | error halt =>
      rcases readToken_error_cases read with
        same | ⟨quote, rest, rfl, isQuote⟩ | ⟨c, rest, rfl, number, failed⟩
      · exact ⟨[], by rw [stopOf, same]; rfl, by rw [stopOf, same]; rfl⟩
      · exact stopsBehind_quote isQuote whole read
      · exact stopsBehind_number number failed

/-- A literal with such a backslash is refused, within the character behind the backslash. -/
theorem Cuts.stopsWithin (cuts : Cuts text) (position : Nat) :
    StopsWithin position text (stopOf (readToken position text)) := by
  rcases cuts with ⟨quote, body, meant, c, behind, rfl, isQuote, row, wide⟩
  have noEscape : NoEscape (c :: behind) := by
    intro written meant more escape same
    rcases escape.exists_head with ⟨first, others, rfl, narrow⟩
    obtain ⟨rfl, -⟩ := List.cons.inj same
    omega
  have single := utf8Size_of_isQuote isQuote
  have mark : '\\'.utf8Size = 1 := rfl
  rw [readToken_quote isQuote, readString_append row,
    readString_bad (List.cons_ne_nil c behind) noEscape]
  refine ⟨quote :: (body ++ ['\\']), c, behind, by simp, wide, ?_⟩
  simp [Except.map, stopOf, badEscape, single, mark]
  omega

end Lexer

/-! ### Calls -/

namespace Cursor

open Lexer (Cuts StopsBehind StopsWithin)

/-- The cursor on a text after a number of calls, whatever they answered. -/
def afterCalls (text : String) (calls : Nat) : Cursor :=
  (fun cursor => cursor.next.2)^[calls] (start text.toList)

theorem afterCalls_succ (text : String) (calls : Nat) :
    afterCalls text (calls + 1) = (afterCalls text calls).next.2 :=
  Function.iterate_succ_apply' ..

def CutsNext (cursor : Cursor) : Prop := Cuts cursor.skipSpace.rest

theorem stopsBehind_trans {position : Nat} {text : List Char} {first later : Cursor}
    (before : StopsBehind position text first)
    (behind : StopsBehind first.position first.rest later) : StopsBehind position text later := by
  rcases before with ⟨taken, rfl, start⟩
  rcases behind with ⟨more, split, stop⟩
  refine ⟨taken ++ more, by rw [split, List.append_assoc], ?_⟩
  rw [stop, start, Text.byteLength_append, Nat.add_assoc]

theorem stopsBehind_skipSpace (cursor : Cursor) :
    StopsBehind cursor.position cursor.rest cursor.skipSpace := by
  refine ⟨cursor.rest.takeWhile Lexer.isSpace, List.takeWhile_append_dropWhile.symm, ?_⟩
  rw [Lexer.Blank.byteLength fun c inside => List.mem_takeWhile_imp inside]
  rfl

theorem next_of_filled {cursor : Cursor} (filled : cursor.skipSpace.rest ≠ []) :
    cursor.next.2 =
      Lexer.stopOf (Lexer.readToken cursor.skipSpace.position cursor.skipSpace.rest) := by
  rw [next, if_neg (by simpa using filled)]
  cases Lexer.readToken cursor.skipSpace.position cursor.skipSpace.rest <;> rfl

theorem stopsBehind_next {cursor : Cursor} (whole : ¬cursor.CutsNext) :
    StopsBehind cursor.position cursor.rest cursor.next.2 := by
  by_cases filled : cursor.skipSpace.rest = []
  · have same : cursor.next.2 = cursor.skipSpace := by
      rw [next, if_pos (by simpa using filled)]
    rw [same]
    exact stopsBehind_skipSpace cursor
  · rw [next_of_filled filled]
    exact stopsBehind_trans (stopsBehind_skipSpace cursor)
      (Lexer.stopsBehind_readToken filled whole _)

theorem CutsNext.stopsWithin {cursor : Cursor} (cuts : cursor.CutsNext) :
    StopsWithin cursor.position cursor.rest cursor.next.2 := by
  have filled : cursor.skipSpace.rest ≠ [] := by
    rcases cuts with ⟨quote, body, meant, c, behind, same, -⟩
    simp [same]
  rw [next_of_filled filled]
  rcases stopsBehind_skipSpace cursor with ⟨blanks, split, start⟩
  rcases Lexer.Cuts.stopsWithin cuts cursor.skipSpace.position with
    ⟨taken, c, behind, same, wide, stop⟩
  refine ⟨blanks ++ taken, c, behind, ?_, wide, ?_⟩
  · rw [split, same, List.append_assoc]
  · rw [stop, start, Text.byteLength_append]
    omega

variable {text : String} {calls : Nat}

theorem stopsBehind_afterCalls (whole : ∀ earlier < calls, ¬(afterCalls text earlier).CutsNext)
    {first : Nat} (le : first ≤ calls) :
    StopsBehind (afterCalls text first).position (afterCalls text first).rest
      (afterCalls text calls) := by
  induction calls, le using Nat.le_induction with
  | base => exact ⟨[], rfl, rfl⟩
  | succ calls le ih =>
      rw [afterCalls_succ]
      exact stopsBehind_trans (ih fun earlier before => whole earlier (Nat.lt_succ_of_lt before))
        (stopsBehind_next (whole calls (Nat.lt_succ_self calls)))

theorem stopsBehind_start (whole : ∀ earlier < calls, ¬(afterCalls text earlier).CutsNext) :
    StopsBehind 0 text.toList (afterCalls text calls) :=
  stopsBehind_afterCalls whole (Nat.zero_le calls)

def Narrow (text : List Char) : Prop :=
  text.IsChain fun c next => c = '\\' → next.utf8Size = 1

instance (text : List Char) : Decidable (Narrow text) :=
  inferInstanceAs (Decidable (text.IsChain _))

theorem not_cutsNext_of_narrow (narrow : Narrow text.toList) (calls : Nat) :
    ¬(afterCalls text calls).CutsNext := by
  induction calls using Nat.strong_induction_on with
  | h calls ih =>
      intro cuts
      rcases stopsBehind_start ih with ⟨taken, split, -⟩
      rcases stopsBehind_skipSpace (afterCalls text calls) with ⟨blanks, skipped, -⟩
      rcases cuts with ⟨quote, body, meant, c, behind, same, -, -, wide⟩
      have whole : text.toList = (taken ++ blanks ++ quote :: body) ++ '\\' :: c :: behind := by
        rw [split, skipped, same]
        simp
      rw [Narrow, whole] at narrow
      have pair := (List.isChain_cons_cons.mp narrow.right_of_append).1 rfl
      omega

/-- As long as no call cuts a character, the offset is a valid position that no call moved back. -/
theorem isValid_afterCalls (whole : ∀ earlier < calls, ¬(afterCalls text earlier).CutsNext) :
    (⟨(afterCalls text calls).position⟩ : String.Pos.Raw).IsValid text ∧
      (afterCalls text calls).position ≤ text.utf8ByteSize ∧
      ∀ earlier ≤ calls, (afterCalls text earlier).position ≤ (afterCalls text calls).position := by
  have valid : (⟨(afterCalls text calls).position⟩ : String.Pos.Raw).IsValid text := by
    rcases stopsBehind_start whole with ⟨taken, split, stop⟩
    exact Text.isValid_iff.mpr ⟨taken, _, split, by omega⟩
  refine ⟨valid, valid.le_rawEndPos, fun earlier le => ?_⟩
  rcases stopsBehind_afterCalls whole le with ⟨taken, -, stop⟩
  omega

/-- The first call that cuts a character moves the offset forward, into that character. -/
theorem not_isValid_of_cutsNext
    (whole : ∀ earlier < calls, ¬(afterCalls text earlier).CutsNext)
    (cuts : (afterCalls text calls).CutsNext) :
    ¬(⟨(afterCalls text (calls + 1)).position⟩ : String.Pos.Raw).IsValid text ∧
      (afterCalls text calls).position < (afterCalls text (calls + 1)).position ∧
      (afterCalls text (calls + 1)).position < text.utf8ByteSize := by
  rcases stopsBehind_start whole with ⟨taken, split, start⟩
  rcases cuts.stopsWithin with ⟨more, c, behind, same, wide, stop⟩
  rw [← afterCalls_succ] at stop
  have whole : text.toList = (taken ++ more) ++ c :: behind := by
    rw [split, same, List.append_assoc]
  have offset : (afterCalls text (calls + 1)).position = byteLength (taken ++ more) + 1 := by
    rw [stop, start, Text.byteLength_append]
    omega
  refine ⟨?_, by omega, ?_⟩
  · rw [offset]
    exact Text.not_isValid_within whole wide
  · rw [offset, ← String.ofList_toList (s := text), Text.utf8ByteSize_ofList, whole]
    simp
    omega

/-- As long as no call cuts a character, every call leaves the cursor at a valid position of the
text, no lower than before, also behind errors. The first call that does cut one leaves it within
that character. So all offsets are valid if and only if no call meets a backslash that stands in a
string in front of a character of more than one byte. -/
theorem offsets (text : String) :
    (∀ calls, (∀ earlier < calls, ¬(afterCalls text earlier).CutsNext) →
      (⟨(afterCalls text calls).position⟩ : String.Pos.Raw).IsValid text ∧
      (afterCalls text calls).position ≤ text.utf8ByteSize ∧
      ∀ earlier ≤ calls, (afterCalls text earlier).position ≤ (afterCalls text calls).position) ∧
    (∀ calls, (∀ earlier < calls, ¬(afterCalls text earlier).CutsNext) →
      (afterCalls text calls).CutsNext →
        ¬(⟨(afterCalls text (calls + 1)).position⟩ : String.Pos.Raw).IsValid text ∧
        (afterCalls text calls).position < (afterCalls text (calls + 1)).position ∧
        (afterCalls text (calls + 1)).position < text.utf8ByteSize) ∧
    ((∀ calls, (⟨(afterCalls text calls).position⟩ : String.Pos.Raw).IsValid text) ↔
      ∀ calls, ¬(afterCalls text calls).CutsNext) := by
  refine ⟨fun _ => isValid_afterCalls, fun _ => not_isValid_of_cutsNext, fun valid calls => ?_,
    fun whole calls => (isValid_afterCalls fun earlier _ => whole earlier).1⟩
  induction calls using Nat.strong_induction_on with
  | h calls ih =>
      intro cuts
      exact (not_isValid_of_cutsNext ih cuts).1 (valid (calls + 1))

/-- Calls on a text with letters of two bytes meet a bad escape, a name, a string that is not closed,
and the end of the text. -/
theorem offsets_accents :
    (List.range 5).map (fun calls => (afterCalls "'é\\q é 'é" calls).position) = [0, 5, 8, 12, 12] ∧
      ∀ calls, (⟨(afterCalls "'é\\q é 'é" calls).position⟩ : String.Pos.Raw).IsValid "'é\\q é 'é" :=
  ⟨by decide +kernel,
    (offsets "'é\\q é 'é").2.2.mpr (not_cutsNext_of_narrow (by decide +kernel))⟩

/-- A backslash in front of a letter of two bytes, which the first call cuts. -/
theorem offsets_cut :
    (afterCalls "'\\é'" 1).position = 3 ∧
      ¬(⟨(afterCalls "'\\é'" 1).position⟩ : String.Pos.Raw).IsValid "'\\é'" := by
  decide +kernel

end Cursor

end TemplateFill
