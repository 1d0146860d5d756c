import TemplateFill.Proofs.Path.PlainPath

/-!
Paths with a step in brackets behind them.

A bracket ends every token before it, so a text that can be split into tokens is split in the same
way with a bracket behind it. A text that is read as a path and a step in brackets are then read as
one path, whatever blanks, quotes and escapes the text holds.
-/

namespace TemplateFill

/-! ### Tokens before a bracket -/

namespace Lexer

variable {token : Token} {after : Cursor} {position : Nat} {text written rest more : List Char}

theorem EndsBefore.append_bracket (ends : EndsBefore token written rest) :
    EndsBefore token written (rest ++ '[' :: more) := by
  have bracket : Parts '[' := parts_of_continuesName (by decide) (by decide)
  rw [← List.append_nil rest] at ends
  refine ends.part fun c later same => ?_
  cases same
  exact bracket

/-- Whatever token a text starts with, it starts with that token if a bracket follows the text. -/
theorem readToken_append (done : readToken position text = .ok (token, after)) :
    after.rest.length < text.length ∧ ∀ start, ∃ stop,
      readToken start (text ++ '[' :: more) = .ok (token, ⟨stop, after.rest ++ '[' :: more⟩) := by
  have filled : text ≠ [] := by
    rintro rfl
    cases done
  rcases (readToken_eq_ok_iff filled).mp done with ⟨written, rest, rfl, writes, ends, rfl⟩
  constructor
  · rcases writes.exists_cons with ⟨first, others, rfl, -⟩
    dsimp only
    rw [List.length_append, List.length_cons]
    omega
  · intro start
    rw [List.append_assoc]
    exact ⟨_, readToken_of_writes writes ends.append_bracket start⟩

end Lexer

/-! ### Texts before a bracket -/

theorem Reads.skip {token : Token} {blanks text rest : List Char}
    (reads : Reads token text rest) (each : ∀ c ∈ blanks, Lexer.isSpace c = true) :
    Reads token (blanks ++ text) rest := by
  obtain ⟨shorter, reading⟩ := reads
  refine ⟨by rw [List.length_append]; omega, fun position => ?_⟩
  have same : (Cursor.mk position (blanks ++ text)).skipSpace =
      (Cursor.mk (position + blanks.length) text).skipSpace := by
    simp only [Cursor.skipSpace, List.takeWhile_append_of_pos each,
      List.dropWhile_append_of_pos each, List.length_append, Nat.add_assoc]
  have again := reading (position + blanks.length)
  rw [Cursor.next] at again ⊢
  rwa [same]

theorem Scans.append {later : List Token} {more : List Char}
    (behind : Scans later ('[' :: more)) :
    ∀ (steps position : Nat) (text : List Char), text.length < steps →
      (Lexeme.runFrom steps ⟨position, text⟩).error? = none →
      Scans ((Lexeme.runFrom steps ⟨position, text⟩).lexemes.map Lexeme.token ++ later)
        (text ++ '[' :: more) := by
  intro steps
  -- the bracket goes on with no token, so every reading stops where it stopped without it
  induction steps with
  | zero => exact fun _ _ none => absurd none (Nat.not_lt_zero _)
  | succ steps ih =>
      intro position text enough fine
      have stops : ∀ c ∈ text.takeWhile Lexer.isSpace, Lexer.isSpace c = true := fun c inside =>
        List.mem_takeWhile_imp inside
      have split := List.takeWhile_append_dropWhile (p := Lexer.isSpace) (l := text)
      have shorter := (List.dropWhile_suffix (l := text) Lexer.isSpace).length_le
      have visible := List.head?_dropWhile_not Lexer.isSpace text
      rw [Lexeme.runFrom] at fine ⊢
      rw [Cursor.next, Cursor.skipSpace] at fine ⊢
      dsimp only at fine ⊢
      generalize text.dropWhile Lexer.isSpace = solid at *
      generalize position + (text.takeWhile Lexer.isSpace).length = here at *
      rw [← split, List.append_assoc]
      cases solid with
      | nil =>
          cases behind with
          | next reads scans => exact .next (reads.skip stops) scans
      | cons first rest =>
          cases read : Lexer.readToken here (first :: rest) with
          | error halt => simp [read] at fine
          | ok result =>
              obtain ⟨token, after⟩ := result
              simp [read] at fine ⊢
              obtain ⟨less, further⟩ := @Lexer.readToken_append _ _ _ _ more read
              have reads : Reads token (first :: rest ++ '[' :: more)
                  (after.rest ++ '[' :: more) := by
                refine .of_readToken visible ?_ further
                change (after.rest ++ '[' :: more).length ≤ (rest ++ '[' :: more).length
                simp only [List.length_append, List.length_cons] at less ⊢
                omega
              exact .next (reads.skip stops) (ih after.position after.rest (by omega) fine)

theorem Grammar.AreSegments.append {first second : List Token} {before after : List Segment}
    (path : AreSegments first before) (behind : AreSegments second after) :
    AreSegments (first ++ second) (before ++ after) := by
  induction before generalizing first with
  | nil =>
      cases path
      exact behind
  | cons segment before ih =>
      cases path with
      | cons head tail =>
          rw [List.append_assoc]
          exact .cons head (ih tail)

theorem Grammar.IsPath.append {first second : List Token} {before after : List Segment}
    (path : IsPath first before) (behind : AreSegments second after) :
    IsPath (first ++ second) (before ++ after) := by
  cases path with
  | root path => exact .root (path.append behind)
  | name named path => exact .name named (path.append behind)
  | bracket path => exact .bracket (path.append behind)

open Grammar in
/-- A text that is read as a path is read as that path and a step if the step follows in brackets.
-/
theorem Segment.parse_append {list : String} {segments : List Segment}
    (read : Segment.parse list = .ok segments) {step : Step} (plain : step.Plain)
    (bracketed : ∃ more, step.text = '[' :: more) :
    Segment.parse (String.ofList (list.toList ++ step.text)) =
      .ok (segments ++ [step.segment]) := by
  obtain ⟨more, split⟩ := bracketed
  have behind : Scans (step.tokens ++ []) (step.text ++ []) := step.scans plain trivial .done
  rw [List.append_nil, List.append_nil, split] at behind
  unfold Segment.parse at read
  dsimp only at read
  obtain ⟨lexemes, scanned, parsed⟩ := bind_eq_ok.mp read
  unfold Lexeme.scan Lexeme.run Cursor.start at scanned
  cases fine : (Lexeme.runFrom (list.toList.length + 1) ⟨0, list.toList⟩).error? with
  | some error => simp [fine] at scanned
  | none =>
      rw [fine] at scanned
      cases scanned
      have whole := Scans.append behind _ 0 list.toList (Nat.lt_succ_self _) fine
      have single : AreSegments (step.tokens ++ []) [step.segment] := .cons step.isSegment .nil
      rw [List.append_nil] at single
      rw [split]
      refine Scans.parse (by rwa [String.toList_ofList]) ?_
      exact (PathParser.isPath_of_ofLexemes parsed).append single

end TemplateFill
