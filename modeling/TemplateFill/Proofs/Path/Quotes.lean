import TemplateFill.Path.Printer
import TemplateFill.Proofs.Document.Location
import TemplateFill.Proofs.Path.Extension

/-!
Strings between single quotes.

A string is printed with a backslash before each quote in it, and a backslash in it stands as it is.
Without a backslash the string is read back. With one, the reader takes the backslash for the start
of an escape: from there on it is behind with what it answers, never catches up, and so answers with
another string if with any.
-/

namespace TemplateFill

def markQuote (c : Char) : List Char := if c = '\'' then ['\\', '\''] else [c]

theorem singleQuoted_append (text : String) (rest : List Char) :
    singleQuoted text ++ rest = '\'' :: (text.toList.flatMap markQuote ++ '\'' :: rest) := by
  rw [singleQuoted, Text.replaceAll_singleton]
  simp [← markQuote.eq_def]

theorem reads_singleQuoted {text : String} (plain : '\\' ∉ text.toList) (rest : List Char) :
    Reads (.string text) (singleQuoted text ++ rest) rest := by
  have same : text.toList.flatMap markQuote = text.toList.flatMap Document.escape := by
    refine List.flatMap_congr fun c inside => ?_
    have noBackslash : c ≠ '\\' := fun backslash => plain (backslash ▸ inside)
    rw [Document.escape, if_neg noBackslash, markQuote]
  rw [singleQuoted_append, same]
  exact Document.reads_escape text rest

namespace Lexer

/-! ### Escapes -/

/-- The characters of an escape are neither quotes nor backslashes. -/
theorem ne_of_unicodeEscape? {digits : List Char} {meant : Char}
    (escape : unicodeEscape? digits = some meant) : ∀ c ∈ digits, c ≠ '\'' ∧ c ≠ '\\' := by
  have plain : ∀ c, c = '+' ∨ (Text.hexDigit? c).isSome = true → c ≠ '\'' ∧ c ≠ '\\' := by
    intro c known
    constructor <;> rintro rfl <;> exact absurd known (by decide)
  obtain ⟨code, number, -⟩ := Option.bind_eq_some_iff.mp escape
  intro c inside
  apply plain
  split at number
  · rcases List.mem_cons.mp inside with sign | unsigned
    · exact Or.inl sign
    · exact Or.inr (Text.isSome_hexDigit?_of_foldlM number c unsigned)
  · exact Or.inr (Text.isSome_hexDigit?_of_foldlM number c inside)

theorem prefix_of_readString {quote : Char} {opening position : Nat} {read text : List Char}
    {meant : String} {after : Cursor}
    (done : readString quote opening position read text = .ok (meant, after)) :
    read.reverse <+: meant.toList := by
  fun_induction readString quote opening position read text with
  | case1 => cases done
  | case2 => cases done
  | case3 position read a b c d rest found escaped ih =>
      exact (List.prefix_append _ [_]).trans (List.reverse_cons ▸ ih done)
  | case4 => cases done
  | case5 position read letter rest notLong found escaped ih =>
      exact (List.prefix_append _ [_]).trans (List.reverse_cons ▸ ih done)
  | case6 => cases done
  | case7 position read rest atEnd _ escapes =>
      cases done
      exact List.prefix_iff_eq_take.mpr (by rw [String.toList_ofList, List.take_length])
  | case8 position read c rest atEnd _ escapes different ih =>
      exact (List.prefix_append _ [_]).trans (List.reverse_cons ▸ ih done)

/-! ### Behind a backslash -/

/-- Reading characters between quotes does not answer with them and further ones before them. -/
def Unlike (lag chars : List Char) : Prop :=
  ∀ ⦃opening position : Nat⦄ ⦃read rest : List Char⦄ ⦃meant : String⦄ ⦃after : Cursor⦄,
    readString '\'' opening position read (chars.flatMap markQuote ++ '\'' :: rest) =
        .ok (meant, after) → meant.toList ≠ read.reverse ++ (lag ++ chars)

theorem Unlike.step {lag written chars : List Char} {c : Char} (some : written ≠ [])
    (later : ∀ more, lag ++ written = c :: more → Unlike more chars)
    {opening position : Nat} {read rest : List Char} {meant : String} {after : Cursor}
    (done : readString '\'' opening position (c :: read)
      (chars.flatMap markQuote ++ '\'' :: rest) = .ok (meant, after)) :
    meant.toList ≠ read.reverse ++ (lag ++ (written ++ chars)) := by
  intro same
  have start := prefix_of_readString done
  rw [same, List.reverse_cons, List.prefix_append_right_inj, ← List.append_assoc] at start
  cases ahead : lag ++ written with
  | nil => exact some (List.append_eq_nil_iff.mp ahead).2
  | cons first more =>
      rw [ahead, List.cons_append, List.singleton_prefix_cons_iff] at start
      subst start
      apply later more ahead done
      rw [same, ← List.append_assoc lag, ahead, List.reverse_cons]
      simp

theorem exists_cons_of_flatMap_markQuote {chars rest more : List Char} {c : Char}
    (split : chars.flatMap markQuote ++ '\'' :: rest = c :: more) (plain : c ≠ '\'' ∧ c ≠ '\\') :
    ∃ others, chars = c :: others ∧ more = others.flatMap markQuote ++ '\'' :: rest := by
  cases chars with
  | nil =>
      cases split
      exact absurd rfl plain.1
  | cons first others =>
      rw [List.flatMap_cons, markQuote] at split
      by_cases quote : first = '\''
      · rw [if_pos quote] at split
        cases split
        exact absurd rfl plain.2
      · rw [if_neg quote] at split
        cases split
        exact ⟨others, rfl, rfl⟩

theorem lag_of_append {lag written more : List Char} {c : Char} (noQuote : '\'' ∉ lag)
    (plain : '\'' ∉ written) (ahead : lag ++ written = c :: more) : '\'' ∉ more := by
  have neither : '\'' ∉ lag ++ written := by
    rw [List.mem_append, not_or]
    exact ⟨noQuote, plain⟩
  rw [ahead] at neither
  exact fun inside => neither (List.mem_cons_of_mem _ inside)

theorem lag_ne_nil {lag written more : List Char} {c : Char} (several : 1 < written.length)
    (ahead : lag ++ written = c :: more) : more ≠ [] := by
  rintro rfl
  have length := congrArg List.length ahead
  rw [List.length_append, List.length_singleton] at length
  omega

theorem unlike_last_backslash {lag : List Char} (noQuote : '\'' ∉ lag) : Unlike lag ['\\'] := by
  intro opening position read rest meant after done
  change readString '\'' opening (position + 2) ('\'' :: read) rest = _ at done
  intro same
  have start := prefix_of_readString done
  rw [same, List.reverse_cons, List.prefix_append_right_inj] at start
  cases lag with
  | nil => exact absurd (List.cons_prefix_cons.mp start).1 (by decide)
  | cons first lag =>
      obtain rfl := (List.cons_prefix_cons.mp start).1
      exact noQuote (List.mem_cons_self ..)

theorem unlike_backslash_quote (lag chars : List Char) : Unlike lag ('\\' :: '\'' :: chars) := by
  intro opening position read rest meant after done
  change readString '\'' opening (position + 2) ('\\' :: read)
    ('\'' :: (chars.flatMap markQuote ++ '\'' :: rest)) = _ at done
  rw [readString_cons (by decide), if_pos rfl] at done
  cases done
  intro same
  rw [String.toList_ofList, List.reverse_cons, List.append_right_inj] at same
  have length := congrArg List.length same
  simp at length
  omega

/-- An escape puts the reader behind: it answers with one character for two or more. -/
theorem unlike_escape {lag chars : List Char} {letter : Char} (noQuote : '\'' ∉ lag)
    (quote : letter ≠ '\'')
    (later : ∀ others : List Char, others.length ≤ chars.length →
      ∀ more, '\'' ∉ more → more ≠ [] → Unlike more others) :
    Unlike lag ('\\' :: letter :: chars) := by
  intro opening position read rest meant after done
  have alone : markQuote '\\' = ['\\'] := rfl
  have raw : markQuote letter = [letter] := if_neg quote
  rw [List.flatMap_cons, alone, List.flatMap_cons, raw, List.singleton_append,
    List.singleton_append, List.cons_append, List.cons_append] at done
  generalize whole : '\\' :: letter :: (chars.flatMap markQuote ++ '\'' :: rest) = text at done
  unfold readString at done
  split at done
  · cases whole
  · cases whole
  · -- four hexadecimal digits
    rename_i a b c d more
    split at done
    · rename_i found escape
      obtain ⟨rfl, behind⟩ := List.cons.inj (List.cons.inj whole).2
      have plain := ne_of_unicodeEscape? escape
      simp only [List.forall_mem_cons] at plain
      obtain ⟨first, second, third, fourth, -⟩ := plain
      obtain ⟨others, rfl, behindFirst⟩ := exists_cons_of_flatMap_markQuote behind first
      obtain ⟨others, rfl, behindSecond⟩ :=
        exists_cons_of_flatMap_markQuote behindFirst.symm second
      obtain ⟨others, rfl, behindThird⟩ :=
        exists_cons_of_flatMap_markQuote behindSecond.symm third
      obtain ⟨others, rfl, rfl⟩ := exists_cons_of_flatMap_markQuote behindThird.symm fourth
      refine Unlike.step (List.cons_ne_nil '\\' ['u', a, b, c, d]) (fun more ahead => ?_) done
      refine later others (by simp only [List.length_cons]; omega) more
        (lag_of_append noQuote ?_ ahead) (lag_ne_nil (by simp) ahead)
      simp [first.1.symm, second.1.symm, third.1.symm, fourth.1.symm]
    · cases done
  · -- one letter
    obtain ⟨rfl, rfl⟩ := List.cons.inj (List.cons.inj whole).2
    split at done
    · refine Unlike.step (List.cons_ne_nil '\\' [letter]) (fun more ahead => ?_) done
      refine later chars le_rfl more (lag_of_append noQuote ?_ ahead) (lag_ne_nil (by simp) ahead)
      simp [Ne.symm quote]
    · cases done
  · rename_i notEscape
    cases whole
    exact absurd rfl (notEscape _ _ rfl)

/-- Characters that start with a backslash are not read back. -/
theorem unlike_backslash {lag chars : List Char} (noQuote : '\'' ∉ lag)
    (later : ∀ others : List Char, others.length ≤ chars.length →
      ∀ more, '\'' ∉ more → more ≠ [] → Unlike more others) :
    Unlike lag ('\\' :: chars) := by
  cases chars with
  | nil => exact unlike_last_backslash noQuote
  | cons letter chars =>
      by_cases quote : letter = '\''
      · subst quote
        exact unlike_backslash_quote lag chars
      · exact unlike_escape noQuote quote fun others shorter =>
          later others (Nat.le_succ_of_le shorter)

/-- Reading answers with other characters if it is behind or a backslash is still to come. -/
theorem unlike {lag chars : List Char} (noQuote : '\'' ∉ lag) (late : lag ≠ [] ∨ '\\' ∈ chars) :
    Unlike lag chars := by
  -- on the number of characters to come, since an escape takes several of them at once
  induction size : chars.length using Nat.strong_induction_on generalizing lag chars with
  | h size ih =>
  intro opening position read rest meant after done
  cases chars with
  | nil =>
      rw [List.flatMap_nil, List.nil_append, readString_cons (by decide), if_pos rfl] at done
      cases done
      intro same
      rw [String.toList_ofList, List.append_nil, List.self_eq_append_right] at same
      exact late.elim (fun behind => behind same) (fun inside => by cases inside)
  | cons c chars =>
      rw [List.length_cons] at size
      by_cases quote : c = '\''
      · subst quote
        rw [List.flatMap_cons, markQuote, if_pos rfl] at done
        change readString '\'' opening (position + 2) ('\'' :: read)
          (chars.flatMap markQuote ++ '\'' :: rest) = _ at done
        refine Unlike.step (List.cons_ne_nil '\'' []) (fun more ahead => ?_) done
        cases lag with
        | nil =>
            cases ahead
            have backslash := late.resolve_left fun behind => behind rfl
            have deeper : '\\' ∈ chars := (List.mem_cons.mp backslash).resolve_left (by decide)
            exact ih chars.length (by omega) noQuote (Or.inr deeper) rfl
        | cons first lag =>
            cases ahead
            exact absurd (List.mem_cons_self ..) noQuote
      · have alone : markQuote c = [c] := if_neg quote
        by_cases backslash : c = '\\'
        · subst backslash
          exact unlike_backslash noQuote
            (fun others shorter more plain behind =>
              ih others.length (by omega) plain (Or.inl behind) rfl) done
        · rw [List.flatMap_cons, alone, List.singleton_append, List.cons_append,
            readString_cons backslash, if_neg quote] at done
          refine Unlike.step (List.cons_ne_nil c []) (fun more ahead => ?_) done
          have plain : '\'' ∉ [c] := fun inside => quote (List.mem_singleton.mp inside).symm
          refine ih chars.length (by omega) (lag_of_append noQuote plain ahead) ?_ rfl
          cases lag with
          | nil =>
              have deeper := (List.mem_cons.mp (late.resolve_left fun behind => behind rfl))
              exact Or.inr (deeper.resolve_left (Ne.symm backslash))
          | cons first lag =>
              cases ahead
              exact Or.inl (List.append_ne_nil_of_right_ne_nil _ (List.cons_ne_nil _ _))

theorem ne_of_readToken_singleQuoted {text : String} (backslash : '\\' ∈ text.toList)
    {rest : List Char} {position : Nat} {token : Token} {after : Cursor}
    (done : readToken position (singleQuoted text ++ rest) = .ok (token, after)) :
    ∃ other, token = .string other ∧ other ≠ text := by
  rw [singleQuoted_append, readToken_quote (Or.inl rfl)] at done
  cases string : readString '\'' position (position + 1) []
      (text.toList.flatMap markQuote ++ '\'' :: rest) with
  | error halt =>
      rw [string] at done
      cases done
  | ok read =>
      obtain ⟨other, cursor⟩ := read
      rw [string] at done
      cases done
      refine ⟨other, rfl, fun same => ?_⟩
      exact unlike (List.not_mem_nil) (Or.inr backslash) string (congrArg String.toList same)

end Lexer

end TemplateFill
