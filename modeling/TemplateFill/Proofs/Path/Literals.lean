import Mathlib.Algebra.Group.Nat.Defs
import Mathlib.Data.List.TakeWhile
import TemplateFill.Path.Lexer

/-!
String literals between quotes.

What stands between the quotes is a row of characters and escapes, each of which means one
character. The reader takes the longest such row; behind it stands the closing quote, or nothing,
or a backslash that starts no escape, and this decides between the string and the two errors.
-/

namespace TemplateFill

namespace Text

@[simp] theorem byteLength_nil : byteLength [] = 0 := rfl

@[simp] theorem byteLength_cons (c : Char) (text : List Char) :
    byteLength (c :: text) = c.utf8Size + byteLength text := rfl

@[simp] theorem byteLength_append (first later : List Char) :
    byteLength (first ++ later) = byteLength first + byteLength later := by
  induction first with
  | nil => simp
  | cons c first ih => simp [ih, Nat.add_assoc]

theorem utf8Size_of_ascii {c : Char} (ascii : c.toNat < 128) : c.utf8Size = 1 := by
  rw [Char.utf8Size_eq_one_iff, UInt32.le_iff_toNat_le]
  exact Nat.le_of_lt_succ ascii

theorem byteLength_of_ascii {text : List Char} (each : ∀ c ∈ text, c.toNat < 128) :
    byteLength text = text.length := by
  induction text with
  | nil => rfl
  | cons c text ih =>
      rw [List.forall_mem_cons] at each
      rw [byteLength_cons, utf8Size_of_ascii each.1, ih each.2, List.length_cons, Nat.add_comm]

/-! ### Hexadecimal digits -/

theorem hexDigit?_bounds {c : Char} {value : Nat} (digit : hexDigit? c = some value) :
    value < 16 ∧ c.toNat < 128 := by
  have zero : '0'.toNat = 48 := rfl
  have nine : '9'.toNat = 57 := rfl
  have low : 'a'.toNat = 97 := rfl
  have lowEnd : 'f'.toNat = 102 := rfl
  have high : 'A'.toNat = 65 := rfl
  have highEnd : 'F'.toNat = 70 := rfl
  simp only [hexDigit?, digitValue, Char.isDigit, Char.le_def, UInt32.le_iff_toNat_le, ge_iff_le,
    Bool.and_eq_true, decide_eq_true_eq, Char.toNat_val] at digit
  split at digit
  · cases digit
    omega
  · split at digit
    · cases digit
      omega
    · split at digit
      · cases digit
        omega
      · cases digit

theorem foldlM_hexDigit?_lt {digits : List Char} {start code : Nat}
    (value : digits.foldlM (fun value c => (hexDigit? c).map (value * 16 + ·)) start = some code) :
    code < (start + 1) * 16 ^ digits.length := by
  induction digits generalizing start with
  | nil =>
      cases value
      simp
  | cons c digits ih =>
      rw [List.foldlM_cons] at value
      rcases Option.bind_eq_some_iff.mp value with ⟨next, first, later⟩
      rcases Option.map_eq_some_iff.mp first with ⟨digit, isDigit, same⟩
      have bounded := (hexDigit?_bounds isDigit).1
      calc code < (next + 1) * 16 ^ digits.length := ih later
        _ ≤ (start + 1) * 16 * 16 ^ digits.length := Nat.mul_le_mul_right _ (by omega)
        _ = (start + 1) * 16 ^ (c :: digits).length := by
          rw [List.length_cons, Nat.pow_succ, Nat.mul_assoc, Nat.mul_comm 16]

theorem hexValue?_lt {digits : List Char} {code : Nat} (value : hexValue? digits = some code) :
    code < 16 ^ digits.length := by
  simpa using foldlM_hexDigit?_lt value

theorem isSome_hexDigit?_of_foldlM {digits : List Char} {start value : Nat}
    (read : digits.foldlM (fun value c => (hexDigit? c).map (value * 16 + ·)) start =
      some value) : ∀ c ∈ digits, (hexDigit? c).isSome = true := by
  induction digits generalizing start with
  | nil => exact List.forall_mem_nil _
  | cons first digits ih =>
      rw [List.foldlM_cons] at read
      obtain ⟨next, one, more⟩ := Option.bind_eq_some_iff.mp read
      intro c inside
      rcases List.mem_cons.mp inside with rfl | later
      · obtain ⟨digit, found, -⟩ := Option.map_eq_some_iff.mp one
        rw [found]
        rfl
      · exact ih more c later

theorem byteLength_of_hexValue? {digits : List Char} {code : Nat}
    (value : hexValue? digits = some code) : byteLength digits = digits.length := by
  apply byteLength_of_ascii
  intro c inside
  have digit := isSome_hexDigit?_of_foldlM value c inside
  cases found : hexDigit? c with
  | none => simp [found] at digit
  | some number => exact (hexDigit?_bounds found).2

end Text

namespace Lexer

/-! ### Escapes -/

def letterEscapes : List (Char × Char) :=
  [('\\', '\\'), ('\'', '\''), ('"', '"'), ('/', '/'), ('n', '\n'), ('r', '\r'), ('t', '\t')]

/-- What may stand behind a backslash, and the character it means: a letter, or `u` and four
hexadecimal digits that write a Unicode scalar value. -/
inductive Escape : List Char → Char → Prop
  | letter {c meant : Char} (listed : (c, meant) ∈ letterEscapes) : Escape [c] meant
  | code {a b c d : Char} {code : Nat} (digits : Text.hexValue? [a, b, c, d] = some code)
      (scalar : code.isValidChar) : Escape ['u', a, b, c, d] (Char.ofNat code)

/-- The escapes that are read. They are the proper ones, and those with a plus sign in place of the
first of the four digits. -/
inductive ReadEscape : List Char → Char → Prop
  | proper {text : List Char} {meant : Char} (escape : Escape text meant) : ReadEscape text meant
  | signed {b c d : Char} {code : Nat} (digits : Text.hexValue? [b, c, d] = some code) :
      ReadEscape ['u', '+', b, c, d] (Char.ofNat code)

theorem simpleEscape?_eq_some_iff {c meant : Char} :
    simpleEscape? c = some meant ↔ (c, meant) ∈ letterEscapes := by
  constructor
  · intro simple
    unfold simpleEscape? at simple
    split at simple <;> cases simple <;> decide
  · intro listed
    simp only [letterEscapes, List.mem_cons, Prod.mk.injEq, List.not_mem_nil, or_false] at listed
    rcases listed with same | same | same | same | same | same | same <;>
      rcases same with ⟨rfl, rfl⟩ <;> rfl

theorem utf8Size_of_mem {c meant : Char} (listed : (c, meant) ∈ letterEscapes) :
    c.utf8Size = 1 := by
  have ascii : ∀ pair ∈ letterEscapes, pair.1.toNat < 128 := by decide
  exact Text.utf8Size_of_ascii (ascii _ listed)

/-- A sign is no digit, so it starts a number only as the sign. -/
theorem hexValue?_plus (digits : List Char) : Text.hexValue? ('+' :: digits) = none := rfl

theorem unicodeEscape?_plus (digits : List Char) :
    unicodeEscape? ('+' :: digits) = (Text.hexValue? digits).bind fun code =>
      if 0xd800 ≤ code && code < 0xe000 then none else some (Char.ofNat code) := rfl

theorem unicodeEscape?_of_ne {first : Char} (unsigned : first ≠ '+') (digits : List Char) :
    unicodeEscape? (first :: digits) = (Text.hexValue? (first :: digits)).bind fun code =>
      if 0xd800 ≤ code && code < 0xe000 then none else some (Char.ofNat code) := by
  unfold unicodeEscape?
  split
  · rename_i same
    cases same
    exact absurd rfl unsigned
  · rfl

/-- A number of four digits is a scalar value unless it is a surrogate. -/
theorem isValidChar_iff {code : Nat} (bounded : code < 16 ^ 4) :
    code.isValidChar ↔ (0xd800 ≤ code && code < 0xe000) = false := by
  simp only [Nat.isValidChar, Bool.and_eq_false_iff, decide_eq_false_iff_not]
  omega

theorem unicodeEscape?_eq_some_iff {a b c d meant : Char} :
    unicodeEscape? [a, b, c, d] = some meant ↔ ReadEscape ['u', a, b, c, d] meant := by
  by_cases plus : a = '+'
  · subst plus
    have small {code : Nat} (value : Text.hexValue? [b, c, d] = some code) :
        (0xd800 ≤ code && code < 0xe000) = false := by
      have bounded : code < 16 ^ 3 := Text.hexValue?_lt value
      simp only [Bool.and_eq_false_iff, decide_eq_false_iff_not]
      omega
    rw [unicodeEscape?_plus]
    constructor
    · intro escape
      rcases Option.bind_eq_some_iff.mp escape with ⟨code, value, same⟩
      rw [small value] at same
      cases same
      exact .signed value
    · intro escape
      cases escape with
      | proper escape =>
          cases escape with
          | code digits _ => simp [hexValue?_plus] at digits
      | signed value =>
          rw [value, Option.bind_some, small value]
          rfl
  · rw [unicodeEscape?_of_ne plus]
    constructor
    · intro escape
      rcases Option.bind_eq_some_iff.mp escape with ⟨code, value, same⟩
      have bounded : code < 16 ^ 4 := Text.hexValue?_lt value
      split at same
      · cases same
      · rename_i noSurrogate
        cases same
        have valid := (isValidChar_iff bounded).mpr (Bool.eq_false_iff.mpr noSurrogate)
        exact .proper (.code value valid)
    · intro escape
      cases escape with
      | proper escape =>
          cases escape with
          | @code _ _ _ _ code value valid =>
              have bounded : code < 16 ^ 4 := Text.hexValue?_lt value
              rw [value, Option.bind_some, (isValidChar_iff bounded).mp valid]
              rfl
      | signed _ => exact absurd rfl plus

/-! ### Rows of characters and escapes -/

/-- The text between quotes, with the given escapes, and the characters that it means. -/
inductive Decodes (escape : List Char → Char → Prop) (quote : Char) :
    List Char → List Char → Prop
  | nil : Decodes escape quote [] []
  | plain {c : Char} {text meant : List Char} (noQuote : c ≠ quote) (noBackslash : c ≠ '\\')
      (later : Decodes escape quote text meant) : Decodes escape quote (c :: text) (c :: meant)
  | escaped {written text meant : List Char} {c : Char} (means : escape written c)
      (later : Decodes escape quote text meant) :
      Decodes escape quote ('\\' :: (written ++ text)) (c :: meant)

def NoEscape (text : List Char) : Prop :=
  ∀ written meant behind, ReadEscape written meant → text ≠ written ++ behind

/-- What is blamed where no escape starts: the backslash, and what stands in the place of the escape.
-/
def blamedText (behind : List Char) : String :=
  String.ofList (Text.takeBytes (if behind.head? = some 'u' then 6 else 2) ('\\' :: behind))

/-- Where a row of characters and escapes ends: in front of a quote, in front of a backslash that
starts no escape, or at the end of the text. -/
inductive EndsRow (quote : Char) : List Char → Prop
  | closed (rest : List Char) : EndsRow quote (quote :: rest)
  | bad {behind : List Char} (filled : behind ≠ []) (noEscape : NoEscape behind) :
      EndsRow quote ('\\' :: behind)
  | cut : EndsRow quote ['\\']
  | done : EndsRow quote []

variable {quote : Char} {opening position : Nat} {read text body meant tail behind : List Char}

/-- A character that is no backslash stands for itself or closes the string. -/
theorem readString_cons {c : Char} (plain : c ≠ '\\') (opening : Nat) (read : List Char) :
    readString quote opening position read (c :: text) =
      if c = quote then .ok (String.ofList read.reverse, ⟨position + 1, text⟩)
      else readString quote opening (position + c.utf8Size) (c :: read) text := by
  rw [readString]
  all_goals simp [plain]

theorem readString_code {a b c d meant : Char} (escape : unicodeEscape? [a, b, c, d] = some meant) :
    readString quote opening position read ('\\' :: 'u' :: a :: b :: c :: d :: text) =
      readString quote opening (position + 6) (meant :: read) text := by
  rw [readString, escape]

theorem readString_letter {c meant : Char} (escape : simpleEscape? c = some meant) :
    readString quote opening position read ('\\' :: c :: text) =
      readString quote opening (position + 2) (meant :: read) text := by
  have noCode : c ≠ 'u' := by
    rintro rfl
    cases escape
  rw [readString, escape]
  simp [noCode]

theorem readString_escape {written : List Char} {meant : Char} (escape : ReadEscape written meant) :
    readString quote opening position read ('\\' :: (written ++ text)) =
      readString quote opening (position + 1 + Text.byteLength written) (meant :: read) text := by
  cases escape with
  | proper proper =>
      cases proper with
      | @letter c meant listed =>
          have single : c.utf8Size = 1 := utf8Size_of_mem listed
          rw [List.singleton_append, readString_letter (simpleEscape?_eq_some_iff.mpr listed)]
          simp [single]
      | @code a b c d code value scalar =>
          have four : Text.byteLength [a, b, c, d] = 4 := Text.byteLength_of_hexValue? value
          have escape := unicodeEscape?_eq_some_iff.mpr (.proper (.code value scalar))
          have letter : 'u'.utf8Size = 1 := rfl
          simp only [List.cons_append, List.nil_append, readString_code escape]
          rw [Text.byteLength_cons, four, letter]
  | @signed b c d code value =>
      have three : Text.byteLength [b, c, d] = 3 := Text.byteLength_of_hexValue? value
      have escape := unicodeEscape?_eq_some_iff.mpr (.signed value)
      have letter : 'u'.utf8Size = 1 := rfl
      have plus : '+'.utf8Size = 1 := rfl
      simp only [List.cons_append, List.nil_append, readString_code escape]
      rw [Text.byteLength_cons, Text.byteLength_cons, three, letter, plus]

theorem readString_append (row : Decodes ReadEscape quote body meant) :
    readString quote opening position read (body ++ tail) =
      readString quote opening (position + Text.byteLength body) (meant.reverse ++ read) tail := by
  induction row generalizing position read with
  | nil => rfl
  | plain noQuote noBackslash later ih =>
      rw [List.cons_append, readString_cons noBackslash, if_neg noQuote, ih]
      simp [Nat.add_assoc]
  | escaped means later ih =>
      have single : '\\'.utf8Size = 1 := rfl
      rw [List.cons_append, List.append_assoc, readString_escape means, ih]
      simp [single, Nat.add_assoc]

theorem ne_backslash_of_isQuote (isQuote : quote = '\'' ∨ quote = '"') : quote ≠ '\\' := by
  rcases isQuote with rfl | rfl <;> decide

theorem utf8Size_of_isQuote (isQuote : quote = '\'' ∨ quote = '"') : quote.utf8Size = 1 := by
  rcases isQuote with rfl | rfl <;> rfl

theorem readString_closed (quoted : quote ≠ '\\') :
    readString quote opening position read (quote :: tail) =
      .ok (String.ofList read.reverse, ⟨position + 1, tail⟩) := by
  rw [readString_cons quoted, if_pos rfl]

theorem readString_bad (filled : behind ≠ []) (noEscape : NoEscape behind) :
    readString quote opening position read ('\\' :: behind) =
      .error (badEscape position (if behind.head? = some 'u' then 6 else 2) ('\\' :: behind)) := by
  cases behind with
  | nil => exact absurd rfl filled
  | cons letter rest =>
      have noLetter : simpleEscape? letter = none := by
        cases simple : simpleEscape? letter with
        | none => rfl
        | some meant =>
            have listed := simpleEscape?_eq_some_iff.mp simple
            exact absurd rfl (noEscape _ _ rest (.proper (.letter listed)))
      rw [readString.eq_def]
      split
      · contradiction
      · rename_i same
        cases same
      · rename_i a b c d more same
        cases same
        have noCode : unicodeEscape? [a, b, c, d] = none := by
          cases code : unicodeEscape? [a, b, c, d] with
          | none => rfl
          | some meant => exact absurd rfl (noEscape _ _ more (unicodeEscape?_eq_some_iff.mp code))
        rw [noCode]
        rfl
      · rename_i other more _ same
        cases same
        rw [noLetter]
        simp
      · rename_i c more _ _ noBackslash same
        cases same
        exact absurd rfl (noBackslash _ _ rfl)

/-! ### The longest row -/

theorem noEscape_of_code {a b c d : Char} {rest : List Char}
    (noCode : unicodeEscape? [a, b, c, d] = none) : NoEscape ('u' :: a :: b :: c :: d :: rest) := by
  intro written meant more escape same
  have found : ReadEscape ['u', a, b, c, d] meant := by
    cases escape with
    | proper proper =>
        cases proper with
        | letter listed =>
            cases same
            cases simpleEscape?_eq_some_iff.mpr listed
        | code digits scalar =>
            cases same
            exact .proper (.code digits scalar)
    | signed digits =>
        cases same
        exact .signed digits
  rw [unicodeEscape?_eq_some_iff.mpr found] at noCode
  cases noCode

theorem noEscape_of_letter {letter : Char} {rest : List Char}
    (noLetter : simpleEscape? letter = none)
    (noCode : ∀ a b c d more, letter = 'u' → rest = a :: b :: c :: d :: more → False) :
    NoEscape (letter :: rest) := by
  intro written meant more escape same
  cases escape with
  | proper proper =>
      cases proper with
      | letter listed =>
          cases same
          rw [simpleEscape?_eq_some_iff.mpr listed] at noLetter
          cases noLetter
      | code _ _ =>
          cases same
          exact noCode _ _ _ _ _ rfl rfl
  | signed _ =>
      cases same
      exact noCode _ _ _ _ _ rfl rfl

/-- Every text starts with a row that ends where no row goes on. -/
theorem exists_row (quote : Char) (text : List Char) :
    ∃ body meant tail, text = body ++ tail ∧ Decodes ReadEscape quote body meant ∧
      EndsRow quote tail := by
  fun_induction readString quote 0 0 [] text with
  | case1 => exact ⟨[], [], [], rfl, .nil, .done⟩
  | case2 => exact ⟨[], [], _, rfl, .nil, .cut⟩
  | case3 position read a b c d rest found escape ih =>
      rcases ih with ⟨body, meant, tail, rfl, row, ends⟩
      have code := unicodeEscape?_eq_some_iff.mp escape
      exact ⟨_, _, tail, rfl, .escaped code row, ends⟩
  | case4 position read a b c d rest noCode =>
      exact ⟨[], [], _, rfl, .nil, .bad (List.cons_ne_nil _ _) (noEscape_of_code noCode)⟩
  | case5 position read letter rest noCode found escape ih =>
      rcases ih with ⟨body, meant, tail, rfl, row, ends⟩
      have listed := simpleEscape?_eq_some_iff.mp escape
      exact ⟨_, _, tail, rfl, .escaped (.proper (.letter listed)) row, ends⟩
  | case6 position read letter rest noCode noLetter =>
      have noEscape := noEscape_of_letter noLetter noCode
      exact ⟨[], [], _, rfl, .nil, .bad (List.cons_ne_nil _ _) noEscape⟩
  | case7 position read rest =>
      exact ⟨[], [], _, rfl, .nil, .closed rest⟩
  | case8 position read c rest atEnd noCode letters different ih =>
      rcases ih with ⟨body, meant, tail, rfl, row, ends⟩
      have noBackslash : c ≠ '\\' := by
        rintro rfl
        cases whole : body ++ tail with
        | nil => exact atEnd rfl whole
        | cons letter others => exact letters letter others rfl whole
      exact ⟨c :: body, c :: meant, tail, rfl, .plain different noBackslash row, ends⟩

/-! ### Literals -/

theorem decodes_plain {escape : List Char → Char → Prop} (each : ∀ c ∈ body, c ≠ quote ∧ c ≠ '\\') :
    Decodes escape quote body body := by
  induction body with
  | nil => exact .nil
  | cons c body ih =>
      rw [List.forall_mem_cons] at each
      exact .plain each.1.1 each.1.2 (ih each.2)

/-- The text in front of the first backslash is read as if with escapes: the short way to read a
literal and the long one agree. -/
theorem readLiteral_eq (quoted : quote ≠ '\\') (opening : Nat) (text : List Char) :
    readLiteral quote opening text = readString quote opening (opening + 1) [] text := by
  have each : ∀ c ∈ text.takeWhile (fun c => c != quote && c != '\\'), c ≠ quote ∧ c ≠ '\\' := by
    intro c inside
    simpa using List.mem_takeWhile_imp inside
  have split := List.takeWhile_append_dropWhile (p := fun c => c != quote && c != '\\') (l := text)
  have whole : readString quote opening (opening + 1) [] text = _ :=
    (congrArg _ split).symm.trans (readString_append (decodes_plain each))
  rw [whole, List.append_nil]
  unfold readLiteral
  dsimp only
  cases text.dropWhile fun c => c != quote && c != '\\' with
  | nil => rfl
  | cons c rest =>
      dsimp only
      split
      · rename_i closes
        subst closes
        rw [readString_closed quoted, List.reverse_reverse]
      · rfl

theorem readToken_quote (isQuote : quote = '\'' ∨ quote = '"') (position : Nat) (text : List Char) :
    readToken position (quote :: text) =
      (readString quote position (position + 1) [] text).map
        fun read => (.string read.1, read.2) := by
  rcases isQuote with rfl | rfl
  · rw [← readLiteral_eq (by decide)]
    rfl
  · rw [← readLiteral_eq (by decide)]
    rfl

theorem next_of_solid {first : Char} (solid : isSpace first = false) (position : Nat)
    (text : List Char) :
    (Cursor.mk position (first :: text)).next =
      match readToken position (first :: text) with
      | .ok (token, after) => (.ok (some ⟨token, position, after.position⟩), after)
      | .error halt => (.error halt.error, halt.cursor) := by
  have skipped : (Cursor.mk position (first :: text)).skipSpace = ⟨position, first :: text⟩ := by
    simp [Cursor.skipSpace, solid]
  rw [Cursor.next, skipped]
  rfl

theorem next_quote (isQuote : quote = '\'' ∨ quote = '"') (position : Nat) (text : List Char) :
    (Cursor.mk position (quote :: text)).next =
      match readString quote position (position + 1) [] text with
      | .ok (meant, after) => (.ok (some ⟨.string meant, position, after.position⟩), after)
      | .error halt => (.error halt.error, halt.cursor) := by
  have solid : isSpace quote = false := by
    rcases isQuote with rfl | rfl <;> rfl
  rw [next_of_solid solid, readToken_quote isQuote]
  cases readString quote position (position + 1) [] text <;> rfl

theorem next_closed (isQuote : quote = '\'' ∨ quote = '"') {rest : List Char}
    (row : Decodes ReadEscape quote body meant) :
    (Cursor.mk position (quote :: (body ++ quote :: rest))).next =
      (.ok (some ⟨.string (String.ofList meant), position, position + Text.byteLength body + 2⟩),
        ⟨position + Text.byteLength body + 2, rest⟩) := by
  have stop : position + 1 + Text.byteLength body + 1 = position + Text.byteLength body + 2 := by
    omega
  rw [next_quote isQuote, readString_append row, readString_closed (ne_backslash_of_isQuote isQuote), stop]
  simp

theorem next_bad (isQuote : quote = '\'' ∨ quote = '"')
    (row : Decodes ReadEscape quote body meant) (filled : behind ≠ []) (noEscape : NoEscape behind)
    (position : Nat) :
    (Cursor.mk position (quote :: (body ++ '\\' :: behind))).next.1 =
      .error (.invalidEscape (blamedText behind) (position + 1 + Text.byteLength body)) := by
  rw [next_quote isQuote, readString_append row, readString_bad filled noEscape]
  rfl

theorem next_unclosed (isQuote : quote = '\'' ∨ quote = '"')
    (row : Decodes ReadEscape quote body meant) (last : tail = [] ∨ tail = ['\\'])
    (position : Nat) :
    (Cursor.mk position (quote :: (body ++ tail))).next.1 = .error (.unclosedString position) := by
  rw [next_quote isQuote, readString_append row]
  rcases last with rfl | rfl <;> rfl

/-- A literal is read if and only if a row of characters and escapes and the closing quote follow
its opening quote; it is the string that the row means, and ends right behind that quote. Otherwise
it is refused at the first backslash that starts no escape or, without one, as unclosed at its
opening quote. -/
theorem next_literal (isQuote : quote = '\'' ∨ quote = '"') (position : Nat) (text : List Char) :
    (∀ lexeme? after, (Cursor.mk position (quote :: text)).next = (.ok lexeme?, after) ↔
      ∃ body meant rest, text = body ++ quote :: rest ∧ Decodes ReadEscape quote body meant ∧
        after = ⟨position + Text.byteLength body + 2, rest⟩ ∧
        lexeme? = some ⟨.string (String.ofList meant), position, after.position⟩) ∧
    (∀ error, (Cursor.mk position (quote :: text)).next.1 = .error error ↔
      (∃ body meant behind, text = body ++ '\\' :: behind ∧ Decodes ReadEscape quote body meant ∧
        behind ≠ [] ∧ NoEscape behind ∧
        error = .invalidEscape (blamedText behind) (position + 1 + Text.byteLength body)) ∨
      ∃ body meant, (text = body ∨ text = body ++ ['\\']) ∧ Decodes ReadEscape quote body meant ∧
        error = .unclosedString position) ∧
    readLiteral quote position text = readString quote position (position + 1) [] text := by
  have noBackslash : quote ≠ '\\' := by
    rcases isQuote with rfl | rfl <;> decide
  refine ⟨fun lexeme? after => ?_, fun error => ?_, readLiteral_eq noBackslash position text⟩
  · constructor
    · intro read
      rcases exists_row quote text with ⟨body, meant, tail, rfl, row, ends⟩
      cases ends with
      | closed rest =>
          rw [next_closed isQuote row] at read
          cases read
          exact ⟨body, meant, rest, rfl, row, rfl, rfl⟩
      | bad filled noEscape =>
          have failed := next_bad isQuote row filled noEscape position
          rw [read] at failed
          cases failed
      | cut =>
          have failed := next_unclosed isQuote row (Or.inr rfl) position
          rw [read] at failed
          cases failed
      | done =>
          have failed := next_unclosed isQuote row (Or.inl rfl) position
          rw [read] at failed
          cases failed
    · rintro ⟨body, meant, rest, rfl, row, rfl, rfl⟩
      exact next_closed isQuote row
  · constructor
    · intro failed
      rcases exists_row quote text with ⟨body, meant, tail, rfl, row, ends⟩
      cases ends with
      | closed rest =>
          rw [next_closed isQuote row] at failed
          cases failed
      | bad filled noEscape =>
          rw [next_bad isQuote row filled noEscape] at failed
          cases failed
          exact Or.inl ⟨body, meant, _, rfl, row, filled, noEscape, rfl⟩
      | cut =>
          rw [next_unclosed isQuote row (Or.inr rfl)] at failed
          cases failed
          exact Or.inr ⟨body, meant, Or.inr rfl, row, rfl⟩
      | done =>
          rw [next_unclosed isQuote row (Or.inl rfl)] at failed
          cases failed
          exact Or.inr ⟨body, meant, Or.inl (List.append_nil body), row, rfl⟩
    · rintro (⟨body, meant, behind, rfl, row, filled, noEscape, rfl⟩ |
        ⟨body, meant, whole, row, rfl⟩)
      · exact next_bad isQuote row filled noEscape position
      · rcases whole with rfl | rfl
        · have failed := next_unclosed isQuote row (Or.inl rfl) position
          rwa [List.append_nil] at failed
        · exact next_unclosed isQuote row (Or.inr rfl) position

/-- A literal with an escaped quote, and with a letter of two bytes in an escape and as it is. -/
theorem next_literal_accents :
    ('\'' = '\'' ∨ '\'' = '"') ∧
      (Cursor.mk 2 "'l\\'\\u00e9té']".toList).next =
        (.ok (some ⟨.string "l'été", 2, 16⟩), ⟨16, [']']⟩) := by
  have quoteMark : ReadEscape ['\''] '\'' := .proper (.letter (by decide))
  have accent : ReadEscape ['u', '0', '0', 'e', '9'] 'é' :=
    .proper (.code (by decide) (by decide))
  have row : Decodes ReadEscape '\'' ['l', '\\', '\'', '\\', 'u', '0', '0', 'e', '9', 't', 'é']
      ['l', '\'', 'é', 't', 'é'] :=
    .plain (by decide) (by decide) (.escaped quoteMark (.escaped accent
      (.plain (by decide) (by decide) (.plain (by decide) (by decide) .nil))))
  exact ⟨Or.inl rfl, ((next_literal (Or.inl rfl) 2 _).1 _ _).mpr ⟨_, _, _, rfl, row, rfl, rfl⟩⟩

/-- A plus sign in place of the first of four hexadecimal digits is read, although no row of
characters and proper escapes stands there. -/
theorem next_literal_signed :
    (Cursor.mk 0 "'\\u+041'".toList).next = (.ok (some ⟨.string "A", 0, 8⟩), ⟨8, []⟩) ∧
      ¬∃ body meant rest, "\\u+041'".toList = body ++ '\'' :: rest ∧
        Decodes Escape '\'' body meant := by
  refine ⟨by decide +kernel, ?_⟩
  rintro ⟨body, meant, rest, same, row⟩
  have chars : "\\u+041'".toList = ['\\', 'u', '+', '0', '4', '1', '\''] := by decide +kernel
  rw [chars] at same
  cases row with
  | nil => cases same
  | plain _ noBackslash _ => exact absurd (List.cons.inj same).1.symm noBackslash
  | escaped means _ =>
      have behind := (List.cons.inj same).2
      cases means with
      | letter listed =>
          cases (List.cons.inj behind).1
          cases simpleEscape?_eq_some_iff.mpr listed
      | code digits _ =>
          cases (List.cons.inj (List.cons.inj behind).2).1
          cases digits

end Lexer

end TemplateFill
