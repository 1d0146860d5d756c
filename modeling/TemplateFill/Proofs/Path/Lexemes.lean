import TemplateFill.Proofs.Path.Literals

/-!
The texts of single tokens.

A token is written by a text of its own, and how far it reaches is told by the two characters
behind that text: by the first, whether it would go on with the token, and by both, whether a point
there starts a fraction. A token is read from a text if and only if the text starts so.
-/

namespace TemplateFill

namespace Token

/-- Marks are the tokens without a name, a number or a string of their own. -/
def isMark : Token → Bool
  | identifier _ | integer _ | decimal _ | string _ | trueWord | falseWord | nullWord => false
  | _ => true

end Token

def signed (negative : Bool) (digits : List Char) : List Char :=
  if negative then '-' :: digits else digits

theorem signed_append (negative : Bool) (digits more : List Char) :
    signed negative digits ++ more = signed negative (digits ++ more) := by
  cases negative <;> rfl

namespace Lexer

def signedValue (negative : Bool) (digits : List Char) : Int :=
  if negative then -(Text.digitsValue digits : Int) else Text.digitsValue digits

def Fits (value : Int) : Prop := leastInteger ≤ value ∧ value ≤ greatestInteger

instance (value : Int) : Decidable (Fits value) :=
  inferInstanceAs (Decidable (leastInteger ≤ value ∧ value ≤ greatestInteger))

inductive Writes : Token → List Char → Prop
  | mark {token : Token} (isMark : token.isMark = true) : Writes token token.text.toList
  | tripleEqual : Writes .equal ['=', '=', '=']
  | name {first : Char} {others : List Char} (starts : startsName first = true)
      (continues : ∀ c ∈ others, continuesName c = true) :
      Writes (.ofWord (String.ofList (first :: others))) (first :: others)
  | integer {negative : Bool} {digits : List Char} (filled : digits ≠ [])
      (each : ∀ c ∈ digits, c.isDigit = true) (fits : Fits (signedValue negative digits)) :
      Writes (.integer (signedValue negative digits)) (signed negative digits)
  | decimal {negative : Bool} {digits fraction : List Char} (filled : digits ≠ [])
      (filledFraction : fraction ≠ []) (each : ∀ c ∈ digits, c.isDigit = true)
      (eachFraction : ∀ c ∈ fraction, c.isDigit = true) :
      Writes (.decimal (String.ofList (signed negative (digits ++ '.' :: fraction))))
        (signed negative (digits ++ '.' :: fraction))
  | string {quote : Char} {body meant : List Char} (isQuote : quote = '\'' ∨ quote = '"')
      (row : Decodes ReadEscape quote body meant) :
      Writes (.string (String.ofList meant)) (quote :: (body ++ [quote]))

def goesOn : Token → List Char → Char → Bool
  | .dot, _, c => c == '.'
  | .equal, written, c => written.length == 2 && c == '='
  | .not, _, c | .less, _, c | .greater, _, c => c == '='
  | .integer _, _, c | .decimal _, _, c => c.isDigit
  | .identifier _, _, c | .trueWord, _, c | .falseWord, _, c | .nullWord, _, c => continuesName c
  | _, _, _ => false

structure EndsBefore (token : Token) (written rest : List Char) : Prop where
  next : ∀ c more, rest = c :: more → goesOn token written c = false
  point : ∀ value, token = .integer value →
    ∀ c more, rest = '.' :: c :: more → c.isDigit = false

theorem endsBefore_nil (token : Token) (written : List Char) : EndsBefore token written [] :=
  ⟨nofun, nofun⟩

theorem endsBefore_string (text : String) (written rest : List Char) :
    EndsBefore (.string text) written rest :=
  ⟨fun _ _ _ => rfl, nofun⟩

theorem EndsBefore.of_isMark {token : Token} {written rest : List Char}
    (isMark : token.isMark = true)
    (stops : ∀ c more, rest = c :: more → goesOn token written c = false) :
    EndsBefore token written rest := by
  refine ⟨stops, ?_⟩
  rintro value rfl
  cases isMark

def Parts (c : Char) : Prop := ∀ token written, goesOn token written c = false

theorem Parts.isDigit {c : Char} (parts : Parts c) : c.isDigit = false := parts (.integer 0) []

theorem parts_of_continuesName {c : Char} (noName : continuesName c = false)
    (noMark : c ∉ ['.', '=']) : Parts c := by
  have noDigit : c.isDigit = false := by
    cases digit : c.isDigit with
    | false => rfl
    | true => simp [continuesName, Char.isAlphanum, digit] at noName
  simp only [List.mem_cons, List.not_mem_nil, or_false, not_or] at noMark
  intro token written
  cases token <;> simp [goesOn, noName, noDigit, noMark]

theorem parts_of_isSpace {c : Char} (space : isSpace c = true) : Parts c := by
  simp only [isSpace, Bool.or_eq_true, beq_iff_eq] at space
  rcases space with ((rfl | rfl) | rfl) | rfl <;>
    exact parts_of_continuesName (by decide) (by decide)

/-- Where a token ends, it also ends if the text is cut behind it and a character follows that goes
on with no token. -/
theorem EndsBefore.part {token : Token} {written later rest other : List Char}
    (ends : EndsBefore token written (later ++ rest))
    (parts : ∀ c more, other = c :: more → Parts c) :
    EndsBefore token written (later ++ other) := by
  constructor
  · intro c more same
    cases later with
    | nil => exact parts c more same token written
    | cons first later =>
        cases same
        exact ends.next _ _ rfl
  · intro value integral c more same
    cases later with
    | nil =>
        have dot := parts '.' (c :: more) same .dot []
        cases dot
    | cons first later =>
        cases later with
        | nil =>
            cases same
            exact (parts c more rfl).isDigit
        | cons second later =>
            cases same
            exact ends.point value integral _ _ rfl

variable {position : Nat} {token : Token} {text written rest : List Char} {after : Cursor}

/-! ### Marks -/

theorem readToken_mark (isMark : token.isMark = true)
    (ends : EndsBefore token token.text.toList rest) (position : Nat) :
    readToken position (token.text.toList ++ rest) =
      .ok (token, ⟨position + token.text.toList.length, rest⟩) := by
  have apart {c : Char} (goes : goesOn token token.text.toList c = true) (more : List Char) :
      rest ≠ c :: more := by
    rintro rfl
    rw [ends.next c more rfl] at goes
    cases goes
  cases token with
  | dot =>
      change readToken position ('.' :: rest) = _
      rw [readToken]
      · rfl
      · exact apart rfl
  | equal =>
      change readToken position ('=' :: '=' :: rest) = _
      rw [readToken]
      · rfl
      · exact apart rfl
  | not =>
      change readToken position ('!' :: rest) = _
      rw [readToken]
      · rfl
      · exact apart rfl
  | less =>
      change readToken position ('<' :: rest) = _
      rw [readToken]
      · rfl
      · exact apart rfl
  | greater =>
      change readToken position ('>' :: rest) = _
      rw [readToken]
      · rfl
      · exact apart rfl
  | identifier | integer | decimal | string | trueWord | falseWord | nullWord => cases isMark
  | _ => rfl

/-! ### Words -/

/-- Characters that start names start names, digits start numbers. -/
theorem readToken_word {first : Char}
    (starts : (startsName first || first.isDigit) = true) (position : Nat) (rest : List Char) :
    readToken position (first :: rest) =
      if first.isDigit then readNumber position (first :: rest)
      else .ok (readName position (first :: rest)) := by
  have noMark : ∀ mark : Char, (startsName mark || mark.isDigit) = false → first ≠ mark := by
    rintro mark isMark rfl
    rw [starts] at isMark
    cases isMark
  unfold readToken
  split
  case h_21 c others _ _ _ _ _ _ _ _ _ _ _ _ _ _ _ _ _ _ _ _ same =>
    cases same
    cases digit : first.isDigit with
    | true => simp [noMark '\'' (by decide), noMark '"' (by decide)]
    | false =>
        have named : startsName first = true := by simpa [digit] using starts
        simp [noMark '\'' (by decide), noMark '"' (by decide), noMark '-' (by decide), named]
  all_goals
    rename_i same
    cases same
    try exact absurd starts (by decide)

theorem isDigit_of_startsName {c : Char} (starts : startsName c = true) : c.isDigit = false := by
  change (c.val ≥ '0'.val && c.val ≤ '9'.val) = false
  simp only [startsName, Bool.or_eq_true, beq_iff_eq, decide_eq_true_eq] at starts
  rcases starts with (letter | rfl) | beyond
  · change (decide (c.val ≥ 'A'.val ∧ c.val ≤ 'Z'.val) ||
      (decide (c.val ≥ 'a'.val) && decide (c.val ≤ 'z'.val))) = true at letter
    simp only [Bool.or_eq_true, Bool.and_eq_true, decide_eq_true_eq, Bool.and_eq_false_iff,
      decide_eq_false_iff_not, ge_iff_le, UInt32.le_iff_toNat_le, Char.reduceVal,
      UInt32.reduceToNat] at *
    omega
  · rfl
  · have code : c.toNat = c.val.toNat := rfl
    simp only [Bool.and_eq_false_iff, decide_eq_false_iff_not, ge_iff_le,
      UInt32.le_iff_toNat_le, Char.reduceVal, UInt32.reduceToNat]
    omega

theorem continuesName_of_startsName {c : Char} (starts : startsName c = true) :
    continuesName c = true := by
  simp only [startsName, Bool.or_eq_true] at starts
  rcases starts with (letter | underscore) | beyond
  · simp [continuesName, Char.isAlphanum, letter]
  · simp [continuesName, underscore]
  · simp [continuesName, beyond]

theorem goesOn_ofWord (word : String) (written : List Char) :
    goesOn (.ofWord word) written = continuesName := by
  unfold Token.ofWord
  split
  · rfl
  · split
    · rfl
    · split <;> rfl

theorem EndsBefore.ofWord (word : String)
    (stops : ∀ c more, rest = c :: more → continuesName c = false) :
    EndsBefore (.ofWord word) written rest := by
  refine ⟨fun c more same => ?_, ?_⟩
  · rw [goesOn_ofWord]
    exact stops c more same
  · have noInteger (value : Int) : Token.ofWord word ≠ .integer value := by
      unfold Token.ofWord
      split
      · nofun
      · split
        · nofun
        · split <;> nofun
    exact fun value integral => absurd integral (noInteger value)

theorem span_stop {p : Char → Bool} (each : ∀ c ∈ text, p c = true)
    (stops : ∀ c more, rest = c :: more → p c = false) :
    (text ++ rest).takeWhile p = text ∧ (text ++ rest).dropWhile p = rest := by
  have none : rest.takeWhile p = [] ∧ rest.dropWhile p = rest := by
    cases rest with
    | nil => simp
    | cons c more => simp [stops c more rfl]
  rw [List.takeWhile_append_of_pos each, List.dropWhile_append_of_pos each, none.1, none.2,
    List.append_nil]
  exact ⟨rfl, rfl⟩

theorem readToken_name {first : Char} {others : List Char} (starts : startsName first = true)
    (continues : ∀ c ∈ others, continuesName c = true)
    (stops : ∀ c more, rest = c :: more → continuesName c = false) (position : Nat) :
    readToken position (first :: others ++ rest) =
      .ok (.ofWord (String.ofList (first :: others)),
        ⟨position + Text.byteLength (first :: others), rest⟩) := by
  have each : ∀ c ∈ first :: others, continuesName c = true :=
    List.forall_mem_cons.mpr ⟨continuesName_of_startsName starts, continues⟩
  rw [List.cons_append, readToken_word (by simp [starts]), isDigit_of_startsName starts]
  rw [← List.cons_append, readName, (span_stop each stops).1, (span_stop each stops).2]
  rfl

/-! ### Numbers -/

def fractionOf : List Char → List Char
  | '.' :: more => more.takeWhile Char.isDigit
  | _ => []

theorem sign_signed {negative : Bool} {digits : List Char} (filled : digits ≠ [])
    (each : ∀ c ∈ digits, c.isDigit = true) :
    ((signed negative digits ++ rest).takeWhile (· == '-')).take 1 =
      (if negative then ['-'] else []) := by
  obtain ⟨first, others, rfl⟩ := List.exists_cons_of_ne_nil filled
  have unsigned : (first == '-') = false := by
    rw [beq_eq_false_iff_ne]
    rintro rfl
    exact absurd (each '-' (List.mem_cons_self ..)) (by decide)
  cases negative <;> simp [signed, unsigned]

theorem readNumber_signed {negative : Bool} {digits : List Char} (filled : digits ≠ [])
    (each : ∀ c ∈ digits, c.isDigit = true)
    (stops : ∀ c more, rest = c :: more → c.isDigit = false) (position : Nat) :
    readNumber position (signed negative digits ++ rest) =
      if (fractionOf rest).isEmpty then
        if Fits (signedValue negative digits) then
          .ok (.integer (signedValue negative digits),
            ⟨position + (signed negative digits).length, rest⟩)
        else .error ⟨.invalidLiteral .integer (String.ofList (signed negative digits)) position,
          ⟨position + (signed negative digits).length, rest⟩⟩
      else .ok (.decimal (String.ofList (signed negative digits ++ '.' :: fractionOf rest)),
        ⟨position + (signed negative digits ++ '.' :: fractionOf rest).length,
          rest.drop ((fractionOf rest).length + 1)⟩) := by
  have unsigned : (signed negative digits ++ rest).drop
      (if negative then ['-'] else []).length = digits ++ rest := by
    cases negative <;> rfl
  have whole : (if negative then ['-'] else []) ++ digits = signed negative digits := by
    cases negative <;> rfl
  have value : (if (if negative then ['-'] else []).isEmpty then (Text.digitsValue digits : Int)
      else -(Text.digitsValue digits : Int)) = signedValue negative digits := by
    cases negative <;> rfl
  unfold readNumber
  rw [sign_signed filled each]
  dsimp only
  rw [unsigned, (span_stop each stops).1, (span_stop each stops).2, whole, value]
  rfl

theorem readToken_signed {negative : Bool} {digits : List Char} (filled : digits ≠ [])
    (each : ∀ c ∈ digits, c.isDigit = true) (position : Nat) :
    readToken position (signed negative digits ++ rest) =
      readNumber position (signed negative digits ++ rest) := by
  obtain ⟨first, others, rfl⟩ := List.exists_cons_of_ne_nil filled
  have digit : first.isDigit = true := each first (List.mem_cons_self ..)
  cases negative with
  | false =>
      change readToken position (first :: (others ++ rest)) =
        readNumber position (first :: (others ++ rest))
      rw [readToken_word (by simp [digit]), if_pos digit]
  | true =>
      change readToken position ('-' :: first :: (others ++ rest)) =
        readNumber position ('-' :: first :: (others ++ rest))
      simp [readToken, digit]

theorem ascii_of_isDigit {c : Char} (digit : c.isDigit = true) : c.toNat < 128 := by
  simp only [Char.isDigit, Bool.and_eq_true, decide_eq_true_eq, ge_iff_le,
    UInt32.le_iff_toNat_le] at digit
  have nine : '9'.val.toNat = 57 := rfl
  have code : c.toNat = c.val.toNat := rfl
  omega

theorem byteLength_signed {negative : Bool} {digits : List Char}
    (ascii : ∀ c ∈ digits, c.toNat < 128) :
    Text.byteLength (signed negative digits) = (signed negative digits).length := by
  apply Text.byteLength_of_ascii
  cases negative with
  | false => exact ascii
  | true => exact List.forall_mem_cons.mpr ⟨by decide, ascii⟩

theorem fractionOf_integer {value : Int} {digits : List Char}
    (ends : EndsBefore (.integer value) digits rest) : fractionOf rest = [] := by
  unfold fractionOf
  split
  · rename_i more
    cases more with
    | nil => rfl
    | cons c more => simp [ends.point value rfl c more rfl]
  · rfl

theorem readToken_integer {negative : Bool} {digits : List Char} (filled : digits ≠ [])
    (each : ∀ c ∈ digits, c.isDigit = true) (fits : Fits (signedValue negative digits))
    (ends : EndsBefore (.integer (signedValue negative digits)) (signed negative digits) rest)
    (position : Nat) :
    readToken position (signed negative digits ++ rest) =
      .ok (.integer (signedValue negative digits),
        ⟨position + Text.byteLength (signed negative digits), rest⟩) := by
  rw [readToken_signed filled each, readNumber_signed filled each ends.next,
    fractionOf_integer ends, byteLength_signed fun c inside => ascii_of_isDigit (each c inside)]
  simp [fits]

theorem readToken_decimal {negative : Bool} {digits fraction : List Char} (filled : digits ≠ [])
    (filledFraction : fraction ≠ []) (each : ∀ c ∈ digits, c.isDigit = true)
    (eachFraction : ∀ c ∈ fraction, c.isDigit = true)
    (stops : ∀ c more, rest = c :: more → c.isDigit = false) (position : Nat) :
    readToken position (signed negative (digits ++ '.' :: fraction) ++ rest) =
      .ok (.decimal (String.ofList (signed negative (digits ++ '.' :: fraction))),
        ⟨position + Text.byteLength (signed negative (digits ++ '.' :: fraction)), rest⟩) := by
  have split : signed negative (digits ++ '.' :: fraction) ++ rest =
      signed negative digits ++ '.' :: (fraction ++ rest) := by
    rw [signed_append, signed_append, List.append_assoc, List.cons_append]
  have point : ∀ c more, '.' :: (fraction ++ rest) = c :: more → c.isDigit = false := by
    intro c more same
    cases same
    rfl
  have fractional : fractionOf ('.' :: (fraction ++ rest)) = fraction :=
    (span_stop eachFraction stops).1
  have ascii : ∀ c ∈ digits ++ '.' :: fraction, c.toNat < 128 := by
    intro c inside
    rcases List.mem_append.mp inside with before | behind
    · exact ascii_of_isDigit (each c before)
    · rcases List.mem_cons.mp behind with rfl | behind
      · decide
      · exact ascii_of_isDigit (eachFraction c behind)
  have written : fraction.isEmpty = false := by simpa using filledFraction
  rw [split, readToken_signed filled each, readNumber_signed filled each point, fractional,
    byteLength_signed ascii, written]
  simp [signed_append]

/-! ### Tokens -/

theorem isSpace_of_continuesName {c : Char} (continues : continuesName c = true) :
    isSpace c = false := by
  simp only [isSpace, Bool.or_eq_false_iff, beq_eq_false_iff_ne]
  refine ⟨⟨⟨?_, ?_⟩, ?_⟩, ?_⟩ <;> rintro rfl <;> exact absurd continues (by decide)

theorem continuesName_of_isDigit {c : Char} (digit : c.isDigit = true) :
    continuesName c = true := by
  simp [continuesName, Char.isAlphanum, digit]

theorem Writes.exists_cons (writes : Writes token written) :
    ∃ first others, written = first :: others ∧ isSpace first = false := by
  have number {negative : Bool} {digits more : List Char} (filled : digits ≠ [])
      (each : ∀ c ∈ digits, c.isDigit = true) :
      ∃ first others, signed negative digits ++ more = first :: others ∧ isSpace first = false := by
    rcases List.exists_cons_of_ne_nil filled with ⟨first, others, rfl⟩
    have digit : first.isDigit = true := each first (List.mem_cons_self ..)
    cases negative with
    | false => exact ⟨first, _, rfl, isSpace_of_continuesName (continuesName_of_isDigit digit)⟩
    | true => exact ⟨'-', _, rfl, rfl⟩
  cases writes with
  | mark isMark =>
      cases token with
      | identifier | integer | decimal | string | trueWord | falseWord | nullWord => cases isMark
      | _ => exact ⟨_, _, rfl, rfl⟩
  | tripleEqual => exact ⟨_, _, rfl, rfl⟩
  | name starts _ =>
      exact ⟨_, _, rfl, isSpace_of_continuesName (continuesName_of_startsName starts)⟩
  | @integer negative digits filled each _ =>
      rw [← List.append_nil (signed negative digits)]
      exact number filled each
  | decimal filled _ each _ =>
      rw [← signed_append]
      exact number filled each
  | @string quote _ _ isQuote _ =>
      have visible : isSpace quote = false := by
        rcases isQuote with rfl | rfl <;> rfl
      exact ⟨_, _, rfl, visible⟩

/-- A text that a token is written by is read as the token where the token ends. -/
theorem readToken_of_writes (writes : Writes token written) (ends : EndsBefore token written rest)
    (position : Nat) :
    readToken position (written ++ rest) =
      .ok (token, ⟨position + Text.byteLength written, rest⟩) := by
  cases writes with
  | mark isMark =>
      have all : token.text.toList.all (fun c => c.toNat < 128) = true := by
        cases token with
        | identifier | integer | decimal | string => cases isMark
        | _ => rfl
      have ascii : ∀ c ∈ token.text.toList, c.toNat < 128 := by simpa using all
      rw [Text.byteLength_of_ascii ascii]
      exact readToken_mark isMark ends position
  | tripleEqual => rfl
  | name starts continues =>
      have stops := ends.next
      rw [goesOn_ofWord] at stops
      exact readToken_name starts continues stops position
  | integer filled each fits => exact readToken_integer filled each fits ends position
  | decimal filled filledFraction each eachFraction =>
      exact readToken_decimal filled filledFraction each eachFraction ends.next position
  | @string quote body meant isQuote row =>
      rw [List.cons_append, List.append_assoc, List.singleton_append, readToken_quote isQuote,
        readString_append row, readString_closed (ne_backslash_of_isQuote isQuote)]
      simp [utf8Size_of_isQuote isQuote, Except.map, Nat.add_assoc]

theorem exists_signed {c : Char}
    (number : c.isDigit = true ∨ c = '-' ∧ text.head?.any Char.isDigit) :
    ∃ negative digits rest, c :: text = signed negative digits ++ rest ∧ digits ≠ [] ∧
      (∀ c ∈ digits, c.isDigit = true) ∧ ∀ c more, rest = c :: more → c.isDigit = false := by
  have digits (first : Char) (others : List Char) (digit : first.isDigit = true) :
      ∃ digits rest, first :: others = digits ++ rest ∧ digits ≠ [] ∧
        (∀ c ∈ digits, c.isDigit = true) ∧ ∀ c more, rest = c :: more → c.isDigit = false := by
    refine ⟨(first :: others).takeWhile Char.isDigit, (first :: others).dropWhile Char.isDigit,
      List.takeWhile_append_dropWhile.symm, ?_, fun c inside => List.mem_takeWhile_imp inside, ?_⟩
    · simp [digit]
    · intro c more same
      have stop := List.head?_dropWhile_not Char.isDigit (first :: others)
      rw [same] at stop
      simpa using stop
  rcases number with digit | ⟨rfl, digit⟩
  · rcases digits c text digit with ⟨digits, rest, same, filled, each, stops⟩
    exact ⟨false, digits, rest, same, filled, each, stops⟩
  · cases text with
    | nil => cases digit
    | cons first others =>
        rcases digits first others (by simpa using digit) with
          ⟨digits, rest, same, filled, each, stops⟩
        exact ⟨true, digits, rest, congrArg ('-' :: ·) same, filled, each, stops⟩

/-- A decimal is written by a sign, digits, a point and the longest run of digits behind it. -/
theorem exists_fraction (some : fractionOf rest ≠ []) :
    ∃ fraction more, rest = '.' :: (fraction ++ more) ∧ fraction ≠ [] ∧
      fractionOf rest = fraction ∧ (∀ c ∈ fraction, c.isDigit = true) ∧
      ∀ c tail, more = c :: tail → c.isDigit = false := by
  unfold fractionOf at some
  split at some
  · rename_i more
    refine ⟨more.takeWhile Char.isDigit, more.dropWhile Char.isDigit, ?_, some, rfl,
      fun c inside => List.mem_takeWhile_imp inside, ?_⟩
    · rw [List.takeWhile_append_dropWhile]
    · intro c tail same
      have stop := List.head?_dropWhile_not Char.isDigit more
      rw [same] at stop
      simpa using stop
  · exact absurd rfl some

theorem point_of_fractionOf (none : fractionOf rest = []) (c : Char) (more : List Char)
    (same : rest = '.' :: c :: more) : c.isDigit = false := by
  subst same
  cases digit : c.isDigit with
  | false => rfl
  | true => simp [fractionOf, digit] at none

/-! ### Faults -/

def NoToken (text : List Char) : Prop :=
  ∀ token written more, Writes token written → text ≠ written ++ more

/-- Why no token is read at the start of a text, and where: at a character that starts none, at a
number out of range, at the opening quote of a string that is not closed, or at a backslash in a
string that starts no escape. -/
inductive Refuses (position : Nat) : List Char → ParseError → Prop
  | character {c : Char} {rest : List Char} (noToken : NoToken (c :: rest)) :
      Refuses position (c :: rest) (.unexpectedCharacter c position)
  | integer {negative : Bool} {digits rest : List Char} (filled : digits ≠ [])
      (each : ∀ c ∈ digits, c.isDigit = true)
      (ends : ∀ value, EndsBefore (.integer value) (signed negative digits) rest)
      (outside : ¬Fits (signedValue negative digits)) :
      Refuses position (signed negative digits ++ rest)
        (.invalidLiteral .integer (String.ofList (signed negative digits)) position)
  | unclosed {quote : Char} {body meant tail : List Char} (isQuote : quote = '\'' ∨ quote = '"')
      (row : Decodes ReadEscape quote body meant) (last : tail = [] ∨ tail = ['\\']) :
      Refuses position (quote :: (body ++ tail)) (.unclosedString position)
  | escape {quote : Char} {body meant behind : List Char} (isQuote : quote = '\'' ∨ quote = '"')
      (row : Decodes ReadEscape quote body meant) (filled : behind ≠ [])
      (noEscape : NoEscape behind) :
      Refuses position (quote :: (body ++ '\\' :: behind))
        (.invalidEscape (blamedText behind) (position + 1 + Text.byteLength body))

inductive Answers (position : Nat) (text : List Char) : Except Halt (Token × Cursor) → Prop
  | token {token : Token} {written rest : List Char} (split : text = written ++ rest)
      (writes : Writes token written) (ends : EndsBefore token written rest) :
      Answers position text (.ok (token, ⟨position + Text.byteLength written, rest⟩))
  | fault {halt : Halt} (refuses : Refuses position text halt.error) :
      Answers position text (.error halt)

theorem Answers.of_writes (position : Nat) (writes : Writes token written)
    (ends : EndsBefore token written rest) :
    Answers position (written ++ rest)
      (.ok (token, ⟨position + Text.byteLength written, rest⟩)) :=
  .token rfl writes ends

theorem answers_number {c : Char}
    (number : c.isDigit = true ∨ c = '-' ∧ text.head?.any Char.isDigit) (position : Nat) :
    Answers position (c :: text) (readNumber position (c :: text)) := by
  rcases exists_signed number with ⟨negative, digits, rest, same, filled, each, stops⟩
  rw [same, readNumber_signed filled each stops]
  cases none : fractionOf rest with
  | nil =>
      have ends (value : Int) : EndsBefore (.integer value) (signed negative digits) rest :=
        ⟨stops, fun _ _ => point_of_fractionOf none⟩
      have ascii : Text.byteLength (signed negative digits) = (signed negative digits).length :=
        byteLength_signed fun c inside => ascii_of_isDigit (each c inside)
      rw [List.isEmpty_nil, if_pos rfl, ← ascii]
      split
      · rename_i fits
        exact .token rfl (.integer filled each fits) (ends _)
      · rename_i outside
        exact .fault (.integer filled each ends outside)
  | cons digit others =>
      have some : fractionOf rest ≠ [] := by simp [none]
      rcases exists_fraction some with
        ⟨fraction, more, rfl, filledFraction, fractional, eachFraction, stopsFraction⟩
      have ascii : ∀ c ∈ digits ++ '.' :: fraction, c.toNat < 128 := by
        intro c inside
        rcases List.mem_append.mp inside with before | behind
        · exact ascii_of_isDigit (each c before)
        · rcases List.mem_cons.mp behind with rfl | behind
          · decide
          · exact ascii_of_isDigit (eachFraction c behind)
      have written : fraction.isEmpty = false := by simpa using filledFraction
      have split : signed negative digits ++ '.' :: (fraction ++ more) =
          signed negative (digits ++ '.' :: fraction) ++ more := by
        rw [signed_append, signed_append, List.append_assoc, List.cons_append]
      rw [← none, fractional, written, split]
      have writes : Writes (.decimal (String.ofList (signed negative (digits ++ '.' :: fraction))))
          (signed negative (digits ++ '.' :: fraction)) :=
        .decimal filled filledFraction each eachFraction
      have answer := Answers.of_writes position writes ⟨stopsFraction, nofun⟩
      rw [byteLength_signed ascii] at answer
      simpa [signed_append] using answer

theorem answers_quote {quote : Char} (isQuote : quote = '\'' ∨ quote = '"') (position : Nat)
    (text : List Char) :
    Answers position (quote :: text)
      ((readLiteral quote position text).map fun read => (.string read.1, read.2)) := by
  have noBackslash := ne_backslash_of_isQuote isQuote
  have single := utf8Size_of_isQuote isQuote
  rcases exists_row quote text with ⟨body, meant, tail, rfl, row, ends⟩
  rw [readLiteral_eq noBackslash, readString_append row]
  cases ends with
  | closed rest =>
      rw [readString_closed noBackslash]
      have answer := Answers.of_writes position (.string isQuote row) (endsBefore_string _ _ rest)
      simpa [single, Except.map, Nat.add_assoc] using answer
  | bad filled noEscape =>
      rw [readString_bad filled noEscape]
      exact .fault (.escape isQuote row filled noEscape)
  | cut => exact .fault (.unclosed isQuote row (Or.inr rfl))
  | done => exact .fault (.unclosed isQuote row (Or.inl rfl))

theorem answers_name {c : Char} (starts : startsName c = true) (position : Nat)
    (text : List Char) :
    Answers position (c :: text) (.ok (readName position (c :: text))) := by
  have continues : ∀ d ∈ text.takeWhile continuesName, continuesName d = true :=
    fun d inside => List.mem_takeWhile_imp inside
  have stops : ∀ d more, text.dropWhile continuesName = d :: more → continuesName d = false := by
    intro d more same
    have stop := List.head?_dropWhile_not continuesName text
    rw [same] at stop
    simpa using stop
  have read := readToken_name starts continues stops position
  rw [List.cons_append, List.takeWhile_append_dropWhile, readToken_word (by simp [starts]),
    isDigit_of_startsName starts] at read
  have named : c :: text = c :: text.takeWhile continuesName ++ text.dropWhile continuesName := by
    rw [List.cons_append, List.takeWhile_append_dropWhile]
  rw [show readName position (c :: text) = _ from Except.ok.inj read, named]
  exact .of_writes position (.name starts continues) (.ofWord _ stops)

theorem answers_mark (token : Token) (isMark : token.isMark = true) {rest : List Char}
    (stops : ∀ c more, rest = c :: more → goesOn token token.text.toList c = false) :
    Answers position (token.text.toList ++ rest)
      (.ok (token, ⟨position + Text.byteLength token.text.toList, rest⟩)) :=
  .of_writes position (.mark isMark) (.of_isMark isMark stops)

theorem noToken_of_first {c : Char}
    (noMark : ∀ token : Token, token.isMark = true → ∀ more, c :: text ≠ token.text.toList ++ more)
    (noQuote : ¬(c = '\'' ∨ c = '"'))
    (noNumber : ¬(c.isDigit = true ∨ c = '-' ∧ text.head?.any Char.isDigit))
    (noName : startsName c = false) : NoToken (c :: text) := by
  intro token written more writes same
  have number {negative : Bool} {digits others : List Char} (filled : digits ≠ [])
      (each : ∀ d ∈ digits, d.isDigit = true) : c :: text ≠ signed negative digits ++ others := by
    rcases List.exists_cons_of_ne_nil filled with ⟨first, rest, rfl⟩
    have digit : first.isDigit = true := each first (List.mem_cons_self ..)
    intro same
    cases negative with
    | false =>
        cases same
        exact noNumber (Or.inl digit)
    | true =>
        cases same
        exact noNumber (Or.inr ⟨rfl, by simp [digit]⟩)
  cases writes with
  | mark isMark => exact noMark token isMark more same
  | tripleEqual => exact noMark .equal rfl ('=' :: more) same
  | name starts _ =>
      cases same
      rw [starts] at noName
      cases noName
  | integer filled each _ => exact number filled each same
  | decimal filled _ each _ =>
      rw [← signed_append, List.append_assoc] at same
      exact number filled each same
  | string isQuote _ =>
      cases same
      exact noQuote isQuote

theorem answers_readToken (filled : text ≠ []) (position : Nat) :
    Answers position text (readToken position text) := by
  have stops {rest : List Char} {mark : Char} (other : ∀ more, rest = mark :: more → False) :
      ∀ c more, rest = c :: more → (c == mark) = false := by
    intro c more same
    rw [beq_eq_false_iff_ne]
    rintro rfl
    exact other more same
  unfold readToken
  split
  case h_1 => exact answers_mark .dotDot rfl fun _ _ _ => rfl
  case h_2 single => exact answers_mark .dot rfl (stops single)
  case h_3 => exact answers_mark .leftBracket rfl fun _ _ _ => rfl
  case h_4 => exact answers_mark .rightBracket rfl fun _ _ _ => rfl
  case h_5 => exact answers_mark .leftParen rfl fun _ _ _ => rfl
  case h_6 => exact answers_mark .rightParen rfl fun _ _ _ => rfl
  case h_7 => exact answers_mark .star rfl fun _ _ _ => rfl
  case h_8 => exact answers_mark .dollar rfl fun _ _ _ => rfl
  case h_9 => exact answers_mark .at rfl fun _ _ _ => rfl
  case h_10 => exact answers_mark .question rfl fun _ _ _ => rfl
  case h_11 => exact .token rfl .tripleEqual ⟨fun _ _ _ => rfl, nofun⟩
  case h_12 single => exact answers_mark .equal rfl (stops single)
  case h_13 => exact answers_mark .notEqual rfl fun _ _ _ => rfl
  case h_14 single => exact answers_mark .not rfl (stops single)
  case h_15 => exact answers_mark .lessOrEqual rfl fun _ _ _ => rfl
  case h_16 single => exact answers_mark .less rfl (stops single)
  case h_17 => exact answers_mark .greaterOrEqual rfl fun _ _ _ => rfl
  case h_18 single => exact answers_mark .greater rfl (stops single)
  case h_19 => exact answers_mark .and rfl fun _ _ _ => rfl
  case h_20 => exact answers_mark .or rfl fun _ _ _ => rfl
  case h_22 => exact absurd rfl filled
  case h_21 c rest noDots noDot noLeft noRight noOpen noClose noStar noDollar noAt noQuestion _
      noEqual noNotEqual noNot noLessOrEqual noLess noGreaterOrEqual noGreater noAnd noOr =>
    dsimp only
    by_cases isQuote : c = '\'' ∨ c = '"'
    · rw [if_pos (by simpa using isQuote)]
      exact answers_quote isQuote position rest
    rw [if_neg (by simpa using isQuote)]
    by_cases number : c.isDigit = true ∨ c = '-' ∧ rest.head?.any Char.isDigit
    · rw [if_pos (by simpa using number)]
      exact answers_number number position
    rw [if_neg (by simpa using number)]
    cases starts : startsName c with
    | true => exact answers_name starts position rest
    | false =>
        refine .fault (.character (noToken_of_first ?_ isQuote number starts))
        intro token isMark more same
        cases token with
        | dot => exact noDot (List.cons.inj same).1
        | dotDot => exact noDot (List.cons.inj same).1
        | leftBracket => exact noLeft (List.cons.inj same).1
        | rightBracket => exact noRight (List.cons.inj same).1
        | leftParen => exact noOpen (List.cons.inj same).1
        | rightParen => exact noClose (List.cons.inj same).1
        | star => exact noStar (List.cons.inj same).1
        | dollar => exact noDollar (List.cons.inj same).1
        | question => exact noQuestion (List.cons.inj same).1
        | notEqual => exact noNot (List.cons.inj same).1
        | not => exact noNot (List.cons.inj same).1
        | lessOrEqual => exact noLess (List.cons.inj same).1
        | less => exact noLess (List.cons.inj same).1
        | greaterOrEqual => exact noGreater (List.cons.inj same).1
        | greater => exact noGreater (List.cons.inj same).1
        | equal => exact noEqual more (List.cons.inj same).1 (List.cons.inj same).2
        | and => exact noAnd more (List.cons.inj same).1 (List.cons.inj same).2
        | or => exact noOr more (List.cons.inj same).1 (List.cons.inj same).2
        | identifier | integer | decimal | string | trueWord | falseWord | nullWord => cases isMark
        | _ => exact noAt (List.cons.inj same).1

/-- A text starts with a token, and is read on behind it, exactly if the token is read there. -/
theorem readToken_eq_ok_iff (filled : text ≠ []) :
    readToken position text = .ok (token, after) ↔
      ∃ written rest, text = written ++ rest ∧ Writes token written ∧
        EndsBefore token written rest ∧ after = ⟨position + Text.byteLength written, rest⟩ := by
  constructor
  · intro read
    have answer := answers_readToken filled position
    rw [read] at answer
    cases answer with
    | @token _ written rest split writes ends => exact ⟨written, rest, split, writes, ends, rfl⟩
  · rintro ⟨written, rest, rfl, writes, ends, rfl⟩
    exact readToken_of_writes writes ends position

end Lexer

end TemplateFill
