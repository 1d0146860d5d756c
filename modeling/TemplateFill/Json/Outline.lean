import TemplateFill.Json.Reader

/-!
Reading records: the named fields of an object or the fields of an array in their order.

A text is first split into the texts of its parts. Splitting checks the grammar of every part but
not its meaning, so that a part that nobody asks for may hold numbers beyond binary64, halves of
surrogate pairs and any depth of nesting.
-/

namespace TemplateFill

namespace Json

/-! ### Passing over parts -/

def afterEscape? : List Char → Option (List Char)
  | 'u' :: rest => (readHex? rest).map Prod.snd
  | c :: rest =>
      if ['"', '\\', '/', 'b', 'f', 'n', 'r', 't'].contains c then some rest else none
  | [] => none

def afterString? : Nat → List Char → Option (List Char)
  | 0, _ => none
  | _, [] => none
  | steps + 1, c :: rest =>
      if c = '"' then some rest
      else if c = '\\' then (afterEscape? rest).bind (afterString? steps)
      else if c.toNat < 0x20 then none
      else afterString? steps rest

def afterUnsigned? (text : List Char) : Option (List Char) := do
  let digits := text.takeWhile Char.isDigit
  if digits.isEmpty || (digits.head? == some '0' && digits.length != 1) then none
  else
    let (_, afterFraction) ← readFraction? (text.dropWhile Char.isDigit)
    let (_, rest) ← readExponent? afterFraction
    return rest

mutual

def afterValue? : Nat → List Char → Option (List Char)
  | 0, _ => none
  | steps + 1, text =>
      match skipSpace text with
      | [] => none
      | '"' :: rest => afterString? (rest.length + 1) rest
      | '[' :: rest =>
          match skipSpace rest with
          | ']' :: rest => some rest
          | rest => afterElements? steps rest
      | '\x7b' :: rest =>
          match skipSpace rest with
          | '\x7d' :: rest => some rest
          | rest => afterMembers? steps rest
      | 'n' :: rest => afterWord? ['u', 'l', 'l'] rest
      | 't' :: rest => afterWord? ['r', 'u', 'e'] rest
      | 'f' :: rest => afterWord? ['a', 'l', 's', 'e'] rest
      | '-' :: rest => afterUnsigned? rest
      | text => afterUnsigned? text

def afterElements? : Nat → List Char → Option (List Char)
  | 0, _ => none
  | steps + 1, text =>
      match afterValue? steps text with
      | none => none
      | some rest =>
          match skipSpace rest with
          | ',' :: rest => afterElements? steps rest
          | ']' :: rest => some rest
          | _ => none

def afterMembers? : Nat → List Char → Option (List Char)
  | 0, _ => none
  | steps + 1, text =>
      match skipSpace text with
      | '"' :: rest =>
          match (afterString? (rest.length + 1) rest).map skipSpace with
          | some (':' :: rest) =>
              match afterValue? steps rest with
              | none => none
              | some rest =>
                  match skipSpace rest with
                  | ',' :: rest => afterMembers? steps rest
                  | '\x7d' :: rest => some rest
                  | _ => none
          | _ => none
      | _ => none

end

/-- Splits a value off the start of a text: the value's own text, and the text after it. Each step
takes at least one character, so the bound on steps is never met. -/
def splitValue? (text : List Char) : Option (List Char × List Char) :=
  (afterValue? (2 * text.length + 2) text).map fun rest =>
    (text.take (text.length - rest.length), rest)

/-! ### Outlines -/

inductive Outline where
  | object (members : List (String × List Char))
  | array (elements : List (List Char))

def splitElements? : Nat → List Char → Option (List (List Char) × List Char)
  | 0, _ => none
  | steps + 1, text =>
      match splitValue? text with
      | none => none
      | some (element, rest) =>
          match skipSpace rest with
          | ',' :: rest =>
              (splitElements? steps rest).map fun split => (element :: split.1, split.2)
          | ']' :: rest => some ([element], rest)
          | _ => none

def splitMembers? : Nat → List Char → Option (List (String × List Char) × List Char)
  | 0, _ => none
  | steps + 1, text =>
      match skipSpace text with
      | '"' :: rest =>
          match readString? (rest.length + 1) [] rest with
          | none => none
          | some (key, rest) =>
              match skipSpace rest with
              | ':' :: rest =>
                  match splitValue? rest with
                  | none => none
                  | some (value, rest) =>
                      match skipSpace rest with
                      | ',' :: rest =>
                          (splitMembers? steps rest).map fun split =>
                            ((key, value) :: split.1, split.2)
                      | '\x7d' :: rest => some ([(key, value)], rest)
                      | _ => none
              | _ => none
      | _ => none

def splitParts? (text : List Char) : Option (Outline × List Char) :=
  match skipSpace text with
  | '[' :: rest =>
      match skipSpace rest with
      | ']' :: rest => some (.array [], rest)
      | rest => (splitElements? (rest.length + 1) rest).map fun split => (.array split.1, split.2)
  | '\x7b' :: rest =>
      match skipSpace rest with
      | '\x7d' :: rest => some (.object [], rest)
      | rest => (splitMembers? (rest.length + 1) rest).map fun split => (.object split.1, split.2)
  | _ => none

def outline? (text : List Char) : Option Outline :=
  match splitParts? text with
  | some (outline, rest) => if (skipSpace rest).isEmpty then some outline else none
  | none => none

/-! ### Records -/

inductive Presence where
  | required
  /-- It may be left out of an object, but not of an array. -/
  | optional
  /-- It may be left out of an object, and with all fields after it of an array. -/
  | defaulted
deriving DecidableEq

abbrev RecordLayout := List (String × Presence)

/-- The texts of the fields in an object. A field given twice is refused, and so is a field that is
required but missing; other members are ignored. -/
def fieldsOfMembers? (members : List (String × List Char)) :
    RecordLayout → Option (List (Option (List Char)))
  | [] => some []
  | (name, presence) :: rest => do
      let field ←
        match members.filter fun member => member.1 == name with
        | [] => if presence = .required then none else some none
        | [(_, text)] => some (some text)
        | _ => none
      return field :: (← fieldsOfMembers? members rest)

def fieldsOfElements? : List (List Char) → RecordLayout → Option (List (Option (List Char)))
  | [], [] => some []
  | [], (_, presence) :: rest =>
      if presence = .defaulted then (fieldsOfElements? [] rest).map (none :: ·) else none
  | _ :: _, [] => none
  | text :: texts, _ :: rest => (fieldsOfElements? texts rest).map (some text :: ·)

def fields? (layout : RecordLayout) (text : List Char) : Option (List (Option (List Char))) :=
  match outline? text with
  | some (.object members) => fieldsOfMembers? members layout
  | some (.array elements) => fieldsOfElements? elements layout
  | none => none

/-! ### Values of fields -/

def parseField? (text : List Char) : Option Json := parse? (String.ofList text)

def textField? (text : List Char) : Option String := (parseField? text).bind string?

def boolField? (text : List Char) : Option Bool :=
  match parseField? text with
  | some (.scalar (.bool value)) => some value
  | _ => none

def wordField? (text : List Char) : Option UInt64 :=
  match parseField? text with
  | some (.scalar (.number (.integer value))) =>
      if value < 0 then none else some (UInt64.ofNat value.toNat)
  | _ => none

def listField? {α : Type} (element? : List Char → Option α) (text : List Char) : Option (List α) :=
  match outline? text with
  | some (.array elements) => elements.mapM element?
  | _ => none

def optionalField? {α : Type} (value? : List Char → Option α) :
    Option (List Char) → Option (Option α)
  | none => some none
  | some text =>
      match parseField? text with
      | some (.scalar .null) => some none
      | _ => (value? text).map some

end Json

end TemplateFill
