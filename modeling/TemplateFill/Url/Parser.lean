import TemplateFill.Url.Basic

/-!
Reading URLs.

Control characters and spaces at the ends, and tabs and line breaks anywhere, are dropped. The text is
taken apart from the left: scheme, credentials, host, port, path, query and fragment. Paths lose their
`.` segments, and each `..` takes the segment before it away unless that is the letter of a drive.
-/

namespace TemplateFill

namespace Url

/-! ### Cleaning -/

def isOuterSpace (c : Char) : Bool := c.toNat ≤ 0x20

def isBreak (c : Char) : Bool := c == '\t' || c == '\n' || c == '\r'

def trimmed (text : List Char) : List Char :=
  ((text.dropWhile isOuterSpace).reverse.dropWhile isOuterSpace).reverse

def unbroken (text : List Char) : List Char := text.filter fun c => !isBreak c

/-! ### Scheme -/

def continuesScheme (c : Char) : Bool := c.isAlphanum || c == '+' || c == '-' || c == '.'

def readScheme? (text : List Char) : Option (String × List Char) :=
  match text.dropWhile continuesScheme with
  | ':' :: rest =>
      if text.head?.any Char.isAlpha then
        some (String.ofList ((text.takeWhile continuesScheme).map Char.toLower), rest)
      else none
  | _ => none

/-! ### Query and fragment -/

def readTail (special : Bool) (text : List Char) : Option (List Char) × Option (List Char) :=
  let beforeHash := text.takeWhile (· != '#')
  let fragment? := match text.dropWhile (· != '#') with
    | '#' :: rest => some (percentEncode inFragmentSet rest)
    | _ => none
  let query? := match beforeHash with
    | '?' :: rest => some (percentEncode (inQuerySet special) rest)
    | _ => none
  (query?, fragment?)

def endsPath (c : Char) : Bool := c == '?' || c == '#'

/-! ### Paths -/

def isSlash (kind : SchemeKind) (c : Char) : Bool := c == '/' || (kind != .other && c == '\\')

def isSingleDot (name : List Char) : Bool :=
  name.map Char.toLower == ['.'] || name.map Char.toLower == ['%', '2', 'e']

def isDoubleDot (name : List Char) : Bool :=
  [['.', '.'], ['.', '%', '2', 'e'], ['%', '2', 'e', '.'], ['%', '2', 'e', '%', '2', 'e']].contains
    (name.map Char.toLower)

def isDriveLetter (name : List Char) : Bool :=
  match name with
  | [letter, mark] => letter.isAlpha && (mark == ':' || mark == '|')
  | _ => false

/-- Segments that `..` does not take away: the letter of a drive, alone or before a backslash. -/
def staysPut (name : List Char) : Bool :=
  isDriveLetter (name.take 2) && (name.drop 2).head?.all (· == '\\')

def shorten (names : List (List Char)) : List (List Char) :=
  if names.getLast?.any staysPut then names else names.dropLast

def cutAtDrive? (broken : List Char) : Option (List Char × List Char) :=
  match unbroken (broken.takeWhile (· != ':')) with
  | [letter] =>
      match broken.dropWhile (· != ':') with
      | ':' :: c :: rest =>
          if letter.isAlpha && isBreak c && !(unbroken rest).isEmpty then
            some ([letter, ':'], unbroken rest)
          else none
      | _ => none
  | _ => none

structure Trail where
  names : List (List Char)
  /-- The path of a file started with the letter of a drive, which leaves it no host. -/
  onDrive : Bool

def Trail.startFile (broken name : List Char) : Trail :=
  match cutAtDrive? broken with
  | some (drive, behind) => ⟨[drive, percentEncode inPathSet behind], false⟩
  | none =>
      if isDriveLetter name then ⟨[[name.headD 'a', ':']], true⟩ else ⟨[name], false⟩

def resolve (kind : SchemeKind) (trail : Trail) : List (List Char) → Trail
  | [] => trail
  | broken :: rest =>
      let name := percentEncode inPathSet (unbroken broken)
      let ending : List (List Char) := if rest.isEmpty then [[]] else []
      if isDoubleDot name then
        resolve kind { trail with names := shorten trail.names ++ ending } rest
      else if isSingleDot name then
        resolve kind { trail with names := trail.names ++ ending } rest
      else if kind == .file && trail.names.isEmpty then
        let started := Trail.startFile broken name
        resolve kind { started with onDrive := trail.onDrive || started.onDrive } rest
      else resolve kind { trail with names := trail.names ++ [name] } rest

def readTrail (kind : SchemeKind) (text : List Char) : Trail :=
  resolve kind ⟨[], false⟩ (Text.splitWhere (isSlash kind) text)

def Trail.location (kind : SchemeKind) (trail : Trail) : Location :=
  if kind == .file then
    match trail.names.dropWhile List.isEmpty with
    | [] => .segments [[]]
    | kept => .segments kept
  else .segments trail.names

/-- Reads the path, query and fragment behind an authority; the first slash only starts the path. -/
def readAfterAuthority (scheme : String) (authority : Authority) (text : List Char) : Url :=
  let kind := schemeKind scheme
  let path := text.takeWhile fun c => !endsPath c
  let (query?, fragment?) := readTail (kind != .other) (text.dropWhile fun c => !endsPath c)
  let location :=
    match path with
    | [] => if kind == .other then .segments [] else .segments [[]]
    | c :: rest => (readTrail kind (if isSlash kind c then rest else path)).location kind
  ⟨scheme, some authority, location, query?, fragment?⟩

/-! ### Authorities -/

def endsAuthority (kind : SchemeKind) (c : Char) : Bool := isSlash kind c || endsPath c

def splitAtLast? (separator : Char) (text : List Char) : Option (List Char × List Char) :=
  let after := text.reverse.takeWhile (· != separator)
  if after.length = text.length then none
  else some (text.take (text.length - after.length - 1), after.reverse)

def readCredentials (text : List Char) : List Char × List Char :=
  (percentEncode inUserinfoSet (text.takeWhile (· != ':')),
    percentEncode inUserinfoSet ((text.dropWhile (· != ':')).drop 1))

def hostLength : Bool → List Char → Nat
  | _, [] => 0
  | inside, c :: rest =>
      if c = ':' && !inside then 0
      else hostLength (if c = '[' then true else if c = ']' then false else inside) rest + 1

/-- Reads a port; the default one and an empty one are absent. -/
def readPort (scheme : String) (digits : List Char) : Except UrlError (Option Nat) :=
  if digits.isEmpty then .ok none
  else if !digits.all Char.isDigit then .error .invalidPort
  else
    let port := digits.foldl (fun total c => total * 10 + (c.toNat - '0'.toNat)) 0
    if 65535 < port then .error .invalidPort
    else .ok (if defaultPort? scheme == some port then none else some port)

/-- Reads a host and a port; also answers with what is left. A backslash ends a port in every scheme,
although it is no slash in some. -/
def readHostAndPort (scheme : String) (text : List Char) :
    Except UrlError (Host × Option Nat × List Char) := do
  let kind := schemeKind scheme
  let name := text.take (hostLength false text)
  let rest := text.drop (hostLength false text)
  if kind == .special && name.isEmpty then throw .emptyHost
  let host ← if kind == .other then Host.parseOpaque name else Host.parse name
  match rest with
  | ':' :: digits =>
      if host == .name [] then throw .emptyHost
      let port? ← readPort scheme (digits.takeWhile (· != '\\'))
      return (host, port?, digits.dropWhile (· != '\\'))
  | _ => return (host, none, [])

def readAuthority (scheme : String) (text : List Char) : Except UrlError Url := do
  let kind := schemeKind scheme
  let whole := text.takeWhile fun c => !endsAuthority kind c
  let rest := text.dropWhile fun c => !endsAuthority kind c
  match splitAtLast? '@' whole with
  | none =>
      let (host, port?, left) ← readHostAndPort scheme whole
      return readAfterAuthority scheme ⟨[], [], host, port?⟩ (left ++ rest)
  | some (credentials, address) =>
      if credentials.isEmpty && address.isEmpty && !rest.isEmpty then throw .emptyHost
      let (userName, password) := readCredentials credentials
      let (host, port?, left) ← readHostAndPort scheme address
      if host == .name [] && !(userName.isEmpty && password.isEmpty) then throw .emptyHost
      return readAfterAuthority scheme ⟨userName, password, host, port?⟩ (left ++ rest)

/-! ### Files -/

def afterSlash? (text : List Char) : Option (List Char) :=
  match text.dropWhile isBreak with
  | [] => none
  | c :: rest => if isSlash .file c then some rest else none

def readFilePath (host : Host) (text : List Char) : Url :=
  let trail := readTrail .file (text.takeWhile fun c => !endsPath c)
  let (query?, fragment?) := readTail true (unbroken (text.dropWhile fun c => !endsPath c))
  let kept := if trail.onDrive then .name [] else host
  ⟨"file", some ⟨[], [], kept, none⟩, trail.location .file, query?, fragment?⟩

/-- Reads what stands behind the two slashes of a file. If that names no host, a slash in front of
the path ends an empty segment, so that a drive's letter behind it does not start the path. -/
def readFileHost (text : List Char) : Except UrlError Url := do
  let name := unbroken (text.takeWhile fun c => !endsAuthority .file c)
  let rest := text.dropWhile fun c => !endsAuthority .file c
  if isDriveLetter name then return readFilePath (.name []) text
  else if name.isEmpty then return readFilePath (.name []) rest
  else
    let host ← Host.parse name
    if host == .name "localhost".toList then return readFilePath (.name []) rest
    else return readFilePath host ((afterSlash? rest).getD rest)

def readFile (text : List Char) : Except UrlError Url :=
  match afterSlash? text with
  | none => .ok (readFilePath (.name []) text)
  | some after =>
      match afterSlash? after with
      | none => .ok (readFilePath (.name []) after)
      | some rest => readFileHost rest

/-! ### Whole URLs -/

def readOther (scheme : String) (text : List Char) : Except UrlError Url :=
  match text with
  | '/' :: '/' :: rest => readAuthority scheme rest
  | _ =>
      let path := text.takeWhile fun c => !endsPath c
      let (query?, fragment?) := readTail false (text.dropWhile fun c => !endsPath c)
      let location := match path with
        | '/' :: names => (readTrail .other names).location .other
        | _ => .opaqueText (percentEncode isControl path)
      .ok ⟨scheme, none, location, query?, fragment?⟩

def parse (text : String) : Except UrlError Url :=
  let kept := trimmed text.toList
  match readScheme? (unbroken kept) with
  | none => .error .relativeWithoutBase
  | some (scheme, rest) =>
      match schemeKind scheme with
      | .file => readFile ((kept.dropWhile (· != ':')).drop 1)
      | .special => readAuthority scheme (rest.dropWhile (isSlash .special))
      | .other => readOther scheme rest

end Url

end TemplateFill
