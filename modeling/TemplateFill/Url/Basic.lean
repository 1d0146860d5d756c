import TemplateFill.Url.Host

/-!
URLs and their text.

A special scheme has a host and a path of segments. In other schemes the host may be absent, and
then a path that does not start with a slash is kept as one opaque text.
-/

namespace TemplateFill

namespace Url

inductive SchemeKind where
  | file
  | special
  | other
deriving DecidableEq

def schemeKind (scheme : String) : SchemeKind :=
  if scheme = "file" then .file
  else if ["http", "https", "ws", "wss", "ftp"].contains scheme then .special
  else .other

def defaultPort? (scheme : String) : Option Nat :=
  match scheme with
  | "http" => some 80
  | "ws" => some 80
  | "https" => some 443
  | "wss" => some 443
  | "ftp" => some 21
  | _ => none

/-- Who to ask, and as whom. Names and passwords are encoded; an empty one is absent. -/
structure Authority where
  userName : List Char
  password : List Char
  host : Host
  port? : Option Nat

/-- A path: segments after slashes, or an opaque text. -/
inductive Location where
  | segments (names : List (List Char))
  | opaqueText (text : List Char)

end Url

structure Url where
  scheme : String
  authority? : Option Url.Authority
  location : Url.Location
  query? : Option (List Char)
  fragment? : Option (List Char)

namespace Url

/-! ### Text -/

def credentialsText (authority : Authority) : List Char :=
  if authority.userName.isEmpty && authority.password.isEmpty then []
  else if authority.password.isEmpty then authority.userName ++ ['@']
  else authority.userName ++ ':' :: authority.password ++ ['@']

def authorityText (authority : Authority) : List Char :=
  let port := match authority.port? with
    | some port => ':' :: Nat.toDigits 10 port
    | none => []
  credentialsText authority ++ authority.host.text ++ port

def segmentsText (names : List (List Char)) : List Char :=
  names.flatMap fun name => '/' :: name

/-- Writes a path. Without a host, a path that starts with an empty segment is set apart from the
slashes of a host by a dot. -/
def locationText (hasHost : Bool) : Location → List Char
  | .opaqueText text => text
  | .segments names =>
      match names with
      | [] :: _ :: _ => (if hasHost then [] else ['/', '.']) ++ segmentsText names
      | _ => segmentsText names

def markedText (mark : Char) : Option (List Char) → List Char
  | some text => mark :: text
  | none => []

def text (url : Url) : String :=
  let authority := match url.authority? with
    | some authority => '/' :: '/' :: authorityText authority
    | none => []
  String.ofList (url.scheme.toList ++ ':' :: authority
    ++ locationText url.authority?.isSome url.location
    ++ markedText '?' url.query? ++ markedText '#' url.fragment?)

/-- The URL without a user name and a password, unless the name is no encoded text. -/
def withoutCredentials (url : Url) : Url :=
  match url.authority? with
  | none => url
  | some authority =>
      let readable := (percentDecodedText? authority.userName).isSome
      let present := !authority.userName.isEmpty
        || (!authority.password.isEmpty && (percentDecodedText? authority.password).isSome)
      if readable && present then
        { url with authority? := some { authority with userName := [], password := [] } }
      else url

end Url

end TemplateFill
