import TemplateFill.Url.Domain

/-!
Hosts of URLs: domains, addresses of four and of sixteen bytes, and opaque names.

In a special scheme a host is decoded and written in ASCII; if it ends in a number it has to be an
address. In other schemes a host is kept, with control characters encoded.
-/

namespace TemplateFill

inductive UrlError where
  | relativeWithoutBase
  | emptyHost
  | invalidPort
  | invalidDomain
  | invalidHostCharacter
  | invalidFourByteAddress
  | invalidSixteenByteAddress
deriving DecidableEq

def UrlError.message : UrlError → String
  | relativeWithoutBase => "relative URL without a base"
  | emptyHost => "empty host"
  | invalidPort => "invalid port number"
  | invalidDomain => "invalid international domain name"
  | invalidHostCharacter => "invalid domain character"
  | invalidFourByteAddress => "invalid IPv4 address"
  | invalidSixteenByteAddress => "invalid IPv6 address"

inductive Host where
  | name (text : List Char)
  | fourBytes (address : Nat)
  /-- Eight pieces of two bytes -/
  | sixteenBytes (pieces : List Nat)
deriving DecidableEq

namespace Host

/-! ### Addresses of four bytes -/

inductive PartNumber where
  | invalid
  | overflow
  | value (number : Nat)

def digitsIn? (base : Nat) (digits : List Char) : Option Nat :=
  digits.foldlM (fun total c =>
    (Text.hexDigit? c).bind fun digit =>
      if digit < base then some (total * base + digit) else none) 0

/-- Reads a part of an address: decimal, octal after a zero, or hexadecimal after `0x`. -/
def partNumber (part : List Char) : PartNumber :=
  let (base, digits) : Nat × List Char :=
    match part with
    | '0' :: 'x' :: rest => (16, rest)
    | '0' :: 'X' :: rest => (16, rest)
    | '0' :: c :: rest => (8, c :: rest)
    | other => (10, other)
  if part.isEmpty then .invalid
  else if digits.isEmpty then .value 0
  else
    match digitsIn? base digits with
    | none => .invalid
    | some number => if number < 4294967296 then .value number else .overflow

def addressParts (domain : List Char) : List (List Char) :=
  let parts := Text.splitWhere (· == '.') domain
  if parts.length > 1 && parts.getLast?.any List.isEmpty then parts.dropLast else parts

/-- Tells whether a domain ends in a number and so has to be an address. -/
def endsInNumber (domain : List Char) : Bool :=
  match (addressParts domain).getLast? with
  | none => false
  | some last =>
      (!last.isEmpty && last.all Char.isDigit)
        || (match partNumber last with
            | .value _ => true
            | .overflow => true
            | .invalid => false)

/-- Reads an address: the last part fills the bytes that the others leave. -/
def fourBytes? (domain : List Char) : Option Nat := do
  let parts := addressParts domain
  let numbers ← parts.mapM fun part =>
    match partNumber part with
    | .value number => some number
    | _ => none
  let last ← numbers.getLast?
  let others := numbers.dropLast
  if 4 < numbers.length || others.any (255 < ·) || Nat.pow 256 (4 - others.length) ≤ last then none
  else
    let leading := others.zipIdx.foldl (fun total (number, place) =>
      total + number * Nat.pow 256 (3 - place)) 0
    return leading + last

def fourBytesText (address : Nat) : List Char :=
  let byte (place : Nat) : List Char := Nat.toDigits 10 (address / Nat.pow 256 place % 256)
  byte 3 ++ '.' :: byte 2 ++ '.' :: byte 1 ++ '.' :: byte 0

/-! ### Addresses of sixteen bytes -/

def piece? (text : List Char) : Option Nat :=
  if text.isEmpty || 4 < text.length then none else digitsIn? 16 text

def decimalByte? (text : List Char) : Option Nat :=
  if text.isEmpty || 3 < text.length || !text.all Char.isDigit
      || (text.head? == some '0' && text.length != 1) then none
  else (digitsIn? 10 text).filter (· < 256)

def dottedPieces? (text : List Char) : Option (List Nat) := do
  match ← (Text.splitWhere (· == '.') text).mapM decimalByte? with
  | [a, b, c, d] => return [a * 256 + b, c * 256 + d]
  | _ => none

def pieces? (text : List Char) : Option (List Nat) :=
  if text.isEmpty then some []
  else do
    let parts := Text.splitWhere (· == ':') text
    let last ← parts.getLast?
    let first ← parts.dropLast.mapM piece?
    let final ← if last.contains '.' then dottedPieces? last else (piece? last).map ([·])
    return first ++ final

def splitPair : List Char → Option (List Char × List Char)
  | [] => none
  | ':' :: ':' :: rest => some ([], rest)
  | c :: rest => (splitPair rest).map fun parts => (c :: parts.1, parts.2)

/-- Reads an address of sixteen bytes; a pair of colons stands for at least one zero piece. -/
def sixteenBytes? (text : List Char) : Option (List Nat) := do
  match splitPair text with
  | none =>
      let pieces ← pieces? text
      if pieces.length = 8 then return pieces else none
  | some (before, after) =>
      let head ← if before.contains '.' then none else pieces? before
      let tail ← pieces? after
      if head.length + tail.length < 8 then
        return head ++ List.replicate (8 - (head.length + tail.length)) 0 ++ tail
      else none

def leadingZeroPieces (pieces : List Nat) : Nat := (pieces.takeWhile (· == 0)).length

def longestZeros : Nat → List Nat → Nat × Nat
  | place, [] => (place, 0)
  | place, piece :: rest =>
      let here := leadingZeroPieces (piece :: rest)
      let later := longestZeros (place + 1) rest
      if later.2 ≤ here then (place, here) else later

def joinPieces (pieces : List Nat) : List Char :=
  List.intercalate [':'] (pieces.map (Nat.toDigits 16))

def sixteenBytesText (pieces : List Nat) : List Char :=
  let (place, length) := longestZeros 0 pieces
  if length < 2 then joinPieces pieces
  else
    joinPieces (pieces.take place) ++ [':', ':'] ++ joinPieces (pieces.drop (place + length))

/-! ### Hosts -/

def forbiddenInOpaque (c : Char) : Bool :=
  ['\x00', '\t', '\n', '\r', ' ', '#', '/', ':', '<', '>', '?', '@', '[', '\\', ']', '^',
    '|'].contains c

def bracketed (text : List Char) : Except UrlError Host :=
  if text.getLast? == some ']' then
    match sixteenBytes? (text.drop 1).dropLast with
    | some pieces => .ok (.sixteenBytes pieces)
    | none => .error .invalidSixteenByteAddress
  else .error .invalidSixteenByteAddress

def parse (text : List Char) : Except UrlError Host :=
  if text.head? == some '[' then bracketed text
  else
    match (Url.percentDecodedText? text).bind Url.Domain.toAscii? with
    | none => .error .invalidDomain
    | some domain =>
        if domain.isEmpty then .error .emptyHost
        else if endsInNumber domain then
          match fourBytes? domain with
          | some address => .ok (.fourBytes address)
          | none => .error .invalidFourByteAddress
        else .ok (.name domain)

def parseOpaque (text : List Char) : Except UrlError Host :=
  if text.head? == some '[' then bracketed text
  else if text.any forbiddenInOpaque then .error .invalidHostCharacter
  else .ok (.name (Url.percentEncode Url.isControl text))

def text : Host → List Char
  | name text => text
  | fourBytes address => fourBytesText address
  | sixteenBytes pieces => '[' :: sixteenBytesText pieces ++ [']']

end Host

end TemplateFill
