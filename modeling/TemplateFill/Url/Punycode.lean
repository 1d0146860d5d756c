/-!
Domain labels with characters outside ASCII, written in ASCII.

The label's ASCII characters come first. The others follow in ascending order, each as a variable
length number that tells how far to go from the one before; a bias adapts to the sizes met so far.
Reading back keeps all numbers below 2^32.
-/

namespace TemplateFill.Url.Punycode

def digit (value : Nat) : Char :=
  if value < 26 then Char.ofNat ('a'.toNat + value) else Char.ofNat ('0'.toNat + (value - 26))

def threshold (place bias : Nat) : Nat :=
  if place ≤ bias then 1 else if bias + 26 ≤ place then 26 else place - bias

def shrink : Nat → Nat → Nat → Nat × Nat
  | 0, distance, places => (distance, places)
  | more + 1, distance, places =>
      if 455 < distance then shrink more (distance / 35) (places + 36) else (distance, places)

def adapt (distance written : Nat) (first : Bool) : Nat :=
  let halved := if first then distance / 700 else distance / 2
  let (small, places) := shrink halved (halved + halved / written) 0
  places + 36 * small / (small + 38)

def distanceDigits (bias : Nat) : Nat → Nat → Nat → List Char
  | 0, _, _ => []
  | more + 1, place, distance =>
      let least := threshold place bias
      if distance < least then [digit distance]
      else
        digit (least + (distance - least) % (36 - least))
          :: distanceDigits bias more (place + 36) ((distance - least) / (36 - least))

structure State where
  output : List Char
  distance : Nat
  bias : Nat
  written : Nat

def pass (basic code : Nat) (state : State) (c : Char) : State :=
  if c.toNat < code then { state with distance := state.distance + 1 }
  else if c.toNat = code then
    { output := state.output ++ distanceDigits state.bias (state.distance + 1) 36 state.distance
      distance := 0
      bias := adapt state.distance (state.written + 1) (state.written == basic)
      written := state.written + 1 }
  else state

def writeAll (label : List Char) (basic : Nat) : List Nat → Nat → State → State
  | [], _, state => state
  | code :: rest, reached, state =>
      let ahead := { state with distance := state.distance + (code - reached) * (state.written + 1) }
      let after := label.foldl (pass basic code) ahead
      writeAll label basic rest (code + 1) { after with distance := after.distance + 1 }

def encode (label : List Char) : List Char :=
  let ascii := label.filter fun c => c.toNat < 0x80
  let others := ((label.map Char.toNat).filter (0x80 ≤ ·)).mergeSort.eraseDups
  let start := if ascii.isEmpty then [] else ascii ++ ['-']
  (writeAll label ascii.length others 0x80 ⟨start, 0, 72, ascii.length⟩).output

def labelToAscii (label : List Char) : List Char :=
  if label.all fun c => c.toNat < 0x80 then label else ['x', 'n', '-', '-'] ++ encode label

/-! ### Reading back -/

def digitValue? (c : Char) : Option Nat :=
  if c.isAlpha then some (c.toLower.toNat - 'a'.toNat)
  else if c.isDigit then some (c.toNat - '0'.toNat + 26)
  else none

def readLimit : Nat := 4294967296

/-- Reads digits from a place on and adds what they stand for to a total, up to the first digit below
its threshold. A digit counts `weight` times its value. -/
def readDistance? (bias : Nat) : Nat → Nat → Nat → List Char → Option (Nat × List Char)
  | _, _, _, [] => none
  | place, weight, total, c :: rest =>
      match digitValue? c with
      | none => none
      | some value =>
          let longer := total + value * weight
          let least := threshold place bias
          if readLimit ≤ longer then none
          else if value < least then some (longer, rest)
          else if readLimit ≤ weight * (36 - least) then none
          else readDistance? bias (place + 36) (weight * (36 - least)) longer rest

def character? (code : Nat) : Option Char :=
  if code < 0xd800 || (0xdfff < code && code < 0x110000) then some (Char.ofNat code) else none

structure Reading where
  output : List Char
  code : Nat
  place : Nat
  bias : Nat

def readAll? : Nat → Reading → List Char → Option (List Char)
  | _, reading, [] => some reading.output
  | 0, _, _ => none
  | more + 1, reading, digits => do
      let (reached, rest) ← readDistance? reading.bias 36 1 reading.place digits
      let length := reading.output.length + 1
      let code := reading.code + reached / length
      let place := reached % length
      let c ← character? code
      readAll? more
        { output := reading.output.take place ++ c :: reading.output.drop place
          code
          place := place + 1
          bias := adapt (reached - reading.place) length (reading.place == 0) }
        rest

/-- The label whose ASCII form without its mark is given. The last hyphen, unless it is the first
character, ends the label's own ASCII characters. -/
def decode? (text : List Char) : Option (List Char) :=
  let digits := (text.reverse.takeWhile (· != '-')).reverse
  let ascii := text.take (text.length - digits.length - 1)
  if !text.all (fun c => c.toNat < 0x80) then none
  else if digits.length + 1 = text.length then none
  else readAll? digits.length ⟨ascii, 0x80, 0, 72⟩ digits

end TemplateFill.Url.Punycode
