import TemplateFill.Document.Basic
import TemplateFill.Text.Letters
import TemplateFill.Text.Occurrences

/-!
Locations: paths that lead from the root to one node.

An element is written by its position. A member is written after a dot if its key reads as a name,
and else between quotes, with a backslash before each backslash and each quote.
-/

namespace TemplateFill

namespace Document

def isPlainKey (key : String) : Bool :=
  match key.toList with
  | [] => false
  | first :: rest =>
      (Text.isAlphabetic first || first == '_')
        && (first :: rest).all fun c => Text.isAlphanumeric c || c == '_' || c == '-'

def memberStep (key : String) : List Char :=
  if isPlainKey key then '.' :: key.toList
  else
    let escaped := Text.replaceAll ['\\'] ['\\', '\\'] key.toList
    ['[', '\''] ++ Text.replaceAll ['\''] ['\\', '\''] escaped ++ ['\'', ']']

def elementStep (position : Nat) : List Char := '[' :: Nat.toDigits 10 position ++ [']']

def stepTo? (child : NodeId) : Content → Option (List Char)
  | .scalar _ => none
  | .array elements => (elements.findIdx? (· == child)).map elementStep
  | .object members => (members.find? (·.2 == child)).map fun member => memberStep member.1

/-- Climbs from a node to the root and puts the steps before those behind it; the number bounds the
levels climbed. -/
def locationBefore? (document : Document) : Nat → NodeId → List Char → Option (List Char)
  | 0, _, _ => none
  | levels + 1, node, behind =>
      match document.parent? node with
      | none => if node = root then some ('$' :: behind) else none
      | some parent =>
          match stepTo? node (document.content parent) with
          | none => none
          | some step => document.locationBefore? levels parent (step ++ behind)

def location? (document : Document) (node : NodeId) : Option String :=
  (document.locationBefore? (document.size + 1) node []).map String.ofList

end Document

end TemplateFill
