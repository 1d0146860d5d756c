/-!
Occurrences of a pattern in a text: counting, replacing, and cutting at the last one. Also splitting
at characters.

Occurrences are taken from left to right and do not overlap. A scan that has just met one skips the
rest of it by a counter, so every function recurs on the text alone. Patterns are not empty.
-/

namespace TemplateFill.Text

/-- Replaces every occurrence of the pattern, after skipping the given number of characters. -/
def replaceFrom (pattern replacement : List Char) : Nat → List Char → List Char
  | _, [] => []
  | skipped + 1, _ :: rest => replaceFrom pattern replacement skipped rest
  | 0, c :: rest =>
      if pattern.isPrefixOf (c :: rest) then
        replacement ++ replaceFrom pattern replacement (pattern.length - 1) rest
      else
        c :: replaceFrom pattern replacement 0 rest

def replaceAll (pattern replacement text : List Char) : List Char :=
  replaceFrom pattern replacement 0 text

def countFrom (pattern : List Char) : Nat → List Char → Nat
  | _, [] => 0
  | skipped + 1, _ :: rest => countFrom pattern skipped rest
  | 0, c :: rest =>
      if pattern.isPrefixOf (c :: rest) then countFrom pattern (pattern.length - 1) rest + 1
      else countFrom pattern 0 rest

def countOccurrences (pattern text : List Char) : Nat := countFrom pattern 0 text

def throughLast? (pattern : List Char) : List Char → Option (List Char)
  | [] => none
  | c :: rest =>
      match throughLast? pattern rest with
      | some before => some (c :: before)
      | none => if pattern.isPrefixOf (c :: rest) then some pattern else none

def withoutEnd (pattern text : List Char) : List Char :=
  if pattern.isSuffixOf text then text.take (text.length - pattern.length) else text

def splitWhere (separates : Char → Bool) : List Char → List (List Char)
  | [] => [[]]
  | c :: rest =>
      if separates c then [] :: splitWhere separates rest
      else
        match splitWhere separates rest with
        | first :: others => (c :: first) :: others
        | [] => [[c]]

def trimStart (c : Char) (text : List Char) : List Char := text.dropWhile (· == c)

def trimEnd (c : Char) (text : List Char) : List Char :=
  (text.reverse.dropWhile (· == c)).reverse

end TemplateFill.Text
