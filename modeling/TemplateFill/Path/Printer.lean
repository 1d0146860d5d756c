import TemplateFill.Json.Printer
import TemplateFill.Path.Syntax
import TemplateFill.Text.Occurrences

/-!
The normal text of paths: every selector in brackets, every binary filter in parentheses.

Names and strings stand between single quotes, with a backslash before each quote inside; a backslash
inside stands as it is.
-/

namespace TemplateFill

def Comparison.text : Comparison → List Char
  | equal => ['=', '=']
  | notEqual => ['!', '=']
  | less => ['<']
  | lessOrEqual => ['<', '=']
  | greater => ['>']
  | greaterOrEqual => ['>', '=']

def singleQuoted (text : String) : List Char :=
  '\'' :: Text.replaceAll ['\''] ['\\', '\''] text.toList ++ ['\'']

mutual

def Selector.normal : Selector → List Char
  | .name name => '[' :: singleQuoted name ++ [']']
  | .wildcard => ['[', '*', ']']
  | .index position => '[' :: Nat.toDigits 10 position ++ [']']
  | .filter condition => '[' :: '?' :: '(' :: condition.normal ++ [')', ']']

def Segment.normal : Segment → List Char
  | .child selector => selector.normal
  | .descendant selector => '.' :: '.' :: selector.normal

def Segment.normalAll : List Segment → List Char
  | [] => []
  | segment :: rest => segment.normal ++ Segment.normalAll rest

def Operand.normal : Operand → List Char
  | .candidate segments => '@' :: Segment.normalAll segments
  | .root segments => '$' :: Segment.normalAll segments
  | .literal (.string value) => singleQuoted value
  | .literal value => Json.scalarText value

def Filter.normal : Filter → List Char
  | .or left right => '(' :: left.normal ++ [' ', '|', '|', ' '] ++ right.normal ++ [')']
  | .and left right => '(' :: left.normal ++ [' ', '&', '&', ' '] ++ right.normal ++ [')']
  | .not condition => '!' :: condition.normal
  | .compare left comparison right => left.normal ++ comparison.text ++ right.normal
  | .holds operand => operand.normal

end

def Segment.normalPath (segments : List Segment) : String :=
  String.ofList ('$' :: Segment.normalAll segments)

end TemplateFill
