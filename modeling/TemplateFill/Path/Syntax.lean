import TemplateFill.Json.Basic

/-!
The syntax of paths: segments, selectors, filters and operands.

A filter may hold paths of its own, which start at the candidate or at the root, so the four types
are defined together. Equality is decided by recursion on the syntax.
-/

namespace TemplateFill

inductive Comparison where
  | equal
  | notEqual
  | less
  | lessOrEqual
  | greater
  | greaterOrEqual
deriving DecidableEq

mutual

inductive Selector where
  | name (name : String)
  | wildcard
  | index (position : Nat)
  | filter (condition : Filter)

inductive Segment where
  | child (selector : Selector)
  | descendant (selector : Selector)

inductive Operand where
  | candidate (segments : List Segment)
  | root (segments : List Segment)
  | literal (value : Scalar)

inductive Filter where
  | or (left right : Filter)
  | and (left right : Filter)
  | not (condition : Filter)
  | compare (left : Operand) (comparison : Comparison) (right : Operand)
  /-- The operand selects something or, as a literal, is neither `null` nor `false` -/
  | holds (operand : Operand)

end

/-! ### Equality -/

mutual

def Selector.same : Selector → Selector → Bool
  | .name left, .name right => left == right
  | .wildcard, .wildcard => true
  | .index left, .index right => left == right
  | .filter left, .filter right => left.same right
  | _, _ => false

def Segment.same : Segment → Segment → Bool
  | .child left, .child right => left.same right
  | .descendant left, .descendant right => left.same right
  | _, _ => false

def Segment.sameAll : List Segment → List Segment → Bool
  | [], [] => true
  | left :: lefts, right :: rights => left.same right && Segment.sameAll lefts rights
  | _, _ => false

def Operand.same : Operand → Operand → Bool
  | .candidate left, .candidate right => Segment.sameAll left right
  | .root left, .root right => Segment.sameAll left right
  | .literal left, .literal right => left == right
  | _, _ => false

def Filter.same : Filter → Filter → Bool
  | .or left right, .or left' right' => left.same left' && right.same right'
  | .and left right, .and left' right' => left.same left' && right.same right'
  | .not left, .not right => left.same right
  | .compare left comparison right, .compare left' comparison' right' =>
      left.same left' && comparison == comparison' && right.same right'
  | .holds left, .holds right => left.same right
  | _, _ => false

end

end TemplateFill
