import TemplateFill.Path.Parser

/-!
Equality of paths is decided by recursion on the syntax, and with it what a text is read as.
-/

namespace TemplateFill

mutual

theorem Selector.same_iff : ∀ (left right : Selector), left.same right = true ↔ left = right
  | .name _, right => by cases right <;> simp [Selector.same]
  | .wildcard, right => by cases right <;> simp [Selector.same]
  | .index _, right => by cases right <;> simp [Selector.same]
  | .filter left, right => by
      cases right with
      | filter right => simp [Selector.same, Filter.same_iff left right]
      | _ => simp [Selector.same]

theorem Segment.same_iff : ∀ (left right : Segment), left.same right = true ↔ left = right
  | .child left, right => by
      cases right with
      | child right => simp [Segment.same, Selector.same_iff left right]
      | _ => simp [Segment.same]
  | .descendant left, right => by
      cases right with
      | descendant right => simp [Segment.same, Selector.same_iff left right]
      | _ => simp [Segment.same]

theorem Segment.sameAll_iff : ∀ (lefts rights : List Segment),
    Segment.sameAll lefts rights = true ↔ lefts = rights
  | [], rights => by cases rights <;> simp [Segment.sameAll]
  | left :: lefts, rights => by
      cases rights with
      | nil => simp [Segment.sameAll]
      | cons right rights =>
          simp [Segment.sameAll, Segment.same_iff left right, Segment.sameAll_iff lefts rights]

theorem Operand.same_iff : ∀ (left right : Operand), left.same right = true ↔ left = right
  | .candidate lefts, right => by
      cases right with
      | candidate rights => simp [Operand.same, Segment.sameAll_iff lefts rights]
      | _ => simp [Operand.same]
  | .root lefts, right => by
      cases right with
      | root rights => simp [Operand.same, Segment.sameAll_iff lefts rights]
      | _ => simp [Operand.same]
  | .literal _, right => by cases right <;> simp [Operand.same]

theorem Filter.same_iff : ∀ (left right : Filter), left.same right = true ↔ left = right
  | .or left other, right => by
      cases right with
      | or first second =>
          simp [Filter.same, Filter.same_iff left first, Filter.same_iff other second]
      | _ => simp [Filter.same]
  | .and left other, right => by
      cases right with
      | and first second =>
          simp [Filter.same, Filter.same_iff left first, Filter.same_iff other second]
      | _ => simp [Filter.same]
  | .not left, right => by
      cases right with
      | not right => simp [Filter.same, Filter.same_iff left right]
      | _ => simp [Filter.same]
  | .compare left _ other, right => by
      cases right with
      | compare first _ second =>
          simp [Filter.same, Operand.same_iff left first, Operand.same_iff other second, and_assoc]
      | _ => simp [Filter.same]
  | .holds left, right => by
      cases right with
      | holds right => simp [Filter.same, Operand.same_iff left right]
      | _ => simp [Filter.same]

end

def Segment.isReading (text : String) (segments : List Segment) : Bool :=
  match Segment.parse text with
  | .ok read => Segment.sameAll read segments
  | .error _ => false

theorem Segment.isReading_iff {text : String} {segments : List Segment} :
    Segment.isReading text segments = true ↔ Segment.parse text = .ok segments := by
  unfold Segment.isReading
  cases Segment.parse text with
  | ok read => simp [Segment.sameAll_iff read segments]
  | error failure => simp

instance (text : String) (segments : List Segment) :
    Decidable (Segment.parse text = .ok segments) :=
  decidable_of_iff _ Segment.isReading_iff

end TemplateFill
