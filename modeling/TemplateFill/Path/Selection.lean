import TemplateFill.Path.Syntax

/-!
What the segments of a path select in a tree.

A view tells how to walk a tree whatever holds it: its members, elements, children and scalars. The
same selection then runs over plain values and over the nodes of a document. Each segment maps the
list of nodes so far to the next one, in order and with repetitions kept.
-/

namespace TemplateFill

/-- How to walk the nodes of a tree. `extent` bounds the number of nodes from a node downwards. -/
structure View (ν : Type) where
  member? : String → ν → Option ν
  element? : Nat → ν → Option ν
  children : ν → List ν
  scalar? : ν → Option Scalar
  extent : ν → Nat

def Json.view : View Json :=
  { member? := Json.member?
    element? := Json.element?
    children := Json.children
    scalar? := Json.scalar?
    extent := Json.size }

/-! ### Comparing operands -/

/-- What an operand of a comparison stands for: nothing, a node with parts, or a scalar. -/
inductive Resolved where
  | missing
  | structured
  | scalar (value : Scalar)

namespace Resolved

/-- Two numbers are equal if their binary64 values are; a node with parts equals nothing. -/
def equal : Resolved → Resolved → Bool
  | missing, missing => true
  | scalar (.number left), scalar (.number right) => left.rank == right.rank
  | scalar left, scalar right => left == right
  | _, _ => false

/-- Numbers are ordered by value and strings by code points; nothing else is ordered. -/
def order? : Resolved → Resolved → Option Ordering
  | scalar (.number left), scalar (.number right) => some (compare left.rank right.rank)
  | scalar (.string left), scalar (.string right) =>
      some (if left < right then .lt else if left = right then .eq else .gt)
  | _, _ => none

end Resolved

def Comparison.holds (comparison : Comparison) (left right : Resolved) : Bool :=
  match comparison with
  | equal => left.equal right
  | notEqual => !left.equal right
  | less => left.order? right == some .lt
  | lessOrEqual => left.order? right == some .lt || left.order? right == some .eq
  | greater => left.order? right == some .gt
  | greaterOrEqual => left.order? right == some .gt || left.order? right == some .eq

/-- Literals other than `null` and `false` hold by themselves. -/
def Scalar.isTruthy : Scalar → Bool
  | .null => false
  | .bool value => value
  | _ => true

namespace View

variable {ν : Type}

/-! ### Descent -/

/-- Lists pending nodes and all nodes below them: the first pending node, then its children ahead of
the rest. The number bounds the nodes listed. -/
def walk (view : View ν) : Nat → List ν → List ν
  | 0, _ => []
  | _, [] => []
  | steps + 1, node :: pending => node :: view.walk steps (view.children node ++ pending)

def descendants (view : View ν) (node : ν) : List ν := view.walk (view.extent node) [node]

/-! ### Selection -/

mutual

def select (view : View ν) (root : ν) : List Segment → List ν → List ν
  | [], nodes => nodes
  | segment :: later, nodes =>
      match nodes.flatMap fun node => view.step root segment node with
      | [] => []
      | next :: others => view.select root later (next :: others)

def step (view : View ν) (root : ν) : Segment → ν → List ν
  | .child selector, node => view.pick root selector node
  | .descendant selector, node =>
      (view.descendants node).flatMap fun below => view.pick root selector below

def pick (view : View ν) (root : ν) : Selector → ν → List ν
  | .name name, node => (view.member? name node).toList
  | .index position, node => (view.element? position node).toList
  | .wildcard, node => view.children node
  | .filter condition, node =>
      (view.children node).filter fun candidate => view.satisfies root condition candidate

def satisfies (view : View ν) (root : ν) : Filter → ν → Bool
  | .or left right, candidate =>
      view.satisfies root left candidate || view.satisfies root right candidate
  | .and left right, candidate =>
      view.satisfies root left candidate && view.satisfies root right candidate
  | .not condition, candidate => !view.satisfies root condition candidate
  | .compare left comparison right, candidate =>
      comparison.holds (view.resolve root left candidate) (view.resolve root right candidate)
  | .holds operand, candidate => view.present root operand candidate

def present (view : View ν) (root : ν) : Operand → ν → Bool
  | .literal value, _ => value.isTruthy
  | .candidate segments, candidate => !(view.select root segments [candidate]).isEmpty
  | .root segments, _ => !(view.select root segments [root]).isEmpty

def resolve (view : View ν) (root : ν) : Operand → ν → Resolved
  | .literal value, _ => .scalar value
  | .candidate segments, candidate =>
      view.resolveFirst (view.select root segments [candidate])
  | .root segments, _ => view.resolveFirst (view.select root segments [root])

def resolveFirst (view : View ν) : List ν → Resolved
  | [] => .missing
  | node :: _ =>
      match view.scalar? node with
      | none => .structured
      | some value => .scalar value

end

end View

end TemplateFill
