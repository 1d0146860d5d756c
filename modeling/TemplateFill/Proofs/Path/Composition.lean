import TemplateFill.Proofs.Path.Selection
import Mathlib.Data.List.Basic

/-!
Selecting node by node.

Selecting takes whole lists of nodes from segment to segment and stops at an empty list. Following
takes one node through all segments before it looks at the next, and does the same inside filters.
Both give the same nodes in the same order, so a path in two parts selects what the second part
selects from each of the nodes that the first part selects.
-/

namespace TemplateFill

namespace View

variable {ν : Type}

/-! ### Following -/

mutual

/-- The nodes to which segments lead from one node. -/
def ends (view : View ν) (root : ν) : List Segment → ν → List ν
  | [], node => [node]
  | segment :: later, node =>
      (view.moves root segment node).flatMap fun next => view.ends root later next

def moves (view : View ν) (root : ν) : Segment → ν → List ν
  | .child selector, node => view.takes root selector node
  | .descendant selector, node =>
      (view.descendants node).flatMap fun below => view.takes root selector below

def takes (view : View ν) (root : ν) : Selector → ν → List ν
  | .name name, node => (view.member? name node).toList
  | .index position, node => (view.element? position node).toList
  | .wildcard, node => view.children node
  | .filter condition, node =>
      (view.children node).filter fun candidate => view.admits root condition candidate

def admits (view : View ν) (root : ν) : Filter → ν → Bool
  | .or left right, candidate =>
      view.admits root left candidate || view.admits root right candidate
  | .and left right, candidate =>
      view.admits root left candidate && view.admits root right candidate
  | .not condition, candidate => !view.admits root condition candidate
  | .compare left comparison right, candidate =>
      comparison.holds (view.means root left candidate) (view.means root right candidate)
  | .holds operand, candidate => view.offers root operand candidate

def offers (view : View ν) (root : ν) : Operand → ν → Bool
  | .literal value, _ => value.isTruthy
  | .candidate segments, candidate => !(view.ends root segments candidate).isEmpty
  | .root segments, _ => !(view.ends root segments root).isEmpty

def means (view : View ν) (root : ν) : Operand → ν → Resolved
  | .literal value, _ => .scalar value
  | .candidate segments, candidate => view.resolveFirst (view.ends root segments candidate)
  | .root segments, _ => view.resolveFirst (view.ends root segments root)

end

variable {view : View ν} {root : ν}

/-- A path in two parts leads on from each node to which its first part leads. -/
theorem ends_append (first later : List Segment) (node : ν) :
    view.ends root (first ++ later) node =
      (view.ends root first node).flatMap (view.ends root later) := by
  induction first generalizing node with
  | nil => rw [ends, List.nil_append, List.flatMap_singleton]
  | cons segment rest ih =>
      rw [List.cons_append, ends, ends, List.flatMap_assoc]
      exact List.flatMap_congr fun next _ => ih next

/-! ### Selecting is following -/

mutual

theorem select_eq_flatMap_ends : ∀ (segments : List Segment) (nodes : List ν),
    view.select root segments nodes = nodes.flatMap (view.ends root segments)
  | [], nodes => by
      rw [select, show view.ends root [] = List.singleton from rfl]
      exact (List.flatMap_singleton' nodes).symm
  | segment :: later, nodes => by
      rw [select_cons, select_eq_flatMap_ends later, List.flatMap_assoc]
      refine List.flatMap_congr fun node _ => ?_
      rw [step_eq_moves segment, ends]

theorem step_eq_moves : ∀ (segment : Segment) (node : ν),
    view.step root segment node = view.moves root segment node
  | .child selector, node => by rw [step, moves, pick_eq_takes selector]
  | .descendant selector, node => by
      rw [step, moves]
      exact List.flatMap_congr fun below _ => pick_eq_takes selector below

theorem pick_eq_takes : ∀ (selector : Selector) (node : ν),
    view.pick root selector node = view.takes root selector node
  | .name name, node => by rw [pick, takes]
  | .index position, node => by rw [pick, takes]
  | .wildcard, node => by rw [pick, takes]
  | .filter condition, node => by
      rw [pick, takes]
      exact List.filter_congr fun candidate _ => satisfies_eq_admits condition candidate

theorem satisfies_eq_admits : ∀ (condition : Filter) (candidate : ν),
    view.satisfies root condition candidate = view.admits root condition candidate
  | .or left right, candidate => by
      rw [satisfies, admits, satisfies_eq_admits left, satisfies_eq_admits right]
  | .and left right, candidate => by
      rw [satisfies, admits, satisfies_eq_admits left, satisfies_eq_admits right]
  | .not condition, candidate => by rw [satisfies, admits, satisfies_eq_admits condition]
  | .compare left comparison right, candidate => by
      rw [satisfies, admits, resolve_eq_means left, resolve_eq_means right]
  | .holds operand, candidate => by rw [satisfies, admits, present_eq_offers operand]

theorem present_eq_offers : ∀ (operand : Operand) (candidate : ν),
    view.present root operand candidate = view.offers root operand candidate
  | .literal value, candidate => by rw [present, offers]
  | .candidate segments, candidate => by
      rw [present, offers, select_eq_flatMap_ends segments, List.flatMap_singleton]
  | .root segments, candidate => by
      rw [present, offers, select_eq_flatMap_ends segments, List.flatMap_singleton]

theorem resolve_eq_means : ∀ (operand : Operand) (candidate : ν),
    view.resolve root operand candidate = view.means root operand candidate
  | .literal value, candidate => by rw [resolve, means]
  | .candidate segments, candidate => by
      rw [resolve, means, select_eq_flatMap_ends segments, List.flatMap_singleton]
  | .root segments, candidate => by
      rw [resolve, means, select_eq_flatMap_ends segments, List.flatMap_singleton]

end

/-- A path in two parts selects, one after the other, what its second part selects from each of the
nodes that its first part selects. Following every node by itself to the end, in filters too, gives
the same: neither taking whole lists from segment to segment nor stopping at an empty one changes
which nodes are selected, in which order, or how often. -/
theorem select_composes (view : View ν) (root node : ν) (first later : List Segment) :
    view.select root (first ++ later) [node] =
        (view.select root first [node]).flatMap
          (fun found => view.select root later [found]) ∧
      ∀ (segments : List Segment) (nodes : List ν),
        view.select root segments nodes = nodes.flatMap (view.ends root segments) := by
  refine ⟨?_, select_eq_flatMap_ends⟩
  calc view.select root (first ++ later) [node]
      = view.ends root (first ++ later) node := by
        rw [select_eq_flatMap_ends, List.flatMap_singleton]
    _ = (view.ends root first node).flatMap (view.ends root later) := ends_append first later node
    _ = (view.select root first [node]).flatMap (view.ends root later) := by
        rw [select_eq_flatMap_ends first, List.flatMap_singleton]
    _ = (view.select root first [node]).flatMap fun found => view.select root later [found] := by
        refine List.flatMap_congr fun found _ => ?_
        rw [select_eq_flatMap_ends, List.flatMap_singleton]

end View

end TemplateFill
