import TemplateFill.Path.Selection

/-!
The loop of a descent.

A descent keeps the nodes listed so far and a stack of pending ones. A turn takes the last node off
the stack, lists it, and pushes its children, the last of them first. Where descents unfold, the
listed nodes and the descents from the pending ones are one list that no turn changes, and each turn
moves one node of it across. So the loop takes as many turns as there are nodes, and then nothing is
pending.
-/

namespace TemplateFill

namespace View

variable {ν : Type}

/-- From nodes of a kind that is closed downwards, a descent lists the node and then the descents of
its children. -/
structure Unfolds (view : View ν) (within : ν → Prop) : Prop where
  descends : ∀ node, within node →
    view.descendants node = node :: (view.children node).flatMap view.descendants
  childWithin : ∀ node, within node → ∀ child ∈ view.children node, within child

end View

/-- A descent on its way: the nodes listed so far, and the stack of pending ones with its top last. -/
structure Descent (ν : Type) where
  listed : List ν
  pending : List ν
deriving DecidableEq

namespace Descent

variable {ν : Type} {view : View ν} {within : ν → Prop} {descent next : Descent ν}

def start (node : ν) : Descent ν := ⟨[], [node]⟩

def turn? (view : View ν) (descent : Descent ν) : Option (Descent ν) :=
  descent.pending.getLast?.map fun top =>
    { listed := descent.listed ++ [top]
      pending := descent.pending.dropLast ++ (view.children top).reverse }

def after? (view : View ν) : Nat → Descent ν → Option (Descent ν)
  | 0, descent => some descent
  | turns + 1, descent => (descent.turn? view).bind (after? view turns)

/-- What pending nodes stand for: their descents, from the top of the stack down. -/
def ahead (view : View ν) (pending : List ν) : List ν :=
  pending.reverse.flatMap view.descendants

/-! ### One turn -/

theorem turn?_eq_none_iff : descent.turn? view = none ↔ descent.pending = [] := by
  rw [turn?, Option.map_eq_none_iff, List.getLast?_eq_none_iff]

theorem turn?_eq_some (turned : descent.turn? view = some next) :
    ∃ rest top, descent.pending = rest ++ [top] ∧
      next = ⟨descent.listed ++ [top], rest ++ (view.children top).reverse⟩ := by
  obtain ⟨top, last, rfl⟩ := Option.map_eq_some_iff.mp turned
  obtain ⟨rest, split⟩ := List.getLast?_eq_some_iff.mp last
  refine ⟨rest, top, split, ?_⟩
  rw [split, List.dropLast_concat]

/-- The node on top comes first, and then what its children stand for once they are pushed. -/
theorem ahead_concat (unfolds : view.Unfolds within) {rest : List ν} {top : ν}
    (inside : within top) :
    ahead view (rest ++ [top]) = top :: ahead view (rest ++ (view.children top).reverse) := by
  rw [ahead, ahead, List.reverse_concat, List.flatMap_cons, unfolds.descends top inside,
    List.reverse_append, List.reverse_reverse, List.flatMap_append, List.cons_append]

theorem ahead_of_turn? (unfolds : view.Unfolds within)
    (inside : ∀ node ∈ descent.pending, within node) (turned : descent.turn? view = some next) :
    (∃ top, next.listed = descent.listed ++ [top] ∧
        ahead view descent.pending = top :: ahead view next.pending) ∧
      ∀ node ∈ next.pending, within node := by
  obtain ⟨rest, top, split, rfl⟩ := turn?_eq_some turned
  rw [split] at inside ⊢
  have here : within top := inside top (List.mem_append_right _ (List.mem_singleton_self top))
  refine ⟨⟨top, rfl, ahead_concat unfolds here⟩, fun node pushed => ?_⟩
  rcases List.mem_append.mp pushed with below | child
  · exact inside node (List.mem_append_left _ below)
  · exact unfolds.childWithin top here node (List.mem_reverse.mp child)

/-! ### The whole loop -/

/-- The loop takes one turn for each node that is ahead, and lists these nodes in their order. -/
theorem after?_length_ahead (unfolds : view.Unfolds within)
    (inside : ∀ node ∈ descent.pending, within node) :
    after? view (ahead view descent.pending).length descent =
      some ⟨descent.listed ++ ahead view descent.pending, []⟩ := by
  generalize future : ahead view descent.pending = nodes
  -- each turn takes the first node off the list that is ahead, so the induction is on that list
  induction nodes generalizing descent with
  | nil =>
      cases turned : descent.turn? view with
      | none =>
          rw [List.length_nil, after?, List.append_nil, ← turn?_eq_none_iff.mp turned]
      | some next =>
          obtain ⟨⟨top, _, more⟩, _⟩ := ahead_of_turn? unfolds inside turned
          rw [future] at more
          cases more
  | cons first nodes ih =>
      cases turned : descent.turn? view with
      | none =>
          rw [ahead, turn?_eq_none_iff.mp turned] at future
          cases future
      | some next =>
          obtain ⟨⟨top, listed, more⟩, kept⟩ := ahead_of_turn? unfolds inside turned
          rw [future] at more
          obtain ⟨rfl, rest⟩ := List.cons.inj more
          rw [List.length_cons, after?, turned, Option.bind_some, ih kept rest.symm, listed,
            List.append_assoc, List.singleton_append]

end Descent

/-- The loop that begins at a node ends with the descent from it, one turn for each node. -/
theorem View.Unfolds.after?_start {ν : Type} {view : View ν} {within : ν → Prop}
    (unfolds : view.Unfolds within) {node : ν} (inside : within node) :
    Descent.after? view (view.descendants node).length (.start node) =
      some ⟨view.descendants node, []⟩ := by
  have pending : ∀ other ∈ (Descent.start node).pending, within other :=
    List.forall_mem_singleton.mpr inside
  have ended := Descent.after?_length_ahead unfolds pending
  rwa [Descent.ahead, Descent.start, List.reverse_singleton, List.flatMap_singleton,
    List.nil_append] at ended

end TemplateFill
