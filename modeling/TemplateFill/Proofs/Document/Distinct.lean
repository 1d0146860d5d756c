import TemplateFill.Path.Query
import TemplateFill.Proofs.Document.Order
import Mathlib.Data.Finset.Card
import Mathlib.Data.List.Pairwise

/-!
When no node is selected twice.

A node of a tree has one parent, so different nodes have different children. Nodes whose trees are
apart stay so from segment to segment up to the first descent, which therefore meets no node twice.
Behind it the nodes may lie one below another, but they are different, and so are their children.
A path with one descent at most thus names several nodes only if it selects several.
-/

namespace TemplateFill

def Segment.isDescent : Segment → Bool
  | .child _ => false
  | .descendant _ => true

namespace View

namespace TreeLike

variable {ν : Type} {view : View ν} {root : ν} {within : ν → Prop} {top node : ν}
  {nodes : List ν} {segments : List Segment}

/-! ### One parent -/

/-- The children of all nodes of a tree are the nodes below its top. -/
theorem perm_flatMap_children (tree : view.TreeLike within) (inside : within node) :
    ((view.descendants node).flatMap view.children).Perm
      ((view.children node).flatMap view.descendants) := by
  induction node, inside using tree.induction with
  | step node inside ih =>
      have deeper := (List.Perm.flatMap_left (view.children node) ih).append_left
        (view.children node)
      have joined := List.map_append_flatMap_perm (view.children node) id fun child =>
        (view.children child).flatMap view.descendants
      have folded : (view.children node).flatMap (fun child =>
          child :: (view.children child).flatMap view.descendants) =
            (view.children node).flatMap view.descendants :=
        List.flatMap_congr fun child directly =>
          (tree.descends child (tree.childWithin node inside child directly)).symm
      rw [List.map_id] at joined
      rw [tree.descends node inside, List.flatMap_cons, List.flatMap_assoc, ← folded]
      exact deeper.trans joined

theorem nodup_flatMap_children (tree : view.TreeLike within) (topWithin : within top) :
    ((view.descendants top).flatMap view.children).Nodup :=
  (tree.perm_flatMap_children topWithin).nodup_iff.mpr
    ((tree.distinct top topWithin).sublist (tree.children_sublist topWithin))

/-- What a selector picks out of different nodes of a tree is different. -/
theorem nodup_flatMap_pick (tree : view.TreeLike within) (topWithin : within top)
    (inside : ∀ node ∈ nodes, node ∈ view.descendants top) (distinct : nodes.Nodup)
    (selector : Selector) : (nodes.flatMap (view.pick root selector)).Nodup := by
  obtain ⟨each, apart⟩ := List.nodup_flatMap.mp (tree.nodup_flatMap_children topWithin)
  have symmetric : Std.Symm (Function.onFun List.Disjoint view.children) :=
    ⟨fun _ _ disjoint => disjoint.symm⟩
  have picked : ∀ node ∈ nodes,
      (view.pick root selector node).Sublist (view.children node) := fun node listed =>
    tree.pick_sublist (tree.descendants_sublist topWithin node (inside node listed)).1 selector
  refine List.nodup_flatMap.mpr ⟨fun node listed =>
    (each node (inside node listed)).sublist (picked node listed), ?_⟩
  refine distinct.pairwise_of_forall_ne fun first firstIn second secondIn different => ?_
  have disjoint := apart.forall (inside first firstIn) (inside second secondIn) different
  exact fun found inFirst inSecond => disjoint ((picked first firstIn).subset inFirst)
    ((picked second secondIn).subset inSecond)

/-! ### One descent -/

theorem nodup_of_apart (tree : view.TreeLike within) (topWithin : within top)
    (inside : ∀ node ∈ nodes, node ∈ view.descendants top)
    (apart : nodes.Pairwise (view.Apart top)) : nodes.Nodup := by
  refine apart.imp_of_mem fun {first second} firstIn secondIn apart same => ?_
  subst same
  have firstWithin := (tree.descendants_sublist topWithin first (inside first firstIn)).1
  exact List.nodup_iff_sublist.mp (tree.distinct top topWithin) first
    (tree.before_of_apart firstWithin firstWithin apart)

theorem nodup_flatMap_descendants (tree : view.TreeLike within) (topWithin : within top)
    (inside : ∀ node ∈ nodes, node ∈ view.descendants top)
    (apart : nodes.Pairwise (view.Apart top)) : (nodes.flatMap view.descendants).Nodup := by
  refine List.nodup_flatMap.mpr ⟨fun node listed =>
    tree.distinct node (tree.descendants_sublist topWithin node (inside node listed)).1, ?_⟩
  refine apart.imp fun {first second} apart => ?_
  have both := (tree.distinct top topWithin).sublist apart
  exact List.disjoint_of_nodup_append both

/-- Without a descent, different nodes lead to different nodes. -/
theorem nodup_select_of_flat (tree : view.TreeLike within) (topWithin : within top)
    (inside : ∀ node ∈ nodes, node ∈ view.descendants top) (distinct : nodes.Nodup)
    (flat : segments.countP Segment.isDescent = 0) :
    (view.select root segments nodes).Nodup := by
  induction segments generalizing nodes with
  | nil => rwa [select]
  | cons segment later ih =>
      rw [List.countP_eq_zero, List.forall_mem_cons] at flat
      cases segment with
      | descendant selector => exact absurd rfl flat.1
      | child selector =>
          rw [select_cons]
          have different : (nodes.flatMap (view.pick root selector)).Nodup :=
            tree.nodup_flatMap_pick topWithin inside distinct selector
          exact ih (tree.mem_of_flatMap_step topWithin inside (.child selector)) different
            (List.countP_eq_zero.mpr flat.2)

/-- With one descent at most, nodes apart lead to different nodes. -/
theorem nodup_select (tree : view.TreeLike within) (topWithin : within top)
    (inside : ∀ node ∈ nodes, node ∈ view.descendants top)
    (apart : nodes.Pairwise (view.Apart top))
    (single : segments.countP Segment.isDescent ≤ 1) :
    (view.select root segments nodes).Nodup := by
  induction segments generalizing nodes with
  | nil =>
      rw [select]
      exact tree.nodup_of_apart topWithin inside apart
  | cons segment later ih =>
      rw [select_cons]
      have selected : ∀ other ∈ nodes.flatMap (view.step root segment),
          other ∈ view.descendants top := tree.mem_of_flatMap_step topWithin inside segment
      cases segment with
      | child selector =>
          refine ih selected (tree.pairwise_flatMap_step topWithin inside apart _ ?_) ?_
          · intro node listed upper visit lower visit' below different
            cases List.mem_singleton.mp visit
            exact absurd (List.mem_singleton.mp visit') different
          · rwa [List.countP_cons_of_neg (by simp [Segment.isDescent])] at single
      | descendant selector =>
          have flat : later.countP Segment.isDescent = 0 := by
            rw [List.countP_cons_of_pos rfl] at single
            omega
          refine tree.nodup_select_of_flat topWithin selected ?_ flat
          have visited : ∀ node ∈ nodes.flatMap view.descendants, node ∈ view.descendants top := by
            intro node listed
            obtain ⟨start, known, below⟩ := List.mem_flatMap.mp listed
            exact (tree.descendants_sublist topWithin start (inside start known)).2.subset below
          have different : ((nodes.flatMap view.descendants).flatMap
              (view.pick root selector)).Nodup :=
            tree.nodup_flatMap_pick topWithin visited
              (tree.nodup_flatMap_descendants topWithin inside apart) selector
          rw [List.flatMap_assoc] at different
          exact different

end TreeLike

end View

/-! ### Ambiguity -/

/-- Selecting one node fails exactly if several are selected, and says how many. -/
theorem Query.selectOne_eq_error_iff {ν : Type} {query : Query} {view : View ν} {root : ν}
    {error : PathError} :
    query.selectOne view root = .error error ↔
      1 < (query.select view root).length ∧
        error = .multipleMatches query.text (query.select view root).length := by
  unfold selectOne
  cases query.select view root with
  | nil => simp
  | cons first others =>
      cases others with
      | nil => simp
      | cons second rest => simp [eq_comm]

namespace Document

variable {document : Document}

/-- The plain value of a node has as many values selected as the node has nodes. -/
theorem WellFormed.length_select_nodeToJson (wellFormed : document.WellFormed) {node : NodeId}
    (present : node < document.size) (query : Query) :
    (query.select Json.view (document.nodeToJson node)).length =
      (query.select document.view node).length := by
  obtain ⟨tree, rfl, holds⟩ := wellFormed.grounded present
  have numbers := (wellFormed.number_carries.select_root holds query.segments).1
  have values := (@View.Carries.select_root _ _ _ _ _ _ tree Tree.toJson_carries trivial
    query.segments).1
  rw [Query.select, Query.select, wellFormed.nodeToJson_eq holds, values, numbers, List.length_map,
    List.length_map]

/-- A path with one descent at most, whatever its filters, selects no node twice from any node and
with any root for its filters. So selecting one node fails if and only if two different nodes are
selected, and the number that is reported is that of the different nodes; on the plain value of the
node it fails in the same cases and in the same way. -/
theorem select_distinct (wellFormed : document.WellFormed) {node : NodeId}
    (present : node < document.size) {query : Query}
    (single : query.segments.countP Segment.isDescent ≤ 1) :
    let selected := query.select document.view node
    let Ambiguous (error : PathError) :=
      (∃ first ∈ selected, ∃ second ∈ selected, first ≠ second) ∧
        error = .multipleMatches query.text selected.toFinset.card
    (∀ top, (document.view.select top query.segments [node]).Nodup) ∧
      (∀ error, query.selectOne document.view node = .error error ↔ Ambiguous error) ∧
      (∀ error, query.selectOne Json.view (document.nodeToJson node) = .error error ↔
        Ambiguous error) := by
  intro selected Ambiguous
  have tree := wellFormed.treeLike
  have distinct : ∀ top, (document.view.select top query.segments [node]).Nodup := by
    intro top
    refine tree.nodup_select present ?_ (List.pairwise_singleton _ _) single
    exact List.forall_mem_singleton.mpr (tree.self_mem present)
  have counted : selected.toFinset.card = selected.length :=
    List.toFinset_card_of_nodup (distinct node)
  have several : 1 < selected.length ↔ ∃ first ∈ selected, ∃ second ∈ selected, first ≠ second := by
    rw [← counted, Finset.one_lt_card]
    simp only [List.mem_toFinset]
  have ambiguous (error : PathError) : 1 < selected.length ∧
      error = .multipleMatches query.text selected.length ↔ Ambiguous error := by
    rw [several, ← counted]
  refine ⟨distinct, fun error => ?_, fun error => ?_⟩
  · rw [Query.selectOne_eq_error_iff]
    exact ambiguous error
  · rw [Query.selectOne_eq_error_iff, wellFormed.length_select_nodeToJson present]
    exact ambiguous error

/-- Behind the descent, nodes that lie one below another lead to different nodes. -/
theorem select_distinct_nested :
    let inner : Json := .object [("b", .array [.integer 1, .integer 2]), ("c", .integer 0)]
    let document := ofJson (.object [("a", .object [("b", inner)])])
    let query : Query :=
      ⟨"$.a..b[*]", [.child (.name "a"), .descendant (.name "b"), .child .wildcard]⟩
    document.WellFormed ∧ root < document.size ∧ query.segments.countP Segment.isDescent ≤ 1 ∧
      query.select document.view root = [3, 6, 4, 5] ∧
      query.selectOne document.view root = .error (.multipleMatches "$.a..b[*]" 4) := by
  intro inner document query
  have wellFormed : document.WellFormed := ofJson_wellFormed _
  have present : root < document.size := by decide
  have single : query.segments.countP Segment.isDescent ≤ 1 := by decide
  have selected : query.select document.view root = [3, 6, 4, 5] := by decide +kernel
  have ambiguous := ((select_distinct wellFormed present single).2.1
    (.multipleMatches "$.a..b[*]" 4)).mpr
  rw [selected] at ambiguous
  exact ⟨wellFormed, present, single, selected,
    ambiguous ⟨⟨3, by decide, 6, by decide, by decide⟩, by decide⟩⟩

/-- Of two descents the second may come to a node from two nodes, one below the other. -/
example :
    let document := ofJson (.object [("a", .object [("a", .object [("b", .integer 1)])])])
    document.view.select root [.descendant (.name "a"), .descendant (.name "b")] [root] =
      [3, 3] := by
  decide +kernel

end Document

end TemplateFill
