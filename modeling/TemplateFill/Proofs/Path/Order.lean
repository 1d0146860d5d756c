import TemplateFill.Proofs.Path.Descent
import TemplateFill.Proofs.Path.Selection
import Mathlib.Data.List.Flatten
import Mathlib.Data.List.Nodup

/-!
The order in which nodes are selected.

A trail to a selected node names, segment by segment, the node that the segment looks at and the one
that it picks there. Selecting lists the ends of all trails, and the trails in lexicographic order:
each segment takes the nodes that it looks at in preorder, and the picked ones in preorder within
each of them. The ends themselves come in preorder if no descent picks from nodes one below another.
-/

namespace TemplateFill

def Segment.selector : Segment → Selector
  | .child selector => selector
  | .descendant selector => selector

namespace View

variable {ν : Type} {view : View ν} {root : ν} {within : ν → Prop}

/-! ### Trails -/

def visits (view : View ν) : Segment → ν → List ν
  | .child _, node => [node]
  | .descendant _, node => view.descendants node

/-- Segments lead from a node along a trail to an end. The trail holds, for each segment, the node
looked at and the node picked. -/
inductive IsTrail (view : View ν) (root : ν) : List Segment → ν → List ν → ν → Prop
  | done {node : ν} : IsTrail view root [] node [] node
  | next {segment : Segment} {later : List Segment} {node visited picked : ν} {trail : List ν}
      {last : ν} (visit : visited ∈ view.visits segment node)
      (pick : picked ∈ view.pick root segment.selector visited)
      (rest : IsTrail view root later picked trail last) :
      IsTrail view root (segment :: later) node (visited :: picked :: trail) last

def trails (view : View ν) (root : ν) : List Segment → ν → List (List ν × ν)
  | [], node => [([], node)]
  | segment :: later, node =>
      (view.visits segment node).flatMap fun visited =>
        (view.pick root segment.selector visited).flatMap fun picked =>
          (view.trails root later picked).map fun rest =>
            (visited :: picked :: rest.1, rest.2)

theorem step_eq (segment : Segment) (node : ν) :
    view.step root segment node =
      (view.visits segment node).flatMap (view.pick root segment.selector) := by
  cases segment with
  | child selector => rw [step, visits, List.flatMap_singleton, Segment.selector]
  | descendant selector => rw [step, visits, Segment.selector]

/-- Selecting lists the ends of the trails. -/
theorem select_eq_trails (segments : List Segment) (nodes : List ν) :
    view.select root segments nodes =
      nodes.flatMap fun node => (view.trails root segments node).map Prod.snd := by
  induction segments generalizing nodes with
  | nil => simp [select, trails]
  | cons segment later ih =>
      rw [select_cons, ih, List.flatMap_assoc]
      refine List.flatMap_congr fun node _ => ?_
      rw [step_eq, trails, List.flatMap_assoc, List.map_flatMap]
      refine List.flatMap_congr fun visited _ => ?_
      rw [List.map_flatMap]
      refine List.flatMap_congr fun picked _ => ?_
      rw [List.map_map]
      rfl

theorem mem_trails_iff {segments : List Segment} {node : ν} {trail : List ν} {last : ν} :
    (trail, last) ∈ view.trails root segments node ↔
      view.IsTrail root segments node trail last := by
  induction segments generalizing node trail with
  | nil =>
      constructor
      · intro inside
        cases List.mem_singleton.mp inside
        exact .done
      · rintro ⟨⟩
        exact List.mem_singleton.mpr rfl
  | cons segment later ih =>
      simp only [trails, List.mem_flatMap, List.mem_map]
      constructor
      · rintro ⟨visited, visit, picked, pick, ⟨behind, _⟩, rest, same⟩
        cases same
        exact .next visit pick (ih.mp rest)
      · rintro (_ | ⟨visit, pick, rest⟩)
        exact ⟨_, visit, _, pick, _, ih.mpr rest, rfl⟩

/-! ### Views of trees -/

/-- The nodes of a kind that is closed downwards stand on trees: a descent lists the node and then
the descents of its children, no node twice, and members and elements are children. -/
structure TreeLike (view : View ν) (within : ν → Prop) : Prop where
  descends : ∀ node, within node →
    view.descendants node = node :: (view.children node).flatMap view.descendants
  distinct : ∀ node, within node → (view.descendants node).Nodup
  member : ∀ node, within node → ∀ key found, view.member? key node = some found →
    found ∈ view.children node
  element : ∀ node, within node → ∀ position found, view.element? position node = some found →
    found ∈ view.children node
  childWithin : ∀ node, within node → ∀ child ∈ view.children node, within child

def Before (view : View ν) (top first second : ν) : Prop :=
  [first, second].Sublist (view.descendants top)

instance [DecidableEq ν] (view : View ν) (top first second : ν) :
    Decidable (view.Before top first second) :=
  inferInstanceAs (Decidable (List.Sublist _ _))

/-- The tree of the first node stands before the tree of the second in the descent from the top. -/
def Apart (view : View ν) (top first second : ν) : Prop :=
  (view.descendants first ++ view.descendants second).Sublist (view.descendants top)

/-- One of the descents picks something from a node and from another node below it. -/
def Nests (view : View ν) (root : ν) (segments : List Segment) (nodes : List ν) : Prop :=
  ∃ earlier selector later, segments = earlier ++ .descendant selector :: later ∧
    ∃ start ∈ view.select root earlier nodes, ∃ upper ∈ view.descendants start,
      ∃ lower ∈ view.descendants upper, lower ≠ upper ∧ view.pick root selector upper ≠ [] ∧
        view.pick root selector lower ≠ []

namespace TreeLike

variable {top node : ν}

theorem unfolds (tree : view.TreeLike within) : view.Unfolds within :=
  ⟨tree.descends, tree.childWithin⟩

theorem self_mem (tree : view.TreeLike within) (inside : within node) :
    node ∈ view.descendants node := by
  rw [tree.descends node inside]
  exact List.mem_cons_self ..

theorem children_sublist (tree : view.TreeLike within) (inside : within node) :
    ((view.children node).flatMap view.descendants).Sublist (view.descendants node) := by
  rw [tree.descends node inside]
  exact List.sublist_cons_self ..

theorem child_sublist (tree : view.TreeLike within) (inside : within node) {child : ν}
    (directly : child ∈ view.children node) :
    (view.descendants child).Sublist (view.descendants node) :=
  (List.sublist_flatten_of_mem (List.mem_map_of_mem directly)).trans
    (tree.children_sublist inside)

/-- What holds of a node if it holds of its children holds of every node: descents get shorter. -/
theorem induction (tree : view.TreeLike within) {motive : ∀ node, within node → Prop}
    (step : ∀ (node : ν) (inside : within node),
      (∀ (child : ν) (directly : child ∈ view.children node),
        motive child (tree.childWithin node inside child directly)) → motive node inside)
    (node : ν) (inside : within node) : motive node inside := by
  generalize long : (view.descendants node).length = length
  induction length using Nat.strongRecOn generalizing node with
  | ind length ih =>
      refine step node inside fun child directly => ?_
      refine ih _ ?_ child _ rfl
      have part := (List.sublist_flatten_of_mem
        (List.mem_map_of_mem (f := view.descendants) directly)).length_le
      rw [← long, tree.descends node inside, List.length_cons]
      exact Nat.lt_succ_of_le part

theorem descendants_sublist (tree : view.TreeLike within) (inside : within node) :
    ∀ below ∈ view.descendants node,
      within below ∧ (view.descendants below).Sublist (view.descendants node) := by
  induction node, inside using tree.induction with
  | step node inside ih =>
      intro below listed
      rw [tree.descends node inside, List.mem_cons, List.mem_flatMap] at listed
      rcases listed with rfl | ⟨child, directly, deeper⟩
      · exact ⟨inside, List.Sublist.refl _⟩
      · obtain ⟨here, part⟩ := ih child directly below deeper
        exact ⟨here, part.trans (tree.child_sublist inside directly)⟩

theorem pick_sublist (tree : view.TreeLike within) (inside : within node) (selector : Selector) :
    (view.pick root selector node).Sublist (view.children node) := by
  cases selector with
  | name key =>
      rw [pick]
      cases found : view.member? key node with
      | none => exact List.nil_sublist _
      | some member => exact List.singleton_sublist.mpr (tree.member node inside key member found)
  | index position =>
      rw [pick]
      cases found : view.element? position node with
      | none => exact List.nil_sublist _
      | some element =>
          exact List.singleton_sublist.mpr (tree.element node inside position element found)
  | wildcard => rw [pick]
  | filter condition =>
      rw [pick]
      exact List.filter_sublist

theorem visits_sublist (tree : view.TreeLike within) (inside : within node) (segment : Segment) :
    (view.visits segment node).Sublist (view.descendants node) := by
  cases segment with
  | child selector => exact List.singleton_sublist.mpr (tree.self_mem inside)
  | descendant selector => exact List.Sublist.refl _

theorem mem_of_pick (tree : view.TreeLike within) (inside : within node) {selector : Selector}
    {picked : ν} (found : picked ∈ view.pick root selector node) :
    picked ∈ view.descendants node := by
  have child := (tree.pick_sublist inside selector).subset found
  have below := tree.childWithin node inside picked child
  exact (tree.child_sublist inside child).subset (tree.self_mem below)

/-! ### The order of trails -/

private theorem pairwise_of_sublist {part whole : List ν} (sublist : part.Sublist whole) :
    part.Pairwise fun first second => [first, second].Sublist whole :=
  List.pairwise_iff_forall_sublist.mpr fun pair => pair.trans sublist

theorem pairwise_children (tree : view.TreeLike within) (topWithin : within top)
    (inside : node ∈ view.descendants top) : (view.children node).Pairwise (view.Apart top) := by
  obtain ⟨here, part⟩ := tree.descendants_sublist topWithin node inside
  have whole := (tree.children_sublist here).trans part
  rw [List.pairwise_iff_forall_sublist]
  intro first second pair
  have both := (pair.flatMap view.descendants).trans whole
  rwa [List.flatMap_cons, List.flatMap_singleton] at both

theorem before_of_apart (tree : view.TreeLike within) {first second : ν}
    (firstWithin : within first) (secondWithin : within second)
    (apart : view.Apart top first second) : view.Before top first second := by
  have one := List.singleton_sublist.mpr (tree.self_mem firstWithin)
  have other := List.singleton_sublist.mpr (tree.self_mem secondWithin)
  exact (one.append other).trans apart

theorem pairwise_pick (tree : view.TreeLike within) (topWithin : within top)
    (inside : node ∈ view.descendants top) (selector : Selector) :
    (view.pick root selector node).Pairwise (view.Apart top) := by
  obtain ⟨here, _⟩ := tree.descendants_sublist topWithin node inside
  exact (tree.pairwise_children topWithin inside).sublist (tree.pick_sublist here selector)

theorem pairwise_before_pick (tree : view.TreeLike within) (topWithin : within top)
    (inside : node ∈ view.descendants top) (selector : Selector) :
    (view.pick root selector node).Pairwise (view.Before top) := by
  obtain ⟨here, _⟩ := tree.descendants_sublist topWithin node inside
  have known : ∀ picked ∈ view.pick root selector node, within picked := fun picked pick =>
    (tree.descendants_sublist here picked (tree.mem_of_pick here pick)).1
  exact (tree.pairwise_pick topWithin inside selector).imp_of_mem fun first second apart =>
    tree.before_of_apart (known _ first) (known _ second) apart

theorem pairwise_trails (tree : view.TreeLike within) (topWithin : within top)
    (segments : List Segment) (inside : node ∈ view.descendants top) :
    (view.trails root segments node).Pairwise fun earlier later =>
      List.Lex (view.Before top) earlier.1 later.1 := by
  induction segments generalizing node with
  | nil => exact List.pairwise_singleton _ _
  | cons segment later ih =>
      obtain ⟨here, part⟩ := tree.descendants_sublist topWithin node inside
      have visits := (tree.visits_sublist here segment).trans part
      rw [trails, List.pairwise_flatMap]
      constructor
      · intro visited visit
        have listed := visits.subset visit
        obtain ⟨visitedWithin, below⟩ := tree.descendants_sublist topWithin visited listed
        rw [List.pairwise_flatMap]
        constructor
        · intro picked pick
          rw [List.pairwise_map]
          have deeper := ih (below.subset (tree.mem_of_pick visitedWithin pick))
          exact deeper.imp fun before => .cons (.cons before)
        · refine (tree.pairwise_before_pick topWithin listed _).imp fun before => ?_
          simp only [List.mem_map]
          rintro _ ⟨_, _, rfl⟩ _ ⟨_, _, rfl⟩
          exact .cons (.rel before)
      · refine (pairwise_of_sublist visits).imp fun before => ?_
        simp only [List.mem_flatMap, List.mem_map]
        rintro _ ⟨_, _, _, _, rfl⟩ _ ⟨_, _, _, _, rfl⟩
        exact .rel before

/-! ### Ends in preorder -/

private theorem pair_sublist_append {first second : ν} {before behind : List ν}
    (pair : [first, second].Sublist (before ++ behind)) :
    [first, second].Sublist before ∨ first ∈ before ∧ second ∈ behind ∨
      [first, second].Sublist behind := by
  obtain ⟨left, right, split, inBefore, inBehind⟩ := List.sublist_append_iff.mp pair
  match left, split with
  | [], split =>
      rw [split]
      exact Or.inr (Or.inr inBehind)
  | [_], split =>
      cases split
      exact Or.inr (Or.inl ⟨inBefore.subset (by simp), inBehind.subset (by simp)⟩)
  | [_, _], split =>
      cases split
      exact Or.inl inBefore

/-- Of two nodes in preorder the second lies below the first or behind all that is below it. -/
theorem apart_of_before (tree : view.TreeLike within) (topWithin : within top) {first second : ν}
    (before : view.Before top first second) (outside : second ∉ view.descendants first) :
    view.Apart top first second := by
  induction top, topWithin using tree.induction with
  | step top topWithin ih =>
      have unfolded := tree.descends top topWithin
      unfold Before at before
      rw [unfolded] at before
      cases before with
      | cons_cons _ below =>
          refine absurd ?_ outside
          rw [unfolded]
          exact List.mem_cons_of_mem _ (List.singleton_sublist.mp below)
      | cons _ below =>
          refine List.Sublist.trans ?_ (tree.children_sublist topWithin)
          have deeper : ∀ child ∈ view.children top, ∀ found ∈ view.descendants child,
              (view.descendants found).Sublist (view.descendants child) :=
            fun child directly found known => (tree.descendants_sublist
              (tree.childWithin top topWithin child directly) found known).2
          generalize view.children top = children at ih below deeper
          induction children with
          | nil => cases below
          | cons child children further =>
              rw [List.flatMap_cons] at below ⊢
              rcases pair_sublist_append below with both | ⟨here, there⟩ | both
              · have apart := ih child (List.mem_cons_self ..) both
                exact apart.trans (List.sublist_append_left ..)
              · obtain ⟨other, listed, known⟩ := List.mem_flatMap.mp there
                have later := deeper other (List.mem_cons_of_mem _ listed) second known
                have part := List.sublist_flatten_of_mem
                  (List.mem_map_of_mem (f := view.descendants) listed)
                exact (deeper child (List.mem_cons_self ..) first here).append (later.trans part)
              · have rest := further (fun other listed => ih other (List.mem_cons_of_mem _ listed))
                  both fun other listed => deeper other (List.mem_cons_of_mem _ listed)
                exact rest.trans (List.sublist_append_right ..)

theorem apart_of_mem (tree : view.TreeLike within) {first second upper lower : ν}
    (firstWithin : within first) (secondWithin : within second)
    (apart : view.Apart top first second) (inFirst : upper ∈ view.descendants first)
    (inSecond : lower ∈ view.descendants second) : view.Apart top upper lower :=
  ((tree.descendants_sublist firstWithin upper inFirst).2.append
    (tree.descendants_sublist secondWithin lower inSecond).2).trans apart

theorem mem_of_step (tree : view.TreeLike within) (inside : within node) {segment : Segment}
    {found : ν} (selected : found ∈ view.step root segment node) :
    found ∈ view.descendants node := by
  rw [step_eq] at selected
  obtain ⟨visited, visit, pick⟩ := List.mem_flatMap.mp selected
  have listed := (tree.visits_sublist inside segment).subset visit
  obtain ⟨visitedWithin, part⟩ := tree.descendants_sublist inside visited listed
  exact part.subset (tree.mem_of_pick visitedWithin pick)

/-- One segment selects nodes apart, provided that of the nodes it looks at and picks from none lies
below another. -/
theorem pairwise_step (tree : view.TreeLike within) (topWithin : within top)
    (inside : node ∈ view.descendants top) (segment : Segment)
    (flat : ∀ upper ∈ view.visits segment node, ∀ lower ∈ view.visits segment node,
      lower ∈ view.descendants upper → lower ≠ upper →
        view.pick root segment.selector upper ≠ [] → view.pick root segment.selector lower = []) :
    (view.step root segment node).Pairwise (view.Apart top) := by
  obtain ⟨here, part⟩ := tree.descendants_sublist topWithin node inside
  have visits := tree.visits_sublist here segment
  have known : ∀ visited ∈ view.visits segment node, within visited := fun visited visit =>
    (tree.descendants_sublist here visited (visits.subset visit)).1
  rw [step_eq, List.pairwise_flatMap]
  constructor
  · intro visited visit
    exact tree.pairwise_pick topWithin (part.subset (visits.subset visit)) segment.selector
  · refine (pairwise_of_sublist visits).imp_of_mem ?_
    intro upper lower visit visit' before earlier first later second
    have different : lower ≠ upper := by
      rintro rfl
      exact List.nodup_iff_sublist.mp (tree.distinct node here) lower before
    have outside : lower ∉ view.descendants upper := fun below =>
      List.ne_nil_of_mem second
        (flat upper visit lower visit' below different (List.ne_nil_of_mem first))
    have apart := (tree.apart_of_before here before outside).trans part
    exact tree.apart_of_mem (known upper visit) (known lower visit') apart
      (tree.mem_of_pick (known upper visit) first) (tree.mem_of_pick (known lower visit') second)

theorem mem_of_flatMap_step (tree : view.TreeLike within) (topWithin : within top)
    {nodes : List ν} (inside : ∀ node ∈ nodes, node ∈ view.descendants top) (segment : Segment) :
    ∀ next ∈ nodes.flatMap (view.step root segment), next ∈ view.descendants top := by
  intro next listed
  obtain ⟨node, known, step⟩ := List.mem_flatMap.mp listed
  obtain ⟨here, part⟩ := tree.descendants_sublist topWithin node (inside node known)
  exact part.subset (tree.mem_of_step here step)

/-- One segment selects nodes apart from nodes apart, provided that of the nodes it looks at below
one of them and picks from none lies below another. -/
theorem pairwise_flatMap_step (tree : view.TreeLike within) (topWithin : within top)
    {nodes : List ν} (inside : ∀ node ∈ nodes, node ∈ view.descendants top)
    (apart : nodes.Pairwise (view.Apart top)) (segment : Segment)
    (flat : ∀ node ∈ nodes, ∀ upper ∈ view.visits segment node,
      ∀ lower ∈ view.visits segment node, lower ∈ view.descendants upper → lower ≠ upper →
        view.pick root segment.selector upper ≠ [] → view.pick root segment.selector lower = []) :
    (nodes.flatMap (view.step root segment)).Pairwise (view.Apart top) := by
  have known : ∀ node ∈ nodes, within node := fun node listed =>
    (tree.descendants_sublist topWithin node (inside node listed)).1
  rw [List.pairwise_flatMap]
  constructor
  · exact fun node listed =>
      tree.pairwise_step topWithin (inside node listed) segment (flat node listed)
  · refine apart.imp_of_mem fun first second apart => ?_
    intro earlier from' other from''
    exact tree.apart_of_mem (known _ first) (known _ second) apart
      (tree.mem_of_step (known _ first) from') (tree.mem_of_step (known _ second) from'')

/-- Segments select nodes apart from nodes apart, if no descent picks from a node and from one below
it. -/
theorem pairwise_select (tree : view.TreeLike within) (topWithin : within top)
    {segments : List Segment} {nodes : List ν}
    (inside : ∀ node ∈ nodes, node ∈ view.descendants top)
    (apart : nodes.Pairwise (view.Apart top)) (flat : ¬view.Nests root segments nodes) :
    (view.select root segments nodes).Pairwise (view.Before top) := by
  induction segments generalizing nodes with
  | nil =>
      have within' : ∀ node ∈ nodes, within node := fun node listed =>
        (tree.descendants_sublist topWithin node (inside node listed)).1
      rw [select]
      exact apart.imp_of_mem fun first second =>
        tree.before_of_apart (within' _ first) (within' _ second)
  | cons segment later ih =>
      rw [select_cons]
      refine ih (tree.mem_of_flatMap_step topWithin inside segment)
        (tree.pairwise_flatMap_step topWithin inside apart segment ?_) ?_
      · intro node known upper visit lower visit' below different picked
        by_contra other
        cases segment with
        | child selector =>
            cases List.mem_singleton.mp visit
            exact different (List.mem_singleton.mp visit')
        | descendant selector =>
            exact flat ⟨[], selector, later, rfl, node, known, upper, visit, lower, below,
              different, picked, other⟩
      · rintro ⟨earlier, selector, rest, rfl, start, known, nested⟩
        rw [← select_cons] at known
        exact flat ⟨segment :: earlier, selector, rest, rfl, start, known, nested⟩

end TreeLike

end View

end TemplateFill
