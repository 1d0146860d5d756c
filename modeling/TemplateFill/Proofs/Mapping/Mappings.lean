import TemplateFill.Proofs.Document.Reshape
import TemplateFill.Proofs.Mapping.Qualifiers

/-!
The mappings of a tree: its qualifiers whose value is a path into the data, in the order in which they
are found.

Changes that keep the types of qualifiers keep the mappings, each changed in its place. When one array
stands in the place of another, the mappings in front of it and behind it stay.
-/

namespace TemplateFill

def Json.mappings (value : Json) : List Json := Json.view.qualifiersBelow Json.view.isIndexed value

namespace Tree

def mappings (tree : Tree) : List Tree := view.qualifiersBelow view.isIndexed tree

theorem mappings_toJson (tree : Tree) : tree.toJson.mappings = tree.mappings.map toJson :=
  @View.Carries.qualifiersBelow _ _ _ _ _ _ toJson_carries tree trivial view.isIndexed
    Json.view.isIndexed fun _ _ => toJson_carries.isIndexed trivial

theorem mappings_eq (tree : Tree) :
    tree.mappings = view.owned view.isIndexed tree ++ tree.children.flatMap mappings :=
  qualifiersBelow_eq view.isIndexed tree

theorem mappings_array (number : NodeId) (elements : List Tree) :
    (array number elements).mappings = elements.flatMap mappings := by
  rw [mappings_eq]
  rfl

theorem mappings_isInfix {tree below : Tree} (within : below ∈ tree.preorder) :
    below.mappings <:+: tree.mappings := by
  induction tree using induction with
  | step tree ih =>
      rcases mem_preorder_iff.mp within with same | ⟨child, directly, deeper⟩
      · exact same ▸ List.infix_rfl
      · obtain ⟨before, after, split⟩ := List.append_of_mem directly
        refine (ih child directly deeper).trans
          ⟨view.owned view.isIndexed tree ++ before.flatMap mappings, after.flatMap mappings, ?_⟩
        rw [mappings_eq tree, split, List.flatMap_append, List.flatMap_cons]
        simp only [List.append_assoc]

theorem qualifiersBelow_filter {which stronger : Tree → Bool}
    (implies : ∀ tree, stronger tree = true → which tree = true) (tree : Tree) :
    view.qualifiersBelow stronger tree = (view.qualifiersBelow which tree).filter stronger := by
  unfold View.qualifiersBelow
  rw [List.filter_flatMap]
  refine List.flatMap_congr fun owner _ => ?_
  unfold View.owned
  rw [List.filter_flatMap]
  refine List.flatMap_congr fun container _ => ?_
  rw [List.filter_filter]
  refine List.filter_congr fun child _ => ?_
  cases passes : stronger child with
  | false => rfl
  | true => rw [implies child passes]; rfl

theorem qualifiersBelow_collection (tree : Tree) :
    view.qualifiersBelow (view.hasTag QualifierType.collectionMappingInfo.tag) tree =
      tree.mappings.filter (view.hasTag QualifierType.collectionMappingInfo.tag) :=
  qualifiersBelow_filter (fun tree tagged => by rw [View.isIndexed, tagged, Bool.or_true]) tree

theorem qualifiersBelow_mappingInfo (tree : Tree) :
    view.qualifiersBelow (view.hasTag QualifierType.mappingInfo.tag) tree =
      tree.mappings.filter (view.hasTag QualifierType.mappingInfo.tag) :=
  qualifiersBelow_filter (fun tree tagged => by rw [View.isIndexed, tagged, Bool.true_or]) tree

/-! ### Tags -/

theorem hasTag_congr {first second : Tree}
    (same : first.stringMember? Key.type = second.stringMember? Key.type) (tag : String) :
    view.hasTag tag first = view.hasTag tag second := by
  rw [Bool.eq_iff_iff, hasTag_iff, hasTag_iff, same]

theorem isIndexed_congr {first second : Tree}
    (same : first.stringMember? Key.type = second.stringMember? Key.type) :
    view.isIndexed first = view.isIndexed second := by
  rw [View.isIndexed, View.isIndexed, hasTag_congr same, hasTag_congr same]

theorem hasTag_unique {tree : Tree} {tag other : String} (tagged : view.hasTag tag tree = true)
    (different : tag ≠ other) : view.hasTag other tree = false := by
  rw [Bool.eq_false_iff]
  intro also
  rw [hasTag_iff] at tagged also
  exact different (Option.some.inj (tagged.symm.trans also))

/-! ### Changes that keep types -/

theorem flatMap_filter_of_nil {α β : Type} {keep : α → Bool} {taken found : α → List β} :
    ∀ {list : List α}, (∀ item ∈ list, taken item = found item) →
      (∀ item ∈ list, keep item = false → found item = []) →
        (list.filter keep).flatMap taken = list.flatMap found
  | [], _, _ => rfl
  | item :: rest, same, nothing => by
      have later := flatMap_filter_of_nil (fun other inside => same other (.tail _ inside))
        fun other inside => nothing other (.tail _ inside)
      cases kept : keep item with
      | true =>
          rw [List.filter_cons_of_pos kept, List.flatMap_cons, List.flatMap_cons, later,
            same item (.head _)]
      | false =>
          rw [List.filter_cons_of_neg (by rw [kept]; exact Bool.false_ne_true), later,
            List.flatMap_cons, nothing item (.head _) kept]
          rfl

/-- A change that drops some children, keeps the types of all nodes, and drops no mapping but those at
dropped nodes. -/
theorem qualifiersBelow_change {which keep : Tree → Bool} {change : Tree → Tree} (tree : Tree)
    (children : ∀ node ∈ tree.preorder,
      (change node).children = (node.children.filter keep).map change)
    (container : ∀ node ∈ tree.preorder,
      (change node).member? Key.qualifiers = (node.member? Key.qualifiers).map change)
    (same : ∀ node ∈ tree.preorder, which (change node) = which node)
    (bare : ∀ node ∈ tree.preorder, keep node = false → view.qualifiersBelow which node = []) :
    view.qualifiersBelow which (change tree) =
      ((view.qualifiersBelow which tree).filter keep).map change := by
  induction tree using induction with
  | step tree ih =>
      have owned : view.owned which (change tree) =
          ((view.owned which tree).filter keep).map change := by
        have moved := container tree tree.self_mem_preorder
        cases found : tree.member? Key.qualifiers with
        | none =>
            rw [found] at moved
            rw [View.owned_of_none which moved, View.owned_of_none which found]
            rfl
        | some list =>
            have inside := child_mem_preorder (mem_children_of_member? found)
            rw [found] at moved
            rw [View.owned_of_some which moved, View.owned_of_some which found]
            change ((change list).children).filter which = ((list.children.filter which).filter _).map _
            rw [children list inside, List.filter_map, List.filter_filter, List.filter_filter]
            refine congrArg (List.map change) (List.filter_congr fun child directly => ?_)
            rw [Function.comp_apply, same child
              (preorder_trans inside (child_mem_preorder directly)), Bool.and_comm]
      have below : ∀ child ∈ tree.children, child ∈ tree.preorder := fun child directly =>
        child_mem_preorder directly
      have deeper : ((tree.children.filter keep).map change).flatMap (view.qualifiersBelow which) =
          ((tree.children.flatMap (view.qualifiersBelow which)).filter keep).map change := by
        rw [List.flatMap_map, List.filter_flatMap, List.map_flatMap]
        refine flatMap_filter_of_nil (fun child directly => ?_) fun child directly gone => ?_
        · have into : ∀ node ∈ child.preorder, node ∈ tree.preorder := fun node within =>
            preorder_trans (below child directly) within
          exact ih child directly (fun node within => children node (into node within))
            (fun node within => container node (into node within))
            (fun node within => same node (into node within))
            fun node within => bare node (into node within)
        · rw [bare child (below child directly) gone]
          rfl
      rw [qualifiersBelow_eq, owned, children tree tree.self_mem_preorder, deeper,
        qualifiersBelow_eq which tree, List.filter_append, List.map_append]

/-! ### Members of changed trees -/

theorem member?_mapChildren (key : String) (change : Tree → Tree) (tree : Tree) :
    (tree.mapChildren change).member? key = (tree.member? key).map change := by
  cases tree with
  | scalar number value => rfl
  | array number elements => rfl
  | object number members => exact memberOf?_map key change members

theorem member?_without {gone : NodeId → Bool} {tree : Tree} (key : String)
    (kept : ∀ number members, tree = .object number members →
      ∀ member ∈ members, gone member.2.number = false) :
    (tree.without gone).member? key = (tree.member? key).map (without gone) := by
  cases tree with
  | scalar number value => rw [without]; rfl
  | array number elements => rw [without]; rfl
  | object number members =>
      have all : (members.filter fun member => !gone member.2.number) = members :=
        List.filter_eq_self.mpr fun member inside => by
          rw [kept number members rfl member inside]
          rfl
      rw [without, all]
      exact memberOf?_map key (without gone) members

theorem string?_without (gone : NodeId → Bool) (tree : Tree) :
    (tree.without gone).string? = tree.string? := by
  cases tree with
  | scalar number value => rw [without]
  | array number elements => rw [without]; rfl
  | object number members => rw [without]; rfl

theorem string?_retext {texts : NodeId → Option String} {tree : Tree}
    (kept : texts tree.number = none) : (tree.retext texts).string? = tree.string? := by
  cases tree with
  | scalar number value =>
      rw [retext, show texts number = none from kept]
      rfl
  | array number elements => rw [retext]; rfl
  | object number members => rw [retext]; rfl

theorem stringMember?_retext {texts : NodeId → Option String} {tree : Tree} {key : String}
    (kept : ∀ member, tree.member? key = some member → texts member.number = none) :
    (tree.retext texts).stringMember? key = tree.stringMember? key := by
  rw [stringMember?, stringMember?, member?_retext]
  cases found : tree.member? key with
  | none => rfl
  | some member => exact string?_retext (kept member found)

end Tree

namespace Document

variable {document : Document} {tree : Tree}

theorem WellFormed.member_inj (wellFormed : document.WellFormed) {first second : Tree}
    (left : document.Holds first) (right : document.Holds second) {key other : String}
    {member found : Tree} (one : first.member? key = some member)
    (two : second.member? other = some found) (same : member.number = found.number) :
    first = second ∧ key = other := by
  have link := left.linked (Tree.mem_children_of_member? one)
  rw [same, right.linked (Tree.mem_children_of_member? two)] at link
  have equal := left.unique right (Option.some.inj link).symm
  subst equal
  have recorded : document.member? key first.number = some found.number := by
    rw [left.member?, one, Option.map_some, same]
  have again : document.member? other first.number = some found.number := by
    rw [left.member?, two, Option.map_some]
  exact ⟨rfl, wellFormed.member?_inj recorded again⟩

theorem WellFormed.nodup_mappings (wellFormed : document.WellFormed)
    (holds : document.Holds tree) : tree.mappings.Nodup :=
  (wellFormed.nodup_qualifiersBelow holds Tree.view.isIndexed).of_map _

/-! ### One array in the place of another -/

section Graft

variable {number : NodeId} {elements others : List Tree}

theorem Holds.stringMember?_graft (held : document.Holds (.array number elements)) {node : Tree}
    (holds : document.Holds node) (key : String) :
    (node.graft (.array number others)).stringMember? key = node.stringMember? key := by
  by_cases here : node.number = number
  · rw [Tree.graft_of_eq here, holds.unique held here]
    rfl
  · rw [Tree.graft_of_ne here, Tree.stringMember?, Tree.stringMember?, Tree.member?_mapChildren]
    cases found : node.member? key with
    | none => rfl
    | some member =>
        rw [Option.map_some, Option.bind_some, Option.bind_some]
        by_cases same : member.number = number
        · have below := holds.of_mem_children (Tree.mem_children_of_member? found)
          rw [Tree.graft_of_eq same, below.unique held same]
          rfl
        · rw [Tree.graft_of_ne same]
          cases member <;> rfl

theorem Holds.isIndexed_graft (held : document.Holds (.array number elements)) {node : Tree}
    (holds : document.Holds node) :
    Tree.view.isIndexed (node.graft (.array number others)) = Tree.view.isIndexed node :=
  Tree.isIndexed_congr (held.stringMember?_graft holds Key.type)

/-- The mappings of an owner above the array. If the array holds the qualifiers of the owner, none of
its elements may be a mapping. -/
private theorem Holds.owned_graft (holds : document.Holds tree)
    (held : document.Holds (.array number elements)) (above : tree.number ≠ number)
    (quiet : tree.member? Key.qualifiers = some (.array number elements) →
      elements.filter Tree.view.isIndexed = [] ∧ others.filter Tree.view.isIndexed = []) :
    Tree.view.owned Tree.view.isIndexed (tree.graft (.array number others)) =
      (Tree.view.owned Tree.view.isIndexed tree).map fun found =>
        found.graft (.array number others) := by
  have moved : (tree.graft (.array number others)).member? Key.qualifiers =
      (tree.member? Key.qualifiers).map fun list => list.graft (.array number others) := by
    rw [Tree.graft_of_ne above, Tree.member?_mapChildren]
  cases found : tree.member? Key.qualifiers with
  | none =>
      rw [found] at moved
      rw [View.owned_of_none _ moved, View.owned_of_none _ found]
      rfl
  | some list =>
      have listHolds := holds.of_mem_children (Tree.mem_children_of_member? found)
      rw [found] at moved
      rw [View.owned_of_some _ moved, View.owned_of_some _ found]
      change (list.graft (.array number others)).children.filter Tree.view.isIndexed =
        (list.children.filter Tree.view.isIndexed).map _
      by_cases here : list.number = number
      · have same := listHolds.unique held here
        subst same
        obtain ⟨none, noOther⟩ := quiet found
        rw [Tree.graft_of_eq here]
        change others.filter Tree.view.isIndexed = (elements.filter Tree.view.isIndexed).map _
        rw [none, noOther]
        rfl
      · rw [Tree.graft_of_ne here, Tree.children_mapChildren, List.filter_map]
        refine congrArg _ (List.filter_congr fun child directly => ?_)
        exact held.isIndexed_graft (listHolds.of_mem_children directly)

theorem mappings_graft_of_not_mem {part : List Tree} {new : Tree}
    (outside : ∀ other ∈ part, new.number ∉ other.numbers) :
    (part.map fun other => other.graft new) = part ∧
      ((part.flatMap Tree.mappings).map fun found => found.graft new) =
        part.flatMap Tree.mappings := by
  constructor
  · refine (List.map_congr_left fun other inside => ?_).trans (List.map_id _)
    exact Tree.graft_of_not_mem (outside other inside)
  · refine (List.map_congr_left fun found inside => ?_).trans (List.map_id _)
    obtain ⟨other, listed, mapping⟩ := List.mem_flatMap.mp inside
    refine Tree.graft_of_not_mem fun shared => outside other listed ?_
    exact Tree.numbers_subset (Tree.mem_preorder_of_qualifier mapping) shared

/-- The mappings of an array that is exchanged stand between others, which stay. -/
theorem WellFormed.mappings_graft (wellFormed : document.WellFormed) (holds : document.Holds tree)
    (within : .array number elements ∈ tree.preorder)
    (quiet : ∀ owner ∈ tree.preorder,
      owner.member? Key.qualifiers = some (.array number elements) →
        elements.filter Tree.view.isIndexed = [] ∧ others.filter Tree.view.isIndexed = []) :
    ∃ before after : List Tree,
      tree.mappings = before ++ (Tree.array number elements).mappings ++ after ∧
      (tree.graft (.array number others)).mappings =
        (before.map fun found => found.graft (.array number others)) ++
          (Tree.array number others).mappings ++
            after.map fun found => found.graft (.array number others) := by
  have held := holds.of_mem_preorder within
  induction holds with
  | @intro tree present content linked below ih =>
      have holds : document.Holds tree := .intro present content linked below
      by_cases here : tree.number = number
      · have same := holds.unique held here
        subst same
        refine ⟨[], [], by simp, ?_⟩
        rw [Tree.graft_of_eq here]
        simp
      · rcases Tree.mem_preorder_iff.mp within with same | ⟨child, directly, deeper⟩
        · rw [← same] at here
          exact absurd rfl here
        · obtain ⟨before, after, split, grafted⟩ := ih child directly deeper fun owner inside =>
            quiet owner (Tree.preorder_trans (Tree.child_mem_preorder directly) inside)
          obtain ⟨left, right, siblings⟩ := List.append_of_mem directly
          have outside : ∀ other ∈ left ++ right, number ∉ other.numbers := by
            intro other inside shared
            have distinct := wellFormed.nodup_children holds
            rw [siblings, List.map_append, List.map_cons, List.nodup_middle, List.nodup_cons,
              ← List.map_append] at distinct
            have sibling : other ∈ tree.children := by
              rw [siblings]
              rcases List.mem_append.mp inside with first | second
              · exact List.mem_append_left _ first
              · exact List.mem_append_right _ (List.mem_cons_of_mem _ second)
            refine holds.disjoint_children sibling directly ?_ shared
              (Tree.mem_numbers_of_mem_preorder deeper)
            intro same
            exact distinct.1 (same ▸ List.mem_map_of_mem inside)
          have apart : ∀ part ⊆ left ++ right, ∀ other ∈ part,
              (Tree.array number others).number ∉ other.numbers :=
            fun part included other inside => outside other (included inside)
          obtain ⟨leftSame, leftMappings⟩ :=
            mappings_graft_of_not_mem (apart left (List.subset_append_left _ _))
          obtain ⟨rightSame, rightMappings⟩ :=
            mappings_graft_of_not_mem (apart right (List.subset_append_right _ _))
          refine ⟨Tree.view.owned Tree.view.isIndexed tree ++ left.flatMap Tree.mappings ++ before,
            after ++ right.flatMap Tree.mappings, ?_, ?_⟩
          · rw [Tree.mappings_eq, siblings, List.flatMap_append, List.flatMap_cons, split]
            simp only [List.append_assoc]
          · rw [Tree.mappings_eq, holds.owned_graft held here (quiet tree tree.self_mem_preorder),
              Tree.graft_of_ne here, Tree.children_mapChildren, siblings, List.map_append,
              List.map_cons, leftSame, rightSame, List.flatMap_append, List.flatMap_cons, grafted]
            simp only [List.map_append, leftMappings, rightMappings, List.append_assoc]

end Graft

end Document

end TemplateFill
