import TemplateFill.Proofs.Document.Reachable
import TemplateFill.Proofs.Mapping.Qualifiers

/-!
What the search for qualifiers finds.

A qualifier stands directly below the node that an object has under its `qualifiers`. The search
below a scope finds these nodes wherever they stand, also among the qualifiers or in the value of
another element: all that carry the tag, each once, and an owner's before those of the owners below
it.
-/

namespace TemplateFill

namespace Document

/-- A node stands directly below the `qualifiers` of an owner. -/
def Owns (document : Document) (owner qualifier : NodeId) : Prop :=
  ∃ container, document.member? Key.qualifiers owner = some container ∧
    qualifier ∈ document.children container

def Tagged (document : Document) (kind : QualifierType) (qualifier : NodeId) : Prop :=
  document.stringMember? Key.type qualifier = some kind.tag

/-- A list of the nodes in the `qualifiers` of owners at or below a scope: of those that pass a
test. -/
structure Discovers (document : Document) (scope : NodeId) (tagged : NodeId → Prop)
    (found : List NodeId) : Prop where
  mem_iff : ∀ qualifier, qualifier ∈ found ↔
    tagged qualifier ∧ ∃ owner, document.Owns owner qualifier ∧
      ∃ levels, document.ancestor? owner levels = some scope
  once : found.Nodup
  /-- The grandparent of a node in the `qualifiers` of an owner is that owner. -/
  owner : ∀ qualifier owner, document.Owns owner qualifier →
    document.qualifierOwner? qualifier = some owner
  /-- Nodes of an owner come before those of the owners below it. -/
  outerFirst : ∀ outer ∈ found, ∀ inner ∈ found, ∀ upper lower levels,
    document.Owns upper outer → document.Owns lower inner →
      document.ancestor? lower (levels + 1) = some upper → [outer, inner].Sublist found
  /-- Nodes of one owner come in the order in which they stand. -/
  siblings : ∀ first ∈ found, ∀ second ∈ found, ∀ container,
    [first, second].Sublist (document.children container) → [first, second].Sublist found

variable {document : Document} {tree : Tree} {scope : NodeId}

theorem WellFormed.qualifierOwner?_of_owns (wellFormed : document.WellFormed)
    {owner qualifier : NodeId} (owns : document.Owns owner qualifier) :
    document.qualifierOwner? qualifier = some owner := by
  obtain ⟨container, member, directly⟩ := owns
  exact qualifierOwner?_of_parents (wellFormed.child directly).2.2
    (wellFormed.parent?_of_member? member)

/-- In a held tree the nodes that owners have in their `qualifiers` are those of the document. -/
theorem WellFormed.exists_owns_iff (wellFormed : document.WellFormed) (holds : document.Holds tree)
    {found : Tree} (within : found ∈ tree.preorder) :
    (∃ owner ∈ tree.preorder, ∃ container, owner.member? Key.qualifiers = some container ∧
        found ∈ container.children) ↔
      ∃ owner, document.Owns owner found.number ∧
        ∃ levels, document.ancestor? owner levels = some tree.number := by
  constructor
  · rintro ⟨owner, ownerWithin, container, member, directly⟩
    have ownerHolds := holds.of_mem_preorder ownerWithin
    refine ⟨owner.number, ⟨container.number, ?_, ?_⟩,
      holds.ancestor? (Tree.mem_numbers_of_mem_preorder ownerWithin)⟩
    · rw [ownerHolds.member?, member]
      rfl
    · rw [(ownerHolds.of_mem_children (Tree.mem_children_of_member? member)).children]
      exact List.mem_map_of_mem directly
  · rintro ⟨number, ⟨list, member, directly⟩, levels, above⟩
    have inside := wellFormed.mem_numbers_of_ancestor? holds levels number above
    obtain ⟨owner, ownerWithin, rfl⟩ := Tree.exists_of_mem_numbers inside
    have ownerHolds := holds.of_mem_preorder ownerWithin
    rw [ownerHolds.member?] at member
    obtain ⟨container, isContainer, rfl⟩ := Option.map_eq_some_iff.mp member
    have containerHolds := ownerHolds.of_mem_children (Tree.mem_children_of_member? isContainer)
    rw [containerHolds.children] at directly
    obtain ⟨child, childIn, same⟩ := List.mem_map.mp directly
    have equal := (containerHolds.of_mem_children childIn).unique (holds.of_mem_preorder within) same
    exact ⟨owner, ownerWithin, container, isContainer, equal ▸ childIn⟩

theorem sublist_of_pairwise {α : Type} {items : List α} {related : α → α → Prop}
    (ordered : items.Pairwise related) {first second : α} (inFirst : first ∈ items)
    (inSecond : second ∈ items) (different : first ≠ second) (apart : ¬related second first) :
    [first, second].Sublist items := by
  induction ordered with
  | nil => cases inFirst
  | @cons head rest before _ ih =>
      rcases List.mem_cons.mp inFirst with rfl | firstLater
      · have later := (List.mem_cons.mp inSecond).resolve_left (Ne.symm different)
        exact (List.singleton_sublist.mpr later).cons_cons first
      · rcases List.mem_cons.mp inSecond with rfl | secondLater
        · exact absurd (before first firstLater) apart
        · exact (ih firstLater secondLater).cons head

theorem not_sublist_of_nodup {α : Type} {items : List α} (distinct : items.Nodup)
    {first second : α} (inOrder : [first, second].Sublist items) :
    ¬[second, first].Sublist items := by
  induction items with
  | nil => exact fun _ => by cases inOrder
  | cons head rest ih =>
      obtain ⟨apart, distinct⟩ := List.nodup_cons.mp distinct
      intro reversed
      cases inOrder with
      | cons _ later =>
          cases reversed with
          | cons _ reversed => exact ih distinct later reversed
          | cons_cons _ single => exact apart (later.subset (List.mem_cons_of_mem _ (by simp)))
      | cons_cons _ single =>
          cases reversed with
          | cons _ reversed => exact apart (reversed.subset (List.mem_cons_of_mem _ (by simp)))
          | cons_cons _ _ => exact apart (List.singleton_sublist.mp single)

/-- The search below a scope lists the nodes that pass the test and that owners there have in their
`qualifiers`. -/
theorem WellFormed.mem_qualifiersBelow_iff (wellFormed : document.WellFormed)
    (holds : document.Holds tree) {tagged : NodeId → Prop} {which : Tree → Bool}
    (tests : ∀ node, document.Holds node → (which node = true ↔ tagged node.number))
    (qualifier : NodeId) :
    qualifier ∈ (Tree.view.qualifiersBelow which tree).map Tree.number ↔
      tagged qualifier ∧ ∃ owner, document.Owns owner qualifier ∧
        ∃ levels, document.ancestor? owner levels = some tree.number := by
  constructor
  · intro listed
    obtain ⟨found, inside, rfl⟩ := List.mem_map.mp listed
    have within := Tree.mem_preorder_of_qualifier inside
    obtain ⟨owner, ownerWithin, container, member, directly, passes⟩ :=
      Tree.mem_qualifiersBelow_iff.mp inside
    exact ⟨(tests found (holds.of_mem_preorder within)).mp passes,
      (wellFormed.exists_owns_iff holds within).mp
        ⟨owner, ownerWithin, container, member, directly⟩⟩
  · rintro ⟨passes, owner, owns, levels, above⟩
    have below : document.ancestor? qualifier (levels + 2) = some tree.number := by
      obtain ⟨container, member, directly⟩ := owns
      rw [ancestor?, (wellFormed.child directly).2.2, Option.bind_some, ancestor?,
        wellFormed.parent?_of_member? member, Option.bind_some, above]
    have inside := wellFormed.mem_numbers_of_ancestor? holds _ _ below
    obtain ⟨found, within, rfl⟩ := Tree.exists_of_mem_numbers inside
    obtain ⟨owner, ownerWithin, container, member, directly⟩ :=
      (wellFormed.exists_owns_iff holds within).mpr ⟨owner, owns, levels, above⟩
    exact List.mem_map_of_mem (Tree.mem_qualifiersBelow_iff.mpr ⟨owner, ownerWithin, container,
      member, directly, (tests found (holds.of_mem_preorder within)).mpr passes⟩)

/-- What the tests on nodes of trees find is a discovery. -/
theorem WellFormed.discovers (wellFormed : document.WellFormed) (holds : document.Holds tree)
    {tagged : NodeId → Prop} {which : Tree → Bool}
    (tests : ∀ node, document.Holds node → (which node = true ↔ tagged node.number)) :
    document.Discovers tree.number tagged
      ((Tree.view.qualifiersBelow which tree).map Tree.number) := by
  have ordered := wellFormed.pairwise_precedes_below holds which
  refine
    { mem_iff := wellFormed.mem_qualifiersBelow_iff holds tests
      once := wellFormed.nodup_qualifiersBelow holds which
      owner := fun qualifier owner => wellFormed.qualifierOwner?_of_owns
      outerFirst := fun outer isOuter inner isInner upper lower levels owns owned above => ?_
      siblings := fun first isFirst second isSecond container inOrder => ?_ }
  · have upperOwner := wellFormed.qualifierOwner?_of_owns owns
    have lowerOwner := wellFormed.qualifierOwner?_of_owns owned
    refine sublist_of_pairwise ordered isOuter isInner ?_ fun precedes =>
      (precedes lower upper lowerOwner upperOwner).1 levels above
    rintro rfl
    rw [upperOwner] at lowerOwner
    cases lowerOwner
    exact wellFormed.ancestor?_ne_self upper levels above
  · have distinct := wellFormed.distinct container
    have behind : second ∈ document.children container :=
      inOrder.subset (List.mem_cons_of_mem _ (List.mem_singleton.mpr rfl))
    have linked := (wellFormed.child behind).2.2
    have different : first ≠ second := fun same =>
      (List.nodup_cons.mp (inOrder.nodup distinct)).1 (List.mem_singleton.mpr same)
    obtain ⟨_, owner, owns, _⟩ :=
      (wellFormed.mem_qualifiersBelow_iff holds tests first).mp isFirst
    obtain ⟨list, member, directly⟩ := owns
    have same : list = container := by
      have here := (wellFormed.child (inOrder.subset (List.mem_cons_self ..))).2.2
      rw [(wellFormed.child directly).2.2] at here
      exact Option.some.inj here
    subst same
    refine sublist_of_pairwise ordered isFirst isSecond different fun precedes => ?_
    obtain ⟨found, isContainer, reversed⟩ := (precedes owner owner
      (wellFormed.qualifierOwner?_of_owns ⟨list, member, behind⟩)
      (wellFormed.qualifierOwner?_of_owns ⟨list, member, directly⟩)).2 rfl
    rw [qualifierContainer?, linked] at isContainer
    cases isContainer
    exact not_sublist_of_nodup distinct inOrder reversed

theorem Holds.hasTag_iff (holds : document.Holds tree) (kind : QualifierType) :
    Tree.view.hasTag kind.tag tree = true ↔ document.Tagged kind tree.number := by
  rw [Tree.hasTag_iff, Tagged, holds.stringMember?]

/-! ### The two searches -/

theorem WellFormed.discovers_qualifiers (wellFormed : document.WellFormed)
    (present : scope < document.size) (kind : QualifierType) :
    document.Discovers scope (document.Tagged kind) (document.qualifiers scope kind) := by
  obtain ⟨tree, rfl, holds⟩ := wellFormed.grounded present
  rw [wellFormed.qualifiers_eq holds]
  exact wellFormed.discovers holds fun node held => held.hasTag_iff kind

theorem WellFormed.discovers_indexedQualifiers (wellFormed : document.WellFormed)
    (present : scope < document.size) :
    document.Discovers scope
      (fun qualifier => document.Tagged .mappingInfo qualifier ∨
        document.Tagged .collectionMappingInfo qualifier)
      (document.indexedQualifiers scope) := by
  obtain ⟨tree, rfl, holds⟩ := wellFormed.grounded present
  rw [wellFormed.indexedQualifiers_eq holds]
  refine wellFormed.discovers holds fun node held => ?_
  rw [View.isIndexed, Bool.or_eq_true, held.hasTag_iff, held.hasTag_iff]

/-- The qualifiers of a kind, and those whose value is a path into the data, are found below every
node of a well-formed document: all, each once, and from the outer owners to the inner ones. -/
theorem qualifiers_exact (wellFormed : document.WellFormed) (present : scope < document.size) :
    (∀ kind, document.Discovers scope (document.Tagged kind) (document.qualifiers scope kind)) ∧
      document.Discovers scope
        (fun qualifier => document.Tagged .mappingInfo qualifier ∨
          document.Tagged .collectionMappingInfo qualifier)
        (document.indexedQualifiers scope) :=
  ⟨fun kind => wellFormed.discovers_qualifiers present kind,
    wellFormed.discovers_indexedQualifiers present⟩

/-- Below the element of a list: its two mappings, and one that annotates the second of them. The
mapping of the outer owner, in a `qualifiers` that is an object, is left out. -/
theorem qualifiers_exact_nested :
    let mapping (more : List (String × Json)) : Json :=
      .object ((Key.type, .text "SMT/MappingInfo") :: more)
    let element : Json := .object [(Key.qualifiers,
      .array [mapping [], mapping [(Key.qualifiers, .array [mapping []])]])]
    let value : Json := .object
      [(Key.qualifiers, .object [("only", mapping [])]), (Key.value, .array [element])]
    let document := ofJson value
    document.WellFormed ∧ 5 < document.size ∧ document.qualifiers root .mappingInfo = [2, 7, 9, 12] ∧
      document.Discovers 5 (document.Tagged .mappingInfo) [7, 9, 12] := by
  intro mapping element value document
  have wellFormed : document.WellFormed := ofJson_wellFormed value
  have present : 5 < document.size := by decide
  have found : document.qualifiers 5 .mappingInfo = [7, 9, 12] := by decide +kernel
  have discovers := (qualifiers_exact wellFormed present).1 .mappingInfo
  rw [found] at discovers
  exact ⟨wellFormed, present, by decide +kernel, discovers⟩

end Document

end TemplateFill
