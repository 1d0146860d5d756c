import TemplateFill.Mapping.Qualifier
import TemplateFill.Proofs.Document.Selection

/-!
Where qualifiers are found.

The paths that find qualifiers list the owners in preorder, and the children of each owner's
`qualifiers` that carry the tag. The statements hold in every view; in a held tree a qualifier's
parent is its container and its grandparent is its owner.
-/

namespace TemplateFill

namespace View

variable {ν : Type}

/-! ### What the paths select -/

def hasTag (view : View ν) (tag : String) (node : ν) : Bool :=
  (view.member? Key.type node).bind view.scalar? == some (.string tag)

def owned (view : View ν) (which : ν → Bool) (owner : ν) : List ν :=
  (view.member? Key.qualifiers owner).toList.flatMap fun container =>
    (view.children container).filter which

def qualifiersBelow (view : View ν) (which : ν → Bool) (node : ν) : List ν :=
  (view.descendants node).flatMap (view.owned which)

def isIndexed (view : View ν) (node : ν) : Bool :=
  view.hasTag QualifierType.mappingInfo.tag node ||
    view.hasTag QualifierType.collectionMappingInfo.tag node

theorem select_qualifiersWhere (view : View ν) (root node : ν) (condition : Filter) :
    view.select root (qualifiersWhere condition) [node] =
      view.qualifiersBelow (view.satisfies root condition) node := by
  rw [qualifiersWhere, select_cons, select_cons, select, List.flatMap_singleton, step,
    List.flatMap_assoc]
  refine List.flatMap_congr fun below _ => ?_
  rw [pick]
  rfl

theorem satisfies_filter (view : View ν) (root candidate : ν) (kind : QualifierType) :
    view.satisfies root kind.filter candidate = view.hasTag kind.tag candidate := by
  rw [QualifierType.filter, satisfies, resolve, resolve, select_cons, select,
    List.flatMap_singleton, step, pick, hasTag, Comparison.holds]
  cases view.member? Key.type candidate with
  | none => rfl
  | some member =>
      rw [Option.toList_some, resolveFirst, Option.bind_some]
      cases view.scalar? member with
      | none => rfl
      | some value => cases value <;> rfl

theorem select_query (view : View ν) (node : ν) (kind : QualifierType) :
    kind.query.select view node = view.qualifiersBelow (view.hasTag kind.tag) node := by
  apply (select_qualifiersWhere view node node kind.filter).trans
  exact congrArg (fun which => view.qualifiersBelow which node)
    (funext fun candidate => view.satisfies_filter node candidate kind)

theorem select_indexed (view : View ν) (node : ν) :
    view.select node indexedSegments [node] = view.qualifiersBelow view.isIndexed node := by
  apply (select_qualifiersWhere view node node _).trans
  refine congrArg (fun which => view.qualifiersBelow which node) (funext fun candidate => ?_)
  rw [satisfies, satisfies_filter, satisfies_filter, isIndexed]

theorem mem_owned_iff (view : View ν) (which : ν → Bool) (owner found : ν) :
    found ∈ view.owned which owner ↔
      ∃ container, view.member? Key.qualifiers owner = some container ∧
        found ∈ view.children container ∧ which found = true := by
  rw [owned, List.mem_flatMap]
  simp only [Option.mem_toList, List.mem_filter]

theorem owned_of_none {view : View ν} {owner : ν} (which : ν → Bool)
    (absent : view.member? Key.qualifiers owner = none) : view.owned which owner = [] := by
  rw [owned, absent]
  rfl

theorem owned_of_some {view : View ν} {owner container : ν} (which : ν → Bool)
    (found : view.member? Key.qualifiers owner = some container) :
    view.owned which owner = (view.children container).filter which := by
  rw [owned, found, Option.toList_some, List.flatMap_singleton]

/-! ### Maps between views -/

variable {μ : Type} {view : View ν} {other : View μ} {change : ν → μ} {within : ν → Prop}

theorem Carries.hasTag (carries : Carries view other change within) {node : ν}
    (inside : within node) (tag : String) :
    other.hasTag tag (change node) = view.hasTag tag node := by
  rw [View.hasTag, View.hasTag, carries.member? node inside]
  cases found : view.member? Key.type node with
  | none => rfl
  | some member =>
      rw [Option.map_some, Option.bind_some, Option.bind_some,
        carries.scalar? member (carries.memberWithin node inside _ _ found)]

theorem Carries.isIndexed (carries : Carries view other change within) {node : ν}
    (inside : within node) : other.isIndexed (change node) = view.isIndexed node := by
  rw [View.isIndexed, View.isIndexed, carries.hasTag inside, carries.hasTag inside]

theorem Carries.owned (carries : Carries view other change within) {owner : ν}
    (inside : within owner) {which : ν → Bool} {whichOther : μ → Bool}
    (same : ∀ node, within node → whichOther (change node) = which node) :
    other.owned whichOther (change owner) = (view.owned which owner).map change := by
  have moved := carries.member? owner inside Key.qualifiers
  cases found : view.member? Key.qualifiers owner with
  | none =>
      rw [found] at moved
      rw [owned_of_none _ found, owned_of_none _ moved]
      rfl
  | some container =>
      have here := carries.memberWithin owner inside _ _ found
      rw [found] at moved
      rw [owned_of_some _ found, owned_of_some _ moved, carries.children container here,
        List.filter_map]
      exact congrArg (List.map change) (List.filter_congr fun node present =>
        same node (carries.childWithin container here node present))

theorem Carries.qualifiersBelow (carries : Carries view other change within) {node : ν}
    (inside : within node) {which : ν → Bool} {whichOther : μ → Bool}
    (same : ∀ node, within node → whichOther (change node) = which node) :
    other.qualifiersBelow whichOther (change node) =
      (view.qualifiersBelow which node).map change := by
  rw [View.qualifiersBelow, View.qualifiersBelow, carries.descendants node inside,
    List.flatMap_map, List.map_flatMap]
  exact List.flatMap_congr fun below present =>
    carries.owned (carries.descendantWithin node inside below present) same

end View

/-! ### Qualifiers of trees -/

namespace Tree

def string? : Tree → Option String
  | .scalar _ (.string value) => some value
  | _ => none

def stringMember? (key : String) (tree : Tree) : Option String :=
  (tree.member? key).bind string?

theorem qualifiersBelow_eq (which : Tree → Bool) (tree : Tree) :
    view.qualifiersBelow which tree =
      view.owned which tree ++ tree.children.flatMap (view.qualifiersBelow which) := by
  rw [View.qualifiersBelow, descendants_view, preorder_eq, List.flatMap_cons, List.flatMap_assoc]
  refine congrArg (view.owned which tree ++ ·) (List.flatMap_congr fun child _ => ?_)
  rw [View.qualifiersBelow, descendants_view]

/-- A qualifier lies in the `qualifiers` of its owner, which lies in the tree. -/
theorem mem_qualifiersBelow_iff {which : Tree → Bool} {tree found : Tree} :
    found ∈ view.qualifiersBelow which tree ↔
      ∃ owner ∈ tree.preorder, ∃ container, owner.member? Key.qualifiers = some container ∧
        found ∈ container.children ∧ which found = true := by
  rw [View.qualifiersBelow, descendants_view, List.mem_flatMap]
  simp only [View.mem_owned_iff]
  rfl

theorem exists_child_of_qualifier {which : Tree → Bool} {tree found : Tree}
    (inside : found ∈ view.qualifiersBelow which tree) :
    ∃ child ∈ tree.children, found ∈ child.preorder := by
  obtain ⟨owner, within, container, member, directly, _⟩ := mem_qualifiersBelow_iff.mp inside
  have containerIn : container ∈ owner.children := mem_children_of_member? member
  rcases mem_preorder_iff.mp within with rfl | ⟨child, childIn, deeper⟩
  · exact ⟨container, containerIn, child_mem_preorder directly⟩
  · exact ⟨child, childIn, preorder_trans deeper
      (preorder_trans (child_mem_preorder containerIn) (child_mem_preorder directly))⟩

theorem mem_preorder_of_qualifier {which : Tree → Bool} {tree found : Tree}
    (inside : found ∈ view.qualifiersBelow which tree) : found ∈ tree.preorder := by
  obtain ⟨child, directly, within⟩ := exists_child_of_qualifier inside
  exact preorder_trans (child_mem_preorder directly) within

theorem hasTag_iff {tag : String} {tree : Tree} :
    view.hasTag tag tree = true ↔ tree.stringMember? Key.type = some tag := by
  rw [View.hasTag, beq_iff_eq, stringMember?]
  change (tree.member? Key.type).bind scalar? = _ ↔ _
  cases tree.member? Key.type with
  | none => exact ⟨nofun, nofun⟩
  | some member =>
      rw [Option.bind_some, Option.bind_some]
      cases member with
      | scalar number value =>
          cases value with
          | string text => exact ⟨fun same => by cases same; rfl, fun same => by cases same; rfl⟩
          | null => exact ⟨nofun, nofun⟩
          | bool value => exact ⟨nofun, nofun⟩
          | number value => exact ⟨nofun, nofun⟩
      | array number elements => exact ⟨nofun, nofun⟩
      | object number members => exact ⟨nofun, nofun⟩

theorem string?_toJson (tree : Tree) : tree.toJson.string? = tree.string? := by
  cases tree with
  | scalar number value => rw [toJson]; cases value <;> rfl
  | array number elements => rw [toJson]; rfl
  | object number members => rw [toJson]; rfl

theorem stringMember?_toJson (key : String) (tree : Tree) :
    tree.toJson.stringMember? key = tree.stringMember? key := by
  rw [Json.stringMember?, stringMember?, member?_toJson]
  cases tree.member? key with
  | none => rfl
  | some member => exact member.string?_toJson

theorem exists_scalar_of_stringMember? {key text : String} {tree : Tree}
    (found : tree.stringMember? key = some text) :
    ∃ number, tree.member? key = some (.scalar number (.string text)) := by
  rw [stringMember?] at found
  cases present : tree.member? key with
  | none => rw [present] at found; cases found
  | some member =>
      rw [present] at found
      cases member with
      | scalar number value =>
          cases value with
          | string value => cases found; exact ⟨number, rfl⟩
          | null => cases found
          | bool value => cases found
          | number value => cases found
      | array number elements => cases found
      | object number members => cases found

end Tree

namespace Document

variable {document : Document} {tree : Tree}

theorem Holds.stringMember? (holds : document.Holds tree) (key : String) :
    document.stringMember? key tree.number = tree.stringMember? key := by
  rw [Document.stringMember?, holds.member?, Tree.stringMember?]
  cases found : tree.member? key with
  | none => rfl
  | some member =>
      have held := holds.of_mem_children (Tree.mem_children_of_member? found)
      rw [Option.map_some, Option.bind_some, Option.bind_some, string?, held.content]
      cases member with
      | scalar number value => cases value <;> rfl
      | array number elements => rfl
      | object number members => rfl

theorem WellFormed.qualifiers_eq (wellFormed : document.WellFormed) (holds : document.Holds tree)
    (kind : QualifierType) :
    document.qualifiers tree.number kind =
      (Tree.view.qualifiersBelow (Tree.view.hasTag kind.tag) tree).map Tree.number := by
  rw [qualifiers, View.select_query]
  exact wellFormed.number_carries.qualifiersBelow holds fun node held =>
    wellFormed.number_carries.hasTag held kind.tag

theorem WellFormed.indexedQualifiers_eq (wellFormed : document.WellFormed)
    (holds : document.Holds tree) :
    document.indexedQualifiers tree.number =
      (Tree.view.qualifiersBelow Tree.view.isIndexed tree).map Tree.number := by
  rw [indexedQualifiers, View.select_indexed]
  exact wellFormed.number_carries.qualifiersBelow holds fun node held =>
    wellFormed.number_carries.isIndexed held

theorem qualifierOwner?_of_parents {qualifier container owner : NodeId}
    (lower : document.parent? qualifier = some container)
    (upper : document.parent? container = some owner) :
    document.qualifierOwner? qualifier = some owner := by
  rw [qualifierOwner?, ancestor?, lower, Option.bind_some, ancestor?, upper, Option.bind_some,
    ancestor?]

theorem Holds.qualifierOwner? (holds : document.Holds tree) {container found : Tree}
    (member : tree.member? Key.qualifiers = some container) (inside : found ∈ container.children) :
    document.qualifierOwner? found.number = some tree.number := by
  have directly := Tree.mem_children_of_member? member
  exact qualifierOwner?_of_parents ((holds.of_mem_children directly).linked inside)
    (holds.linked directly)

/-- What the siblings of a qualifier state decides its cardinality. -/
theorem WellFormed.qualifierCardinality_eq (wellFormed : document.WellFormed) {container : Tree}
    (holds : document.Holds container) {found : Tree} (inside : found ∈ container.children) :
    document.qualifierCardinality found.number =
      Cardinality.ofValue
        ((container.children.filter (Tree.view.hasTag QualifierType.cardinality.tag)).findSome?
          (Tree.stringMember? Key.value)) := by
  have carries := wellFormed.number_carries
  have siblings : document.view.select container.number
      [.child (.filter QualifierType.cardinality.filter)] [container.number] =
      (container.children.filter (Tree.view.hasTag QualifierType.cardinality.tag)).map
        Tree.number := by
    rw [View.select_cons, View.select, List.flatMap_singleton, View.step, View.pick,
      carries.children container holds, List.filter_map]
    refine congrArg _ (List.filter_congr fun sibling present => ?_)
    rw [Function.comp_apply, View.satisfies_filter]
    exact carries.hasTag (holds.of_mem_children present) _
  rw [qualifierCardinality, qualifierContainer?, holds.linked inside, Option.bind_some, siblings,
    List.findSome?_map]
  have same : ∀ sibling ∈ container.children.filter
      (Tree.view.hasTag QualifierType.cardinality.tag),
      (document.qualifierValue? ∘ Tree.number) sibling = sibling.stringMember? Key.value :=
    fun sibling present =>
      (holds.of_mem_children (List.mem_filter.mp present).1).stringMember? Key.value
  generalize container.children.filter (Tree.view.hasTag QualifierType.cardinality.tag) =
    stating at same
  refine congrArg Cardinality.ofValue ?_
  induction stating with
  | nil => rfl
  | cons sibling rest ih =>
      rw [List.findSome?_cons, List.findSome?_cons, same sibling (List.mem_cons_self ..),
        ih fun other later => same other (List.mem_cons_of_mem _ later)]

/-! ### The order of qualifiers -/

/-- The owner of an earlier qualifier does not lie below that of a later one; qualifiers of one owner
stand in the order of their container. -/
def Precedes (document : Document) (earlier later : NodeId) : Prop :=
  ∀ upper lower : NodeId, document.qualifierOwner? earlier = some upper →
    document.qualifierOwner? later = some lower →
      (∀ levels, document.ancestor? upper (levels + 1) ≠ some lower) ∧
        (upper = lower → ∃ container, document.qualifierContainer? earlier = some container ∧
          [earlier, later].Sublist (document.children container))

theorem WellFormed.exists_owner (wellFormed : document.WellFormed) (holds : document.Holds tree)
    {kind : QualifierType} {qualifier : NodeId}
    (listed : qualifier ∈ document.qualifiers tree.number kind) :
    ∃ owner container, document.qualifierOwner? qualifier = some owner ∧
      document.member? Key.qualifiers owner = some container ∧
      document.parent? container = some owner ∧
      document.parent? qualifier = some container ∧ owner ∈ tree.numbers := by
  rw [wellFormed.qualifiers_eq holds] at listed
  obtain ⟨found, inside, rfl⟩ := List.mem_map.mp listed
  obtain ⟨owner, within, container, member, directly, _⟩ := Tree.mem_qualifiersBelow_iff.mp inside
  have held := holds.of_mem_preorder within
  have child := Tree.mem_children_of_member? member
  refine ⟨owner.number, container.number, held.qualifierOwner? member directly, ?_,
    held.linked child, (held.of_mem_children child).linked directly,
    Tree.mem_numbers_of_mem_preorder within⟩
  rw [held.member?, member]
  rfl

private theorem precedes_of_sublist (wellFormed : document.WellFormed) {owner : Tree}
    (held : document.Holds owner) (which : Tree → Bool) :
    (Tree.view.owned which owner).Pairwise fun earlier later =>
      document.Precedes earlier.number later.number := by
  cases member : Tree.view.member? Key.qualifiers owner with
  | none =>
      rw [View.owned_of_none which member]
      exact List.Pairwise.nil
  | some container =>
      have child := Tree.mem_children_of_member? member
      have below := held.of_mem_children child
      rw [View.owned_of_some which member, List.pairwise_iff_forall_sublist]
      intro earlier later inOrder
      have sorted : [earlier, later].Sublist container.children := inOrder.trans List.filter_sublist
      have first : earlier ∈ container.children := sorted.subset (List.mem_cons_self ..)
      have second : later ∈ container.children :=
        sorted.subset (List.mem_cons_of_mem _ (List.mem_singleton.mpr rfl))
      intro upper lower upperOwner lowerOwner
      rw [held.qualifierOwner? member first] at upperOwner
      rw [held.qualifierOwner? member second] at lowerOwner
      cases upperOwner
      cases lowerOwner
      refine ⟨wellFormed.ancestor?_ne_self owner.number, fun _ => ⟨container.number, ?_, ?_⟩⟩
      · exact below.linked first
      · rw [below.children]
        exact sorted.map Tree.number

private theorem precedes_of_preorder (wellFormed : document.WellFormed) {upper lower : Tree}
    (upperHeld : document.Holds upper) (lowerHeld : document.Holds lower)
    (apart : upper.number ∉ lower.numbers) {which : Tree → Bool} {earlier later : Tree}
    (first : earlier ∈ Tree.view.owned which upper)
    (second : later ∈ Tree.view.owned which lower) :
    document.Precedes earlier.number later.number := by
  obtain ⟨upperContainer, upperMember, upperInside, _⟩ := (View.mem_owned_iff ..).mp first
  obtain ⟨lowerContainer, lowerMember, lowerInside, _⟩ := (View.mem_owned_iff ..).mp second
  intro owner other upperOwner lowerOwner
  rw [upperHeld.qualifierOwner? upperMember upperInside] at upperOwner
  rw [lowerHeld.qualifierOwner? lowerMember lowerInside] at lowerOwner
  cases upperOwner
  cases lowerOwner
  constructor
  · intro levels above
    exact apart (wellFormed.mem_numbers_of_ancestor? lowerHeld _ _ above)
  · intro same
    exact absurd (same ▸ lower.number_mem_numbers) apart

/-- Nodes that a tree has in the `qualifiers` of its owners come in the order of the owners, each
before those below it. -/
theorem WellFormed.pairwise_precedes_below (wellFormed : document.WellFormed)
    (holds : document.Holds tree) (which : Tree → Bool) :
    ((Tree.view.qualifiersBelow which tree).map Tree.number).Pairwise document.Precedes := by
  rw [List.pairwise_map, View.qualifiersBelow, Tree.descendants_view, List.pairwise_flatMap]
  constructor
  · exact fun owner within => precedes_of_sublist wellFormed (holds.of_mem_preorder within) _
  · apply (Tree.pairwise_preorder (wellFormed.numbers_nodup holds)).imp_of_mem
    intro upper lower upperWithin lowerWithin apart earlier first later second
    exact precedes_of_preorder wellFormed (holds.of_mem_preorder upperWithin)
      (holds.of_mem_preorder lowerWithin) apart first second

/-- Qualifiers are found in the order of their owners, each before those below it. -/
theorem WellFormed.pairwise_precedes (wellFormed : document.WellFormed)
    (holds : document.Holds tree) (kind : QualifierType) :
    (document.qualifiers tree.number kind).Pairwise document.Precedes := by
  rw [wellFormed.qualifiers_eq holds]
  exact wellFormed.pairwise_precedes_below holds _

theorem WellFormed.nodup_qualifiersBelow (wellFormed : document.WellFormed)
    (holds : document.Holds tree) (which : Tree → Bool) :
    ((Tree.view.qualifiersBelow which tree).map Tree.number).Nodup := by
  refine (wellFormed.pairwise_precedes_below holds which).imp_of_mem ?_
  rintro _ _ listed _ precedes rfl
  obtain ⟨found, inside, rfl⟩ := List.mem_map.mp listed
  obtain ⟨owner, within, container, member, directly, _⟩ := Tree.mem_qualifiersBelow_iff.mp inside
  have owned := (holds.of_mem_preorder within).qualifierOwner? member directly
  obtain ⟨list, _, twice⟩ := (precedes _ _ owned owned).2 rfl
  have distinct := twice.nodup (wellFormed.distinct list)
  exact (List.nodup_cons.mp distinct).1 (List.mem_singleton.mpr rfl)

end Document

end TemplateFill
