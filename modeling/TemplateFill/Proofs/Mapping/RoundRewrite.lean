import TemplateFill.Proofs.Document.History
import TemplateFill.Proofs.Document.Places
import TemplateFill.Proofs.Mapping.CopyValues
import TemplateFill.Proofs.Mapping.Round

/-!
A round of expansion as a rewrite of the value.

One child gives way to its copies, and nothing else that is attached changes. As a value, the
document is rewritten at one place, and what stands there afterwards is settled by what stood there
before.
-/

namespace TemplateFill

/-! ### Nodes of an exchange -/

theorem Document.Holds.number_not_mem_parent {document : Document} {tree parent child : Tree}
    (holds : document.Holds tree) (parentHolds : document.Holds parent)
    (inside : child ∈ parent.children) (outside : child.number ∉ tree.numbers) :
    parent.number ∉ tree.numbers := by
  intro shared
  obtain ⟨below, within, same⟩ := Tree.exists_of_mem_numbers shared
  rw [(holds.of_mem_preorder within).unique parentHolds same] at within
  exact outside (Tree.mem_numbers_of_mem_preorder
    (Tree.preorder_trans within (Tree.child_mem_preorder inside)))

namespace Tree

variable {document edited : Document} {tree container owner : Tree} {copies : List Tree}

theorem children_exchange {gone : NodeId}
    (fits : (∃ number elements, container = .array number elements) ∨ copies = []) :
    (container.exchange gone copies).children =
      (container.children.filter fun child => child.number != gone) ++ copies := by
  rcases fits with ⟨number, elements, rfl⟩ | rfl
  · rfl
  · rw [List.append_nil]
    cases container with
    | scalar number value => rfl
    | array number elements => exact List.append_nil _
    | object number members =>
        exact children_filterChildren (fun child => child.number != gone) (.object number members)

theorem mem_numbers_exchange (holds : document.Holds container)
    (directly : owner ∈ container.children)
    (fits : (∃ number elements, container = .array number elements) ∨ copies = [])
    {number : NodeId} :
    number ∈ (container.exchange owner.number copies).numbers ↔
      (number ∈ container.numbers ∧ number ∉ owner.numbers) ∨
        ∃ copy ∈ copies, number ∈ copy.numbers := by
  rw [mem_numbers_iff, number_exchange, children_exchange fits]
  constructor
  · rintro (rfl | ⟨child, inside, deeper⟩)
    · exact Or.inl ⟨container.number_mem_numbers, holds.number_not_mem_child directly⟩
    · rcases List.mem_append.mp inside with kept | copied
      · obtain ⟨old, different⟩ := List.mem_filter.mp kept
        have apart := holds.disjoint_children old directly (bne_iff_ne.mp different)
        exact Or.inl ⟨numbers_subset (child_mem_preorder old) deeper, apart deeper⟩
      · exact Or.inr ⟨child, copied, deeper⟩
  · rintro (⟨old, outside⟩ | ⟨copy, listed, deeper⟩)
    · rcases mem_numbers_iff.mp old with same | ⟨child, inside, deeper⟩
      · exact Or.inl same
      · have different : child.number ≠ owner.number := by
          intro same
          have equal := (holds.of_mem_children inside).unique (holds.of_mem_children directly) same
          exact outside (equal ▸ deeper)
        have kept : child ∈ container.children.filter fun other => other.number != owner.number :=
          List.mem_filter.mpr ⟨inside, bne_iff_ne.mpr different⟩
        exact Or.inr ⟨child, List.mem_append_left _ kept, deeper⟩
    · exact Or.inr ⟨copy, List.mem_append_right _ listed, deeper⟩

/-- Below a node that is not in the owner only the container leads into the owner. -/
theorem number_not_mem_owner (holds : document.Holds tree)
    (containerHolds : document.Holds container) (directly : owner ∈ container.children)
    (outside : tree.number ∉ owner.numbers) (elsewhere : tree.number ≠ container.number)
    {child : Tree} (inside : child ∈ tree.children) : child.number ∉ owner.numbers := by
  intro shared
  have link := holds.linked inside
  rcases (containerHolds.of_mem_children directly).parent_mem shared with same |
    ⟨parent, within, above⟩
  · rw [same, containerHolds.linked directly] at link
    exact elsewhere (Option.some.inj link).symm
  · rw [above] at link
    exact outside (Option.some.inj link ▸ within)

variable (containerHolds : document.Holds container) (directly : owner ∈ container.children)
  (fits : (∃ number elements, container = .array number elements) ∨ copies = [])

include containerHolds directly fits

theorem mem_numbers_graft_exchange (holds : document.Holds tree)
    (outside : tree.number ∉ owner.numbers) {number : NodeId} :
    number ∈ (tree.graft (container.exchange owner.number copies)).numbers ↔
      (number ∈ tree.numbers ∧ number ∉ owner.numbers) ∨
        (container.number ∈ tree.numbers ∧ ∃ copy ∈ copies, number ∈ copy.numbers) := by
  induction tree using induction with
  | step tree ih =>
      by_cases here : tree.number = container.number
      · have same := holds.unique containerHolds here
        subst same
        rw [graft_of_eq (number_exchange _ _ _).symm, mem_numbers_exchange holds directly fits]
        simp only [number_mem_numbers, true_and]
      · rw [graft_of_ne (by rwa [number_exchange]), mem_numbers_iff, number_mapChildren,
          children_mapChildren, mem_numbers_iff, @mem_numbers_iff tree container.number]
        have below : ∀ child ∈ tree.children, _ := fun child inside =>
          ih child inside (holds.of_mem_children inside)
            (number_not_mem_owner holds containerHolds directly outside here inside)
        constructor
        · rintro (rfl | ⟨child, listed, deeper⟩)
          · exact Or.inl ⟨Or.inl rfl, outside⟩
          · obtain ⟨old, inside, rfl⟩ := List.mem_map.mp listed
            rcases (below old inside).mp deeper with ⟨within, apart⟩ | ⟨within, copied⟩
            · exact Or.inl ⟨Or.inr ⟨old, inside, within⟩, apart⟩
            · exact Or.inr ⟨Or.inr ⟨old, inside, within⟩, copied⟩
        · rintro (⟨rfl | ⟨child, inside, deeper⟩, apart⟩ | ⟨same | ⟨child, inside, deeper⟩, copied⟩)
          · exact Or.inl rfl
          · exact Or.inr ⟨_, List.mem_map_of_mem inside,
              (below child inside).mpr (Or.inl ⟨deeper, apart⟩)⟩
          · exact absurd same.symm here
          · exact Or.inr ⟨_, List.mem_map_of_mem inside,
              (below child inside).mpr (Or.inr ⟨deeper, copied⟩)⟩

theorem content_graft_exchange (holds : document.Holds tree)
    (outside : tree.number ∉ owner.numbers)
    (graftHolds : edited.Holds (tree.graft (container.exchange owner.number copies)))
    {number : NodeId} (inside : number ∈ tree.numbers) (apart : number ∉ owner.numbers)
    (elsewhere : number ≠ container.number) :
    edited.content number = document.content number := by
  induction tree using induction with
  | step tree ih =>
      by_cases here : tree.number = container.number
      · have same := holds.unique containerHolds here
        subst same
        rw [graft_of_eq (number_exchange _ _ _).symm] at graftHolds
        rcases mem_numbers_iff.mp inside with same | ⟨child, listed, deeper⟩
        · exact absurd same elsewhere
        · have childHolds := holds.of_mem_children listed
          have different : child.number ≠ owner.number := by
            intro same
            exact apart (childHolds.unique (holds.of_mem_children directly) same ▸ deeper)
          have kept : child ∈ (tree.exchange owner.number copies).children := by
            rw [children_exchange fits]
            exact List.mem_append_left _ (List.mem_filter.mpr ⟨listed, bne_iff_ne.mpr different⟩)
          obtain ⟨below, within, rfl⟩ := exists_of_mem_numbers deeper
          rw [((graftHolds.of_mem_children kept).of_mem_preorder within).content,
            (childHolds.of_mem_preorder within).content]
      · rw [graft_of_ne (by rwa [number_exchange])] at graftHolds
        rcases mem_numbers_iff.mp inside with rfl | ⟨child, listed, deeper⟩
        · have read := graftHolds.content
          rw [number_mapChildren, content_mapChildren _ _ fun child _ => number_graft child _]
            at read
          rw [read, holds.content]
        · refine ih child listed (holds.of_mem_children listed)
            (number_not_mem_owner holds containerHolds directly outside here listed) ?_ deeper
          apply graftHolds.of_mem_children
          rw [children_mapChildren]
          exact List.mem_map_of_mem listed

end Tree

/-! ### Rewriting a value at one place -/

/-- The value without one of its children; an array gets copies of the child behind the others. -/
def Json.repeatChild (path : String) (count position : Nat) : Json → Json
  | .scalar value => .scalar value
  | .array elements =>
      match elements[position]? with
      | none => .array elements
      | some element =>
          .array (elements.eraseIdx position ++ (List.range count).map fun entry =>
            copyFor path (Binding.ofPath path) entry element)
  | .object members => .object (members.eraseIdx position)

namespace Tree

variable {document : Document} {tree below : Tree}

/-- A container with copies in place of the owner reads as its value with the owner repeated. -/
theorem toJson_exchange {limit : NodeId} {path : String} {container owner : Tree}
    {copies : List Tree} {position : Nat} (nodup : container.numbers.Nodup)
    (distinct : owner.KeysDistinct) (found : container.children[position]? = some owner)
    (fits : (∃ number elements, container = .array number elements) ∨ copies = [])
    (areCopies : ∀ (index : Nat) (copy : Tree), copies[index]? = some copy →
      IsCopy limit path (Binding.ofPath path) index owner copy) :
    (container.exchange owner.number copies).toJson =
      container.toJson.repeatChild path copies.length position := by
  have apart := nodup_children nodup
  cases container with
  | scalar number value => cases found
  | array number elements =>
      have copied : copies.map toJson = (List.range copies.length).map fun entry =>
          Json.copyFor path (Binding.ofPath path) entry owner.toJson := by
        apply List.ext_getElem?
        intro index
        rw [List.getElem?_map, List.getElem?_map]
        cases listed : copies[index]? with
        | none =>
            rw [List.getElem?_eq_none_iff] at listed
            rw [List.getElem?_eq_none (by simpa using listed)]
            rfl
        | some copy =>
            rw [List.getElem?_range (List.getElem?_eq_some_iff.mp listed).1, Option.map_some,
              Option.map_some, (areCopies index copy listed).toJson_eq distinct]
      have owned : (elements.map toJson)[position]? = some owner.toJson := by
        rw [List.getElem?_map]
        exact congrArg (Option.map toJson) found
      rw [exchange, toJson, toJson, Json.repeatChild, owned]
      dsimp only
      rw [List.map_append, copied, List.eraseIdx_map]
      exact congrArg (fun kept => Json.array (kept.map toJson ++ _))
        (filter_eq_eraseIdx Tree.number apart found)
  | object number members =>
      have none : copies = [] := by
        rcases fits with ⟨_, _, same⟩ | none
        · cases same
        · exact none
      subst none
      rw [children, List.getElem?_map, Option.map_eq_some_iff] at found
      obtain ⟨member, found, rfl⟩ := found
      rw [children, List.map_map] at apart
      rw [exchange, toJson, toJson, Json.repeatChild,
        filter_eq_eraseIdx (fun member => member.2.number) apart found, List.eraseIdx_map]

end Tree

/-! ### Rounds as rewrites -/

/-- Copies stand in an array for one of its elements, and nothing else that is attached changes. -/
structure Document.Exchanges (before after : Document) (owner container : NodeId)
    (copies : List NodeId) : Prop where
  elements : ∀ elements, before.content container = .array elements →
    after.content container = .array (elements.filter (· != owner) ++ copies)
  /-- The owner is detached, with all that lies below it. -/
  attached : ∀ node < before.size, after.isAttached node = true ↔
    before.isAttached node = true ∧ ∀ levels, before.ancestor? node levels ≠ some owner
  contents : ∀ node < before.size, after.isAttached node = true → node ≠ container →
    after.content node = before.content node
  links : ∀ node < before.size, after.isAttached node = true →
    after.parent? node = before.parent? node
  /-- New nodes are attached in copies only. -/
  added : ∀ node, before.size ≤ node → after.isAttached node = true →
    ∃ copy ∈ copies, ∃ levels, after.ancestor? node levels = some copy

namespace Expansion

/-- A round that expands the owner of a qualifier, as a rewrite. -/
structure Rewrites (context after : Context) (qualifier owner container : NodeId) (path : String)
    (query : Query) (copies : List NodeId) : Prop where
  next : nextQualifier? context.working = some qualifier
  owned : context.working.qualifierOwner? qualifier = some owner
  listed : context.working.parent? owner = some container
  hasPath : context.working.qualifierValue? qualifier = some path
  counted : Query.parse (Binding.ofPath path).countPath = .ok query
  count : copies.length = (query.select Json.view context.data).length
  mandatory : (context.working.qualifierCardinality qualifier).isMandatory = true →
    1 ≤ copies.length
  exchanges : context.working.Exchanges after.working owner container copies
  /-- New nodes that read as the owner without the qualifiers that caused the copy, with the number
  of the entry in its short name and with paths bound to the entry. -/
  copied : ∀ (entry : Nat) (copy : NodeId), copies[entry]? = some copy →
    context.working.size ≤ copy ∧
      after.working.nodeToJson copy =
        Json.copyFor path (Binding.ofPath path) entry (context.working.nodeToJson owner)
  /-- The whole value is rewritten where the container is. -/
  value : ∃ steps position, context.working.follow? Document.root steps = some container ∧
    (context.working.children container)[position]? = some owner ∧
    after.working.toJson =
      context.working.toJson.editAt (Json.repeatChild path copies.length position) steps

variable {context after : Context} {tree container owner list qualifier : Tree} {path : String}
  {entries : List Json} {copies : List Tree}

section Facts

variable (wellFormed : context.working.WellFormed) (holds : context.working.Holds tree)
  (top : tree.number = Document.root)
  (expands : Expands context after tree container owner list qualifier path entries copies)

include expands

theorem Expands.noCopies :
    (∃ number elements, container = .array number elements) ∨ copies = [] := by
  refine expands.fits.imp_right fun none => ?_
  rw [← List.length_eq_zero_iff, expands.length, none]

theorem Expands.exchanged : container.exchange owner.number copies ∈
    (tree.graft (container.exchange owner.number copies)).preorder := by
  apply Tree.mem_preorder_graft
  rw [Tree.number_exchange]
  exact Tree.mem_numbers_of_mem_preorder expands.within

theorem Expands.holds_copy {copy : Tree} (listed : copy ∈ copies) : after.working.Holds copy := by
  apply (expands.holds.of_mem_preorder expands.exchanged).of_mem_children
  rw [Tree.children_exchange expands.noCopies]
  exact List.mem_append_right _ listed

include holds

theorem Expands.ownerHolds : context.working.Holds owner :=
  (holds.of_mem_preorder expands.within).of_mem_children expands.directly

include wellFormed top

theorem Expands.root_not_mem : tree.number ∉ owner.numbers := by
  rw [top]
  intro inside
  have containerHolds := holds.of_mem_preorder expands.within
  rcases (expands.ownerHolds holds).parent_mem inside with same | ⟨parent, _, link⟩
  · exact wellFormed.ne_root (containerHolds.linked expands.directly) same.symm
  · exact wellFormed.ne_root link rfl

theorem Expands.isAttached_iff {node : NodeId} :
    after.working.isAttached node = true ↔
      (node ∈ tree.numbers ∧ node ∉ owner.numbers) ∨ ∃ copy ∈ copies, node ∈ copy.numbers := by
  rw [expands.wellFormed.isAttached_iff expands.holds (by rw [Tree.number_graft, top]),
    Tree.mem_numbers_graft_exchange (holds.of_mem_preorder expands.within) expands.directly
      expands.noCopies holds (expands.root_not_mem wellFormed holds top)]
  simp only [Tree.mem_numbers_of_mem_preorder expands.within, true_and]

theorem Expands.isAttached_old_iff {node : NodeId} (old : node < context.working.size) :
    after.working.isAttached node = true ↔ node ∈ tree.numbers ∧ node ∉ owner.numbers := by
  rw [expands.isAttached_iff wellFormed holds top]
  constructor
  · rintro (kept | ⟨copy, listed, inside⟩)
    · exact kept
    · obtain ⟨index, found⟩ := List.mem_iff_getElem?.mp listed
      have fresh := (expands.areCopies index copy found).le_of_mem_numbers inside
      exact absurd old (Nat.not_lt.mpr fresh)
  · exact Or.inl

theorem Expands.content_eq {node : NodeId} (old : node < context.working.size)
    (stays : after.working.isAttached node = true) (elsewhere : node ≠ container.number) :
    after.working.content node = context.working.content node := by
  obtain ⟨inside, apart⟩ := (expands.isAttached_old_iff wellFormed holds top old).mp stays
  exact Tree.content_graft_exchange (holds.of_mem_preorder expands.within) expands.directly
    expands.noCopies holds (expands.root_not_mem wellFormed holds top) expands.holds inside apart
    elsewhere

/-- The parent of a node that stays attached is attached as well, and still lists the node. -/
theorem Expands.parent?_eq {node : NodeId} (old : node < context.working.size)
    (stays : after.working.isAttached node = true) :
    after.working.parent? node = context.working.parent? node := by
  have attached := fun node (old : node < context.working.size) =>
    expands.isAttached_old_iff wellFormed holds top old
  obtain ⟨inside, apart⟩ := (attached node old).mp stays
  obtain ⟨found, within, rfl⟩ := Tree.exists_of_mem_numbers inside
  rcases Tree.exists_parent within with rfl | ⟨parent, above, directly⟩
  · rw [top, expands.wellFormed.rootless, wellFormed.rootless]
  · have parentHolds := holds.of_mem_preorder above
    have parentStays := (attached parent.number parentHolds.present).mpr
      ⟨Tree.mem_numbers_of_mem_preorder above,
        (expands.ownerHolds holds).number_not_mem_parent parentHolds directly apart⟩
    rw [parentHolds.linked directly]
    by_cases here : parent.number = container.number
    · have same := parentHolds.unique (holds.of_mem_preorder expands.within) here
      subst same
      have different : found.number ≠ owner.number := fun same =>
        apart (same ▸ owner.number_mem_numbers)
      have kept : found ∈ (parent.exchange owner.number copies).children := by
        rw [Tree.children_exchange expands.noCopies]
        exact List.mem_append_left _ (List.mem_filter.mpr ⟨directly, bne_iff_ne.mpr different⟩)
      rw [(expands.holds.of_mem_preorder expands.exchanged).linked kept, Tree.number_exchange]
    · refine (expands.wellFormed.child ?_).2.2
      rw [Document.children,
        expands.content_eq wellFormed holds top parentHolds.present parentStays here,
        parentHolds.content, Tree.content_children]
      exact List.mem_map_of_mem directly

theorem Expands.exchanges :
    context.working.Exchanges after.working owner.number container.number
      (copies.map Tree.number) where
  elements := by
    intro elements recorded
    have read := (expands.holds.of_mem_preorder expands.exchanged).content
    rw [Tree.number_exchange] at read
    rw [(holds.of_mem_preorder expands.within).content] at recorded
    rw [read]
    cases container with
    | scalar number value => cases recorded
    | object number members => cases recorded
    | array number children =>
        cases recorded
        rw [Tree.exchange, Tree.content, List.map_append, List.filter_map]
        rfl
  attached := by
    intro node old
    rw [expands.isAttached_old_iff wellFormed holds top old,
      wellFormed.ancestor?_ne_iff (expands.ownerHolds holds), wellFormed.isAttached_iff holds top]
  contents := fun _ => expands.content_eq wellFormed holds top
  links := fun _ => expands.parent?_eq wellFormed holds top
  added := by
    intro node fresh stays
    rcases (expands.isAttached_iff wellFormed holds top).mp stays with ⟨old, _⟩ |
      ⟨copy, listed, inside⟩
    · have present := holds.lt_size_of_mem_numbers old
      exact absurd present (Nat.not_lt.mpr fresh)
    · exact ⟨copy.number, List.mem_map_of_mem listed, (expands.holds_copy listed).ancestor? inside⟩

omit top in
theorem Expands.copied (distinct : owner.KeysDistinct) (entry : Nat) (copy : NodeId)
    (listed : (copies.map Tree.number)[entry]? = some copy) :
    context.working.size ≤ copy ∧
      after.working.nodeToJson copy =
        Json.copyFor path (Binding.ofPath path) entry
          (context.working.nodeToJson owner.number) := by
  rw [List.getElem?_map, Option.map_eq_some_iff] at listed
  obtain ⟨copy, listed, rfl⟩ := listed
  have isCopy := expands.areCopies entry copy listed
  refine ⟨isCopy.le_of_mem_numbers copy.number_mem_numbers, ?_⟩
  rw [expands.wellFormed.nodeToJson_eq (expands.holds_copy (List.mem_of_getElem? listed)),
    wellFormed.nodeToJson_eq (expands.ownerHolds holds), isCopy.toJson_eq distinct]

theorem Expands.value (distinct : owner.KeysDistinct) :
    ∃ steps position,
      context.working.follow? Document.root steps = some container.number ∧
      (context.working.children container.number)[position]? = some owner.number ∧
      after.working.toJson =
        context.working.toJson.editAt (Json.repeatChild path copies.length position) steps := by
  have containerHolds := holds.of_mem_preorder expands.within
  obtain ⟨position, found⟩ := List.mem_iff_getElem?.mp expands.directly
  obtain ⟨steps, leads⟩ := Tree.exists_follow? holds expands.within
  have same := Tree.number_exchange owner.number copies container
  have rewritten : (tree.graft (container.exchange owner.number copies)).toJson =
      tree.toJson.editAt (Json.repeatChild path copies.length position) steps := by
    refine Tree.toJson_graft_of_follow? wellFormed holds leads containerHolds ?_ ?_
    · rw [same]
      exact container.number_mem_numbers
    · rw [Tree.graft_of_eq same.symm]
      exact (Tree.toJson_exchange (wellFormed.numbers_nodup containerHolds) distinct found
        expands.noCopies expands.areCopies).symm
  have before := wellFormed.nodeToJson_eq holds
  have after := expands.wellFormed.nodeToJson_eq expands.holds
  rw [Tree.number_graft, top] at after
  rw [top] at before leads
  refine ⟨steps, position, leads, ?_, ?_⟩
  · rw [containerHolds.children, List.getElem?_map, found]
    rfl
  · rw [Document.toJson, Document.toJson, after, before]
    exact rewritten

end Facts

/-- A round that expands a collection rewrites the value of the working document at one place, and
changes nothing else there. No object has a key twice. -/
theorem round_rewrites (reachable : context.working.Reachable)
    (distinct : context.working.KeysDistinct) (done : round context = .ok (some after)) :
    ∃ qualifier owner container path query copies,
      Rewrites context after qualifier owner container path query copies := by
  have wellFormed := reachable.wellFormed
  obtain ⟨tree, top, holds⟩ := wellFormed.grounded wellFormed.rooted
  obtain ⟨container, owner, list, qualifier, path, entries, copies, expands⟩ :=
    exists_expands wellFormed holds top done
  have containerHolds := holds.of_mem_preorder expands.within
  have ownerHolds := expands.ownerHolds holds
  have listHolds := ownerHolds.of_mem_children (Tree.mem_children_of_member? expands.member)
  have ownerDistinct := ownerHolds.keysDistinct distinct
  obtain ⟨query, counted, selected⟩ := bind_eq_ok.mp expands.selects
  obtain ⟨isSelected, mandatory⟩ := Query.selectMany_eq_ok.mp selected
  have length : (copies.map Tree.number).length = entries.length := by
    rw [List.length_map, expands.length]
  refine ⟨qualifier.number, owner.number, container.number, path, query, copies.map Tree.number,
    { next := expands.next
      owned := ownerHolds.qualifierOwner? expands.member expands.inside
      listed := containerHolds.linked expands.directly
      hasPath := ?_
      counted
      count := by rw [length, isSelected]
      mandatory := fun isMandatory => ?_
      exchanges := expands.exchanges wellFormed holds top
      copied := expands.copied wellFormed holds ownerDistinct
      value := ?_ }⟩
  · rw [Document.qualifierValue?, (listHolds.of_mem_children expands.inside).stringMember?,
      expands.hasPath]
  · rw [length, Nat.one_le_iff_ne_zero, Ne, List.length_eq_zero_iff]
    exact mandatory isMandatory
  · rw [List.length_map]
    exact expands.value wellFormed holds top ownerDistinct

/-- A row with a mapping is repeated for two entries. -/
theorem round_rewrites_row :
    let qualifier (tag path : String) : Json :=
      .object [(Key.type, .text tag), (Key.value, .text path)]
    let template : Json := .object [("submodelElements", .array [.object
      [(Key.modelType, .text "SubmodelElementCollection"), (Key.idShort, .text "row"),
        (Key.qualifiers, .array [qualifier "SMT/CollectionMappingInfo" "$.a[*]",
          qualifier "SMT/MappingInfo" "$.a[*].b"])]])]
    let data : Json := .object [("a", .array [.null, .null])]
    let context : Context :=
      { Context.start template data "en" "id" "now" with working := Document.ofJson template }
    context.working.Reachable ∧ context.working.KeysDistinct ∧
      ∃ after, round context = .ok (some after) ∧
        ∃ qualifier owner container path query copies,
          Rewrites context after qualifier owner container path query copies := by
  intro qualifier template data context
  have reachable : context.working.Reachable := .ofJson template
  have distinct : context.working.KeysDistinct := by decide +kernel
  have succeeds : (round context).toOption.join.isSome = true := by decide +kernel
  cases done : round context with
  | error failure => rw [done] at succeeds; cases succeeds
  | ok after? =>
      cases after? with
      | none => rw [done] at succeeds; cases succeeds
      | some after =>
          exact ⟨reachable, distinct, after, rfl, round_rewrites reachable distinct done⟩

end Expansion

end TemplateFill
