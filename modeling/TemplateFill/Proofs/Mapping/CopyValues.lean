import TemplateFill.Proofs.Document.Keys
import TemplateFill.Proofs.Mapping.Copies

/-!
Copies as values.

What becomes of an element in a copy depends on its value alone: it is walked from the top, and each
value in it is known by its role there. `Json.copyFor` is the value of a copy; that the nodes which
are unlinked and written in a document are those with these roles is shown for the trees that a
document holds.
-/

namespace TemplateFill

/-! ### Roles -/

/-- What a value is in the value of an element. -/
structure Role where
  /-- The element itself -/
  isElement : Bool
  /-- The `qualifiers` of an element in it -/
  isContainer : Bool
  /-- A qualifier whose value is a path into the data -/
  isIndexed : Bool
  /-- The value of such a qualifier -/
  isPath : Bool
  /-- The short name of the element itself -/
  isShortName : Bool

namespace Role

def element : Role :=
  { isElement := true
    isContainer := false
    isIndexed := false
    isPath := false
    isShortName := false }

def below (role : Role) (key? : Option String) (child : Json) : Role :=
  { isElement := false
    isContainer := key? == some Key.qualifiers
    isIndexed := role.isContainer && Json.view.isIndexed child
    isPath := role.isIndexed && key? == some Key.value
    isShortName := role.isElement && key? == some Key.idShort }

end Role

/-! ### Rewriting values -/

def Scalar.mapText (write : String → String) : Scalar → Scalar
  | .string text => .string (write text)
  | other => other

namespace Json

mutual

/-- The value without the children to drop, and with its texts written anew, each in its role. -/
def revise (drop : Role → Json → Bool) (write : Role → String → String) (role : Role) :
    Json → Json
  | .scalar value => .scalar (value.mapText (write role))
  | .array elements => .array (reviseElements drop write role elements)
  | .object members => .object (reviseMembers drop write role members)

def reviseElements (drop : Role → Json → Bool) (write : Role → String → String) (role : Role) :
    List Json → List Json
  | [] => []
  | element :: rest =>
      if drop role element then reviseElements drop write role rest
      else
        revise drop write (role.below none element) element ::
          reviseElements drop write role rest

def reviseMembers (drop : Role → Json → Bool) (write : Role → String → String) (role : Role) :
    List (String × Json) → List (String × Json)
  | [] => []
  | (key, value) :: rest =>
      if drop role value then reviseMembers drop write role rest
      else
        (key, revise drop write (role.below (some key) value) value) ::
          reviseMembers drop write role rest

end

def isTrigger (path : String) (value : Json) : Bool :=
  view.hasTag QualifierType.collectionMappingInfo.tag value &&
    value.stringMember? Key.value == some path

/-- The element without the collection qualifiers with a path, wherever they are in it. -/
def withoutTriggers (path : String) : Json → Json :=
  revise (fun role child => role.isContainer && isTrigger path child) (fun _ text => text)
    Role.element

def withNumber (position : Nat) : Json → Json :=
  revise (fun _ _ => false)
    (fun role text => if role.isShortName then text ++ "_" ++ toString position else text)
    Role.element

/-- The element with the paths that start with the list bound to an entry, wherever they are in it.
-/
def withBoundPaths (binding : Binding) (position : Nat) : Json → Json :=
  revise (fun _ _ => false)
    (fun role text =>
      if role.isPath && binding.appliesTo text then binding.bind text position else text)
    Role.element

def copyFor (path : String) (binding : Binding) (position : Nat) (element : Json) : Json :=
  ((element.withoutTriggers path).withNumber position).withBoundPaths binding position

variable {drop : Role → Json → Bool} {write : Role → String → String} {role : Role}

theorem reviseElements_eq (elements : List Json) :
    reviseElements drop write role elements =
      (elements.filter fun element => !drop role element).map fun element =>
        revise drop write (role.below none element) element := by
  induction elements with
  | nil => rfl
  | cons element rest ih =>
      rw [reviseElements, ih]
      cases dropped : drop role element <;> simp [dropped]

theorem reviseMembers_eq (members : List (String × Json)) :
    reviseMembers drop write role members =
      (members.filter fun member => !drop role member.2).map fun member =>
        (member.1, revise drop write (role.below (some member.1) member.2) member.2) := by
  induction members with
  | nil => rfl
  | cons member rest ih =>
      obtain ⟨key, value⟩ := member
      rw [reviseMembers, ih]
      cases dropped : drop role value <;> simp [dropped]

end Json

/-! ### Roles of nodes -/

namespace Tree

def entries : Tree → List (Option String × Tree)
  | .scalar _ _ => []
  | .array _ elements => elements.map fun element => (none, element)
  | .object _ members => members.map fun member => (some member.1, member.2)

/-- Which nodes of a tree stand in which roles, if its top stands in a given one. -/
inductive Stands (top : Role) (tree : Tree) : Role → Tree → Prop
  | top : Stands top tree top tree
  | child {role : Role} {parent child : Tree} {key? : Option String}
      (above : Stands top tree role parent) (inside : (key?, child) ∈ parent.entries) :
      Stands top tree (role.below key? child.toJson) child

variable {tree child : Tree} {role standing : Role}

theorem map_snd_entries (tree : Tree) : tree.entries.map Prod.snd = tree.children := by
  cases tree <;> simp [entries, children, Function.comp_def]

theorem mem_children_of_mem_entries {key? : Option String} (inside : (key?, child) ∈ tree.entries) :
    child ∈ tree.children := by
  rw [← map_snd_entries]
  exact List.mem_map_of_mem inside

theorem mem_entries_of_member? {key : String} (found : tree.member? key = some child) :
    (some key, child) ∈ tree.entries := by
  cases tree with
  | scalar number value => cases found
  | array number elements => cases found
  | object number members =>
      exact List.mem_map_of_mem (f := fun member : String × Tree => (some member.1, member.2))
        (mem_of_memberOf? found)

theorem member?_of_mem_entries {key : String} (distinct : tree.KeysDistinct)
    (inside : (some key, child) ∈ tree.entries) : tree.member? key = some child := by
  cases tree with
  | scalar number value => cases inside
  | array number elements =>
      obtain ⟨element, _, same⟩ := List.mem_map.mp inside
      cases same
  | object number members =>
      obtain ⟨member, present, same⟩ := List.mem_map.mp inside
      cases same
      have keys := keysDistinct_object.mp (keysDistinct_iff.mp distinct).1
      exact Document.memberOf?_of_mem keys present

theorem Stands.mem_preorder {node : Tree} (stands : Stands role tree standing node) :
    node ∈ tree.preorder := by
  induction stands with
  | top => exact tree.self_mem_preorder
  | child _ inside ih =>
      exact preorder_trans ih (child_mem_preorder (mem_children_of_mem_entries inside))

theorem Stands.lift {key? : Option String} {node : Tree} (inside : (key?, child) ∈ tree.entries)
    (stands : Stands (role.below key? child.toJson) child standing node) :
    Stands role tree standing node := by
  induction stands with
  | top => exact .child .top inside
  | child _ deeper ih => exact .child ih deeper

/-- Dropping nodes is dropping values, if the nodes are those of the values in their roles. -/
theorem toJson_without {gone : NodeId → Bool} {drop : Role → Json → Bool}
    (same : ∀ standing parent, Stands role tree standing parent →
      ∀ child ∈ parent.children, gone child.number = drop standing child.toJson) :
    (tree.without gone).toJson = tree.toJson.revise drop (fun _ text => text) role := by
  induction tree using induction generalizing role with
  | step tree ih =>
      have here := same role tree .top
      have deeper : ∀ key? child, (key?, child) ∈ tree.entries →
          (child.without gone).toJson =
            child.toJson.revise drop (fun _ text => text) (role.below key? child.toJson) :=
        fun key? child inside => ih child (mem_children_of_mem_entries inside)
          fun standing parent stands => same standing parent (stands.lift inside)
      cases tree with
      | scalar number value =>
          rw [without, toJson, Json.revise]
          cases value <;> rfl
      | array number elements =>
          rw [without, toJson, toJson, Json.revise, Json.reviseElements_eq, List.filter_map,
            List.map_map, List.map_map]
          have kept : elements.filter (fun element => !gone element.number) =
              elements.filter ((fun element => !drop role element) ∘ toJson) :=
            List.filter_congr fun element inside => congrArg (! ·) (here element inside)
          rw [← kept]
          refine congrArg Json.array (List.map_congr_left fun element inside => ?_)
          exact deeper none element (List.mem_map_of_mem (List.mem_filter.mp inside).1)
      | object number members =>
          rw [without, toJson, toJson, Json.revise, Json.reviseMembers_eq, List.filter_map,
            List.map_map, List.map_map]
          have kept : members.filter (fun member => !gone member.2.number) =
              members.filter ((fun member => !drop role member.2) ∘
                fun member => (member.1, member.2.toJson)) :=
            List.filter_congr fun member inside =>
              congrArg (! ·) (here member.2 (List.mem_map_of_mem inside))
          rw [← kept]
          refine congrArg Json.object (List.map_congr_left fun member inside => ?_)
          exact congrArg (Prod.mk member.1) (deeper (some member.1) member.2
            (List.mem_map.mpr ⟨member, (List.mem_filter.mp inside).1, rfl⟩))

/-- Writing texts into nodes is writing values, if each node gets the text of its role. -/
theorem toJson_retext {texts : NodeId → Option String} {write : Role → String → String}
    (same : ∀ standing number value, Stands role tree standing (.scalar number value) →
      (texts number).elim value .string = value.mapText (write standing)) :
    (tree.retext texts).toJson = tree.toJson.revise (fun _ _ => false) write role := by
  induction tree using induction generalizing role with
  | step tree ih =>
      have deeper : ∀ key? child, (key?, child) ∈ tree.entries →
          (child.retext texts).toJson =
            child.toJson.revise (fun _ _ => false) write (role.below key? child.toJson) :=
        fun key? child inside => ih child (mem_children_of_mem_entries inside)
          fun standing number value stands => same standing number value (stands.lift inside)
      cases tree with
      | scalar number value => rw [retext, toJson, toJson, Json.revise, same role number value .top]
      | array number elements =>
          rw [retext, toJson, toJson, Json.revise, Json.reviseElements_eq]
          simp only [Bool.not_false, List.filter_true, List.map_map, Json.array.injEq]
          exact List.map_congr_left fun element inside =>
            deeper none element (List.mem_map_of_mem inside)
      | object number members =>
          rw [retext, toJson, toJson, Json.revise, Json.reviseMembers_eq]
          simp only [Bool.not_false, List.filter_true, List.map_map, Json.object.injEq]
          refine List.map_congr_left fun member inside => ?_
          exact congrArg (Prod.mk member.1) (deeper (some member.1) member.2
            (List.mem_map.mpr ⟨member, inside, rfl⟩))

/-! ### Roles in a document -/

section Held

variable {document : Document} {copy : Tree} {path : String} {binding : Binding} {position : Nat}

theorem entry_unique (wellFormed : document.WellFormed) (holds : document.Holds copy)
    {parent other : Tree} {key? otherKey? : Option String} (within : parent ∈ copy.preorder)
    (otherWithin : other ∈ copy.preorder) (inside : (key?, child) ∈ parent.entries)
    (otherInside : (otherKey?, child) ∈ other.entries) : parent = other ∧ key? = otherKey? := by
  have held := holds.of_mem_preorder within
  have link := held.linked (mem_children_of_mem_entries inside)
  have otherHeld := holds.of_mem_preorder otherWithin
  rw [otherHeld.linked (mem_children_of_mem_entries otherInside)] at link
  have same := held.unique otherHeld (Option.some.inj link).symm
  subst same
  have apart := wellFormed.nodup_children held
  rw [← map_snd_entries, List.map_map] at apart
  have equal := List.inj_on_of_nodup_map apart inside otherInside rfl
  exact ⟨rfl, congrArg Prod.fst equal⟩

/-- Which node a child is in the tree of a document decides its role. -/
theorem Stands.of_entry (wellFormed : document.WellFormed) (holds : document.Holds copy)
    {node owner : Tree} (stands : Stands role copy standing node) {key? : Option String}
    (within : owner ∈ copy.preorder) (inside : (key?, node) ∈ owner.entries) :
    ∃ above, Stands role copy above owner ∧ standing = above.below key? node.toJson := by
  cases stands with
  | top =>
      have smaller := sizeOf_children_lt (mem_children_of_mem_entries inside)
      exact absurd smaller (Nat.not_lt.mpr (sizeOf_preorder_le within))
  | @child above parent _ _ stands directly =>
      obtain ⟨rfl, rfl⟩ := entry_unique wellFormed holds stands.mem_preorder within directly inside
      exact ⟨above, stands, rfl⟩

variable {node : Tree}

theorem not_mem_preorder_of_child {tree child : Tree} (inside : child ∈ tree.children) :
    tree ∉ child.preorder := by
  intro within
  have atMost := sizeOf_preorder_le within
  have smaller := sizeOf_children_lt inside
  omega

theorem Stands.isElement_iff (stands : Stands .element copy standing node) :
    standing.isElement = true ↔ node = copy := by
  cases stands with
  | top => exact ⟨fun _ => rfl, fun _ => rfl⟩
  | child above inside =>
      refine ⟨nofun, fun same => ?_⟩
      subst same
      exact absurd above.mem_preorder
        (not_mem_preorder_of_child (mem_children_of_mem_entries inside))

variable (wellFormed : document.WellFormed) (holds : document.Holds copy)
  (distinct : copy.KeysDistinct)

include wellFormed holds distinct

/-- A role that a parent's role and a key decide belongs to the members under the key of the parents
in that role. -/
theorem Stands.member_iff (mark flag : Role → Bool) (owns : Tree → Prop) (key : String)
    (top : mark .element = false)
    (below : ∀ above key? child,
      mark (Role.below above key? child) = (flag above && key? == some key))
    (flagged : ∀ {above owner}, Stands .element copy above owner → (flag above = true ↔ owns owner))
    (stands : Stands .element copy standing node) :
    mark standing = true ↔
      ∃ owner ∈ copy.preorder, owns owner ∧ owner.member? key = some node := by
  constructor
  · intro marked
    cases stands with
    | top => rw [top] at marked; cases marked
    | child above inside =>
        rw [below, Bool.and_eq_true, beq_iff_eq] at marked
        obtain ⟨isFlagged, rfl⟩ := marked
        refine ⟨_, above.mem_preorder, (flagged above).mp isFlagged, ?_⟩
        refine member?_of_mem_entries (fun deeper within => ?_) inside
        exact distinct deeper (preorder_trans above.mem_preorder within)
  · rintro ⟨owner, within, isOwner, member⟩
    obtain ⟨above, ownerStands, rfl⟩ :=
      stands.of_entry wellFormed holds within (mem_entries_of_member? member)
    rw [below, Bool.and_eq_true, beq_iff_eq]
    exact ⟨(flagged ownerStands).mpr isOwner, rfl⟩

theorem Stands.isContainer_iff (stands : Stands .element copy standing node) :
    standing.isContainer = true ↔
      ∃ owner ∈ copy.preorder, owner.member? Key.qualifiers = some node := by
  have iff := stands.member_iff wellFormed holds distinct Role.isContainer (fun _ => true)
    (fun _ => True) Key.qualifiers rfl (fun _ _ _ => (Bool.true_and _).symm)
    fun _ => ⟨fun _ => trivial, fun _ => rfl⟩
  simpa only [true_and] using iff

/-- The qualifiers that pass a test are the children of containers that pass it. -/
theorem Stands.qualifier_iff (which : Tree → Bool) (stands : Stands .element copy standing node)
    (directly : child ∈ node.children) :
    (standing.isContainer && which child) = true ↔ child ∈ view.qualifiersBelow which copy := by
  rw [Bool.and_eq_true, stands.isContainer_iff wellFormed holds distinct, mem_qualifiersBelow_iff]
  constructor
  · rintro ⟨⟨owner, within, member⟩, passes⟩
    exact ⟨owner, within, node, member, directly, passes⟩
  · rintro ⟨owner, within, container, member, inside, passes⟩
    have containerHolds := holds.of_mem_preorder
      (preorder_trans within (child_mem_preorder (mem_children_of_member? member)))
    have nodeHolds := holds.of_mem_preorder stands.mem_preorder
    have link := containerHolds.linked inside
    rw [nodeHolds.linked directly] at link
    have same := nodeHolds.unique containerHolds (Option.some.inj link)
    subst same
    exact ⟨⟨owner, within, member⟩, passes⟩

theorem Stands.isIndexed_iff (stands : Stands .element copy standing node) :
    standing.isIndexed = true ↔ node ∈ view.qualifiersBelow view.isIndexed copy := by
  cases stands with
  | top =>
      refine ⟨nofun, fun found => ?_⟩
      obtain ⟨child, directly, within⟩ := exists_child_of_qualifier found
      exact absurd within (not_mem_preorder_of_child directly)
  | child above inside =>
      have read : Json.view.isIndexed node.toJson = view.isIndexed node :=
        toJson_carries.isIndexed trivial
      rw [Role.below, read]
      exact above.qualifier_iff wellFormed holds distinct view.isIndexed
        (mem_children_of_mem_entries inside)

theorem Stands.isPath_iff (stands : Stands .element copy standing node) :
    standing.isPath = true ↔
      ∃ qualifier ∈ view.qualifiersBelow view.isIndexed copy,
        qualifier.member? Key.value = some node := by
  rw [stands.member_iff wellFormed holds distinct Role.isPath Role.isIndexed
    (fun owner => owner ∈ view.qualifiersBelow view.isIndexed copy) Key.value rfl
    (fun _ _ _ => rfl) fun above => above.isIndexed_iff wellFormed holds distinct]
  constructor
  · rintro ⟨qualifier, _, listed, member⟩
    exact ⟨qualifier, listed, member⟩
  · rintro ⟨qualifier, listed, member⟩
    exact ⟨qualifier, mem_preorder_of_qualifier listed, listed, member⟩

theorem Stands.isShortName_iff (stands : Stands .element copy standing node) :
    standing.isShortName = true ↔ copy.member? Key.idShort = some node := by
  rw [stands.member_iff wellFormed holds distinct Role.isShortName Role.isElement (· = copy)
    Key.idShort rfl (fun _ _ _ => rfl) fun above => above.isElement_iff]
  constructor
  · rintro ⟨_, _, rfl, member⟩
    exact member
  · intro member
    exact ⟨copy, copy.self_mem_preorder, rfl, member⟩

/-! ### Values of copies -/

theorem toJson_pruned : (copy.pruned path).toJson = copy.toJson.withoutTriggers path := by
  apply toJson_without
  intro standing parent stands child inside
  have within := preorder_trans stands.mem_preorder (child_mem_preorder inside)
  have read : Json.isTrigger path child.toJson =
      (view.hasTag QualifierType.collectionMappingInfo.tag child &&
        child.stringMember? Key.value == some path) := by
    rw [Json.isTrigger, stringMember?_toJson, toJson_carries.hasTag trivial]
  rw [Bool.eq_iff_iff, List.contains_iff_mem, triggers, List.mem_map, read, ← Bool.and_assoc,
    Bool.and_eq_true, stands.qualifier_iff wellFormed holds distinct _ inside]
  constructor
  · rintro ⟨qualifier, listed, same⟩
    obtain ⟨found, hasPath⟩ := List.mem_filter.mp listed
    have held := holds.of_mem_preorder (mem_preorder_of_qualifier found)
    have equal := held.unique (holds.of_mem_preorder within) same
    subst equal
    exact ⟨found, hasPath⟩
  · intro found
    exact ⟨child, List.mem_filter.mpr found, rfl⟩

theorem toJson_numbered :
    (copy.numbered position).toJson = copy.toJson.withNumber position := by
  apply toJson_retext
  intro standing number value stands
  have named := stands.isShortName_iff wellFormed holds distinct
  by_cases isShortName : standing.isShortName = true
  · rw [shortNames, named.mp isShortName]
    cases value with
    | string text => simp [textsOf, Scalar.mapText, isShortName]
    | null => rfl
    | bool value => rfl
    | number value => rfl
  · have outside : number ∉ (copy.shortNames position).map Prod.fst := by
      intro listed
      obtain ⟨entry, inside, rfl⟩ := List.mem_map.mp listed
      obtain ⟨name, member⟩ := mem_shortNames inside
      have held := holds.of_mem_children (mem_children_of_member? member)
      rw [held.unique (holds.of_mem_preorder stands.mem_preorder) rfl] at member
      exact isShortName (named.mpr member)
    rw [textsOf_of_not_mem outside]
    cases value <;> simp [Scalar.mapText, isShortName]

theorem toJson_bound :
    (copy.bound binding position).toJson = copy.toJson.withBoundPaths binding position := by
  apply toJson_retext
  intro standing number value stands
  have isPath := stands.isPath_iff wellFormed holds distinct
  have held := holds.of_mem_preorder stands.mem_preorder
  have written : ∀ text,
      (number, text) ∈ (copy.boundTexts binding position).map Prod.snd →
        ∃ path, value = .string path ∧ standing.isPath = true ∧ binding.appliesTo path = true ∧
          text = binding.bind path position := by
    intro text listed
    obtain ⟨⟨_, entry⟩, inside, rfl⟩ := List.mem_map.mp listed
    obtain ⟨qualifier, found, path, member, applies, same⟩ := mem_boundTexts inside
    cases same
    have qualifierHolds := holds.of_mem_preorder (mem_preorder_of_qualifier found)
    have equal := (qualifierHolds.of_mem_children (mem_children_of_member? member)).unique held rfl
    rw [equal] at member
    cases equal
    exact ⟨path, rfl, isPath.mpr ⟨qualifier, found, member⟩, applies, rfl⟩
  cases found : textsOf ((copy.boundTexts binding position).map Prod.snd) number with
  | some text =>
      obtain ⟨path, rfl, marked, applies, rfl⟩ := written text (mem_of_textsOf found)
      simp [Scalar.mapText, marked, applies]
  | none =>
      cases value with
      | string text =>
          have kept : ¬(standing.isPath && binding.appliesTo text) = true := by
            rw [Bool.and_eq_true]
            rintro ⟨marked, applies⟩
            obtain ⟨qualifier, listed, member⟩ := isPath.mp marked
            have entry : (qualifier.number, number, binding.bind text position) ∈
                copy.boundTexts binding position := by
              refine List.mem_filterMap.mpr ⟨qualifier, listed, ?_⟩
              rw [boundText, member]
              exact if_pos applies
            have inTexts : number ∈
                ((copy.boundTexts binding position).map Prod.snd).map Prod.fst :=
              List.mem_map_of_mem (List.mem_map_of_mem entry)
            obtain ⟨text, some⟩ := exists_textsOf inTexts
            rw [found] at some
            cases some
          rw [Scalar.mapText, if_neg kept]
          rfl
      | null => rfl
      | bool value => rfl
      | number value => rfl

end Held

theorem KeysDistinct.without (distinct : tree.KeysDistinct) (gone : NodeId → Bool) :
    (tree.without gone).KeysDistinct := by
  induction tree using induction with
  | step tree ih =>
      have kept : (tree.filterChildren fun child => !gone child.number).KeysDistinct :=
        keysDistinct_filterChildren distinct
      rw [keysDistinct_iff] at distinct kept ⊢
      rw [without_eq]
      refine ⟨?_, fun child inside => ?_⟩
      · rw [content_mapChildren _ _ fun child _ => number_without gone child]
        exact kept.1
      · rw [children_mapChildren, children_filterChildren] at inside
        obtain ⟨old, present, rfl⟩ := List.mem_map.mp inside
        have oldIn := (List.mem_filter.mp present).1
        exact ih old oldIn (distinct.2 old oldIn)

theorem KeysDistinct.retext (distinct : tree.KeysDistinct) (texts : NodeId → Option String) :
    (tree.retext texts).KeysDistinct := by
  intro below within
  rw [preorder_retext] at within
  obtain ⟨old, present, rfl⟩ := List.mem_map.mp within
  have apart := distinct old present
  cases old with
  | scalar number value => rw [Tree.retext]; trivial
  | array number elements => rw [Tree.retext]; trivial
  | object number members =>
      rw [Tree.retext, keysDistinct_object, List.map_map]
      exact keysDistinct_object.mp apart

theorem exists_holds_pruned (first : NodeId) (value : Json) (path : String) :
    ∃ document : Document,
      document.WellFormed ∧ document.Holds ((ofJson first value).pruned path) := by
  obtain ⟨document, wellFormed, holds⟩ := Document.exists_holds_ofJson first value
  obtain ⟨prunedWF, _, _, without⟩ := wellFormed.removeNodes ((ofJson first value).triggers path)
  exact ⟨_, prunedWF, without _ holds (holds.number_not_mem_triggers path)⟩

theorem exists_holds_numbered (first : NodeId) (value : Json) (path : String) (position : Nat) :
    ∃ document : Document, document.WellFormed ∧
      document.Holds (((ofJson first value).pruned path).numbered position) := by
  obtain ⟨document, wellFormed, holds⟩ := exists_holds_pruned first value path
  obtain ⟨numberedWF, _, _, retext⟩ :=
    wellFormed.writeTexts _ (holds.scalar_of_mem_shortNames position)
  exact ⟨_, numberedWF, retext _ holds⟩

theorem IsCopy.toJson_eq {limit : NodeId} {path : String} {binding : Binding} {position : Nat}
    {owner copy : Tree} (isCopy : IsCopy limit path binding position owner copy)
    (distinct : owner.KeysDistinct) :
    copy.toJson = Json.copyFor path binding position owner.toJson := by
  obtain ⟨first, _, rfl⟩ := isCopy
  obtain ⟨fresh, wellFormed, holds⟩ := Document.exists_holds_ofJson first owner.toJson
  obtain ⟨pruning, prunedWF, prunedHolds⟩ := exists_holds_pruned first owner.toJson path
  obtain ⟨numbering, numberedWF, numberedHolds⟩ :=
    exists_holds_numbered first owner.toJson path position
  have value : (ofJson first owner.toJson).toJson = owner.toJson := toJson_place ..
  have freshDistinct : (ofJson first owner.toJson).KeysDistinct :=
    keysDistinct_place (keysDistinct_toJson.mpr distinct)
  generalize ofJson first owner.toJson = copy at *
  have prunedDistinct : (copy.pruned path).KeysDistinct :=
    freshDistinct.without (copy.triggers path).contains
  have numberedDistinct : ((copy.pruned path).numbered position).KeysDistinct :=
    prunedDistinct.retext (textsOf ((copy.pruned path).shortNames position))
  rw [prepared, toJson_bound numberedWF numberedHolds numberedDistinct,
    toJson_numbered prunedWF prunedHolds prunedDistinct,
    toJson_pruned wellFormed holds freshDistinct, value, Json.copyFor]

/-- The qualifier that causes the copies is dropped, and the path of the other one is bound. -/
example :
    let element (name path : String) (others : List Json) : Json := .object
      [(Key.idShort, .text name),
        (Key.qualifiers, .array (others ++
          [.object [(Key.type, .text "SMT/MappingInfo"), (Key.value, .text path)]]))]
    let trigger : Json :=
      .object [(Key.type, .text "SMT/CollectionMappingInfo"), (Key.value, .text "$.a[*]")]
    Json.copyFor "$.a[*]" (Binding.ofPath "$.a[*]") 1 (element "row" "$.a[*].b" [trigger]) =
      element "row_1" "$.a[1].b" [] := by
  rfl

end Tree

end TemplateFill
