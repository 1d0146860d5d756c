import TemplateFill.Proofs.Mapping.Marks
import TemplateFill.Proofs.Mapping.Mirrors
import TemplateFill.Proofs.Mapping.RoundRewrite
import TemplateFill.Proofs.Mapping.Rounds

/-!
Where the qualifiers of an expanded document come from.

A node behind a round was there before or is the copy of one that was. A qualifier so is, or is a
copy of, a qualifier that had its tag before any round. As no round leaves a marked qualifier behind
that was not marked before, restoring the marks brings back no collection that was expanded.
-/

namespace TemplateFill

theorem Tree.member?_exchange (gone : NodeId) (copies : List Tree) (tree : Tree) (key : String) :
    (tree.exchange gone copies).member? key =
      (tree.filterChildren fun child => child.number != gone).member? key := by
  cases tree <;> rfl

theorem Tree.scalar_of_graft {tree subtree : Tree} {number : NodeId} {value : Scalar}
    (same : tree.graft subtree = .scalar number value) :
    tree = .scalar number value ∨ subtree = .scalar number value := by
  by_cases here : tree.number = subtree.number
  · exact Or.inr ((graft_of_eq here).symm.trans same)
  · rw [graft_of_ne here] at same
    cases tree with
    | scalar number value => exact Or.inl same
    | array number elements => cases same
    | object number members => cases same

/-- A node of the copy of an owner, and the node that it copies. The nodes of a copy are numbered in
the order in which the owner's nodes stand. -/
def Document.CopyOf (document : Document) (owner copy source node : NodeId) : Prop :=
  ∃ place, (document.view.descendants owner)[place]? = some source ∧ node = copy + place

namespace Expansion

/-- Where a node comes from over a round: from itself, or from the node that it copies. -/
inductive Comes (before after : Context) : NodeId → NodeId → Prop
  | kept {node : NodeId} (old : node < before.working.size) : Comes before after node node
  | copied {qualifier owner copy source node : NodeId}
      (next : nextQualifier? before.working = some qualifier)
      (owned : before.working.qualifierOwner? qualifier = some owner)
      (fresh : before.working.size ≤ copy)
      (listed : after.working.parent? copy = before.working.parent? owner)
      (copied : before.working.CopyOf owner copy source node) : Comes before after node source

/-- Where a node comes from over any number of rounds: from itself, or from what it is a copy of, or
a copy of a copy. -/
inductive Stems : Context → Context → NodeId → NodeId → Prop
  | here (context : Context) (node : NodeId) : Stems context context node node
  | round {before next after : Context} {node between source : NodeId}
      (first : round before = .ok (some next)) (rest : Stems next after node between)
      (comes : Comes before next between source) : Stems before after node source

variable {context after : Context} {tree container owner list qualifier : Tree}
  {path : String} {entries : List Json} {copies : List Tree}

/-! ### Nodes behind a round -/

section Kept

variable (holds : context.working.Holds tree) (distinct : tree.KeysDistinct)
  (expands : Expands context after tree container owner list qualifier path entries copies)

include holds expands

theorem Expands.child_kept {source child : Tree} (within : source ∈ tree.preorder)
    (outside : source.number ∉ owner.numbers)
    (inside : child ∈ (source.graft (container.exchange owner.number copies)).children) :
    (∃ original ∈ source.children, original.number ∉ owner.numbers ∧
      child = original.graft (container.exchange owner.number copies)) ∨
      source = container ∧ child ∈ copies := by
  have containerHolds := holds.of_mem_preorder expands.within
  have sourceHolds := holds.of_mem_preorder within
  by_cases here : source.number = container.number
  · have same := sourceHolds.unique containerHolds here
    subst same
    rw [Tree.graft_of_eq (Tree.number_exchange ..).symm, Tree.children_exchange expands.noCopies]
      at inside
    rcases List.mem_append.mp inside with kept | copied
    · obtain ⟨old, different⟩ := List.mem_filter.mp kept
      have apart := sourceHolds.disjoint_children old expands.directly (bne_iff_ne.mp different)
      have elsewhere := sourceHolds.number_not_mem_child old
      refine Or.inl ⟨child, old, apart child.number_mem_numbers, (Tree.graft_of_not_mem ?_).symm⟩
      rwa [Tree.number_exchange]
    · exact Or.inr ⟨rfl, copied⟩
  · rw [Tree.graft_of_ne (by rwa [Tree.number_exchange]), Tree.children_mapChildren] at inside
    obtain ⟨original, old, rfl⟩ := List.mem_map.mp inside
    have apart :=
      Tree.number_not_mem_owner sourceHolds containerHolds expands.directly outside here old
    exact Or.inl ⟨original, old, apart, rfl⟩

include distinct

theorem Expands.member_kept {source member : Tree} {key : String} (within : source ∈ tree.preorder)
    (outside : source.number ∉ owner.numbers)
    (found : (source.graft (container.exchange owner.number copies)).member? key = some member) :
    ∃ original, source.member? key = some original ∧ original.number ∉ owner.numbers ∧
      member = original.graft (container.exchange owner.number copies) := by
  have containerHolds := holds.of_mem_preorder expands.within
  have sourceHolds := holds.of_mem_preorder within
  by_cases here : source.number = container.number
  · have same := sourceHolds.unique containerHolds here
    subst same
    have sourceDistinct : source.KeysDistinct := fun below deeper =>
      distinct below (Tree.preorder_trans within deeper)
    rw [Tree.graft_of_eq (Tree.number_exchange ..).symm, Tree.member?_exchange] at found
    obtain ⟨original, different⟩ := Tree.member?_of_filterChildren sourceDistinct found
    have old := Tree.mem_children_of_member? original
    have apart := sourceHolds.disjoint_children old expands.directly (bne_iff_ne.mp different)
    have elsewhere := sourceHolds.number_not_mem_child old
    refine ⟨member, original, apart member.number_mem_numbers, (Tree.graft_of_not_mem ?_).symm⟩
    rwa [Tree.number_exchange]
  · rw [Tree.graft_of_ne (by rwa [Tree.number_exchange]), Tree.member?_mapChildren] at found
    obtain ⟨original, old, rfl⟩ := Option.map_eq_some_iff.mp found
    have apart := Tree.number_not_mem_owner sourceHolds containerHolds expands.directly outside here
      (Tree.mem_children_of_member? old)
    exact ⟨original, old, apart, rfl⟩

end Kept

inductive Precursor (tree container owner : Tree) (copies : List Tree) : Tree → Tree → Prop
  | kept {source : Tree} (within : source ∈ tree.preorder)
      (outside : source.number ∉ owner.numbers) :
      Precursor tree container owner copies
        (source.graft (container.exchange owner.number copies)) source
  | copied {copy image source : Tree} {mirrors : Tree → Tree → Prop} (listed : copy ∈ copies)
      (copyMirrors : Tree.CopyMirrors owner copy mirrors) (mirrored : mirrors image source) :
      Precursor tree container owner copies image source

section Behind

variable (wellFormed : context.working.WellFormed) (holds : context.working.Holds tree)
  (distinct : tree.KeysDistinct)
  (expands : Expands context after tree container owner list qualifier path entries copies)

include wellFormed holds distinct expands

theorem Expands.precursor_copy {copy : Tree} (listed : copy ∈ copies) :
    Precursor tree container owner copies copy owner := by
  have ownerWithin := Tree.preorder_trans expands.within (Tree.child_mem_preorder expands.directly)
  have ownerDistinct : owner.KeysDistinct := fun below deeper =>
    distinct below (Tree.preorder_trans ownerWithin deeper)
  obtain ⟨index, found⟩ := List.mem_iff_getElem?.mp listed
  obtain ⟨mirrors, copyMirrors⟩ := (expands.areCopies index copy found).exists_mirrors ownerDistinct
    (wellFormed.numbers_nodup (expands.ownerHolds holds))
  exact .copied listed copyMirrors copyMirrors.top

/-- What is there behind a round mirrors what was there before. -/
theorem Expands.mirrors : Tree.Mirrors (Precursor tree container owner copies) := by
  have keptMember : ∀ {source member : Tree} {key : String}, source ∈ tree.preorder →
      source.number ∉ owner.numbers →
      (source.graft (container.exchange owner.number copies)).member? key = some member →
        ∃ original, source.member? key = some original ∧
          member = original.graft (container.exchange owner.number copies) ∧
          Precursor tree container owner copies member original := by
    intro source member key within outside found
    obtain ⟨original, present, apart, rfl⟩ :=
      expands.member_kept holds distinct within outside found
    have below := Tree.child_mem_preorder (Tree.mem_children_of_member? present)
    exact ⟨original, present, rfl, .kept (Tree.preorder_trans within below) apart⟩
  constructor
  · intro image source key member precursor found
    cases precursor with
    | kept within outside =>
        obtain ⟨original, present, _, lower⟩ := keptMember within outside found
        exact ⟨original, present, lower⟩
    | copied listed copyMirrors mirrored =>
        obtain ⟨original, present, lower⟩ := copyMirrors.isMirror.member mirrored found
        exact ⟨original, present, .copied listed copyMirrors lower⟩
  · intro image source child precursor inside
    cases precursor with
    | kept within outside =>
        rcases expands.child_kept holds within outside inside with ⟨original, old, apart, rfl⟩ |
          ⟨rfl, listed⟩
        · have below := Tree.child_mem_preorder old
          exact ⟨original, old, .kept (Tree.preorder_trans within below) apart⟩
        · exact ⟨owner, expands.directly,
            expands.precursor_copy wellFormed holds distinct listed⟩
    | copied listed copyMirrors mirrored =>
        obtain ⟨original, present, lower⟩ := copyMirrors.isMirror.child mirrored inside
        exact ⟨original, present, .copied listed copyMirrors lower⟩
  · intro image source tag precursor tagged
    cases precursor with
    | kept within outside =>
        obtain ⟨number, member⟩ := Tree.exists_scalar_of_stringMember? tagged
        obtain ⟨original, present, same, _⟩ := keptMember within outside member
        rcases Tree.scalar_of_graft same.symm with rfl | isScalar
        · rw [Tree.stringMember?, present]
          rfl
        · have directly := expands.directly
          cases container with
          | scalar number value => cases directly
          | array number elements => cases isScalar
          | object number members => cases isScalar
    | copied listed copyMirrors mirrored => exact copyMirrors.isMirror.type mirrored tagged

omit distinct in
theorem Expands.comes (image source : Tree)
    (precursor : Precursor tree container owner copies image source) :
    Comes context after image.number source.number := by
  have containerHolds := holds.of_mem_preorder expands.within
  have ownerHolds := expands.ownerHolds holds
  cases precursor with
  | kept within outside =>
      rw [Tree.number_graft]
      exact .kept (holds.of_mem_preorder within).present
  | @copied copy _ _ _ listed copyMirrors mirrored =>
      obtain ⟨within, number⟩ := copyMirrors.numbers image source mirrored
      obtain ⟨index, found⟩ := List.mem_iff_getElem?.mp listed
      have fresh := (expands.areCopies index copy found).le_of_mem_numbers copy.number_mem_numbers
      have copyIn : copy ∈ (container.exchange owner.number copies).children := by
        rw [Tree.children_exchange expands.noCopies]
        exact List.mem_append_right _ listed
      have link := (expands.holds.of_mem_preorder expands.exchanged).linked copyIn
      rw [Tree.number_exchange, ← containerHolds.linked expands.directly] at link
      have stands := ownerHolds.qualifierOwner? expands.member expands.inside
      refine .copied expands.next stands fresh link
        ⟨owner.numbers.idxOf source.number, ?_, number⟩
      rw [wellFormed.descendants_eq ownerHolds]
      exact List.getElem?_idxOf (Tree.mem_numbers_of_mem_preorder within)

end Behind

/-! ### Qualifiers behind rounds -/

variable {before : Context} {kind : QualifierType} {node : NodeId}

theorem exists_comes (sound : before.working.Sound) (done : round before = .ok (some after))
    (listed : node ∈ after.working.qualifiers Document.root kind) :
    ∃ source ∈ before.working.qualifiers Document.root kind, Comes before after node source := by
  obtain ⟨tree, top, holds⟩ := sound.wellFormed.grounded sound.wellFormed.rooted
  have distinct := (Document.attachedKeysDistinct_iff sound.wellFormed holds top).mp sound.keys
  obtain ⟨container, owner, list, qualifier, path, entries, copies, expands⟩ :=
    exists_expands sound.wellFormed holds top done
  have rootOutside := expands.root_not_mem sound.wellFormed holds top
  have afterTop : (tree.graft (container.exchange owner.number copies)).number = Document.root := by
    rw [Tree.number_graft, top]
  rw [← afterTop, expands.wellFormed.qualifiers_eq expands.holds] at listed
  obtain ⟨found, inside, rfl⟩ := List.mem_map.mp listed
  have whole : Precursor tree container owner copies _ tree :=
    .kept tree.self_mem_preorder rootOutside
  obtain ⟨source, sourceIn, mirrored⟩ :=
    (expands.mirrors sound.wellFormed holds distinct).qualifier whole inside
  refine ⟨source.number, ?_, expands.comes sound.wellFormed holds found source mirrored⟩
  rw [← top, sound.wellFormed.qualifiers_eq holds]
  exact List.mem_map_of_mem sourceIn

/-- A qualifier behind any number of rounds stems from one with the same tag. -/
theorem exists_stems (sound : before.working.Sound) (rounds : Rounds before after)
    (listed : node ∈ after.working.qualifiers Document.root kind) :
    ∃ source ∈ before.working.qualifiers Document.root kind, Stems before after node source := by
  induction rounds using Relation.ReflTransGen.head_induction_on with
  | refl => exact ⟨node, listed, .here after node⟩
  | @head before next first _ ih =>
      obtain ⟨between, listed, stems⟩ := ih (sound_of_round sound first)
      obtain ⟨source, sourceIn, comes⟩ := exists_comes sound first listed
      exact ⟨source, sourceIn, .round first stems comes⟩

/-- Expansion consumes the collection qualifiers.

When the loop ends, none is left below the root. No marked qualifier is left in the result, and a
collection qualifier in it was marked before expansion began, or is a copy of one that was. -/
theorem expandCollections_consumes {context after : Context} (reachable : context.working.Reachable)
    (distinct : context.working.KeysDistinct) (done : context.expandCollections = .ok after) :
    ∃ last, expandAll context = .ok last ∧
      last.working.qualifiers Document.root .collectionMappingInfo = [] ∧
      after.working.qualifiers Document.root .processedCollectionMappingInfo = [] ∧
      (∀ node ∈ after.working.qualifiers Document.root .collectionMappingInfo,
        ∃ source ∈ context.working.qualifiers Document.root .processedCollectionMappingInfo,
          Stems context last node source) ∧
      (context.working.qualifiers Document.root .processedCollectionMappingInfo = [] →
        after.working.qualifiers Document.root .collectionMappingInfo = []) := by
  have sound : context.working.Sound := ⟨reachable.wellFormed, distinct.attached⟩
  obtain ⟨last, rounds, ⟨ran, finished⟩ | ⟨failure, failed, _⟩⟩ := exists_last sound.wellFormed
  · rw [Context.expandCollections, ran] at done
    cases done
    obtain ⟨unmarked, restored⟩ := qualifiers_restoreTags (rounds.sound sound).wellFormed
    have stems :
        ∀ node ∈ (restoreTags last.working).qualifiers Document.root .collectionMappingInfo,
        ∃ source ∈ context.working.qualifiers Document.root .processedCollectionMappingInfo,
          Stems context last node source := by
      intro node listed
      rcases restored node listed with collection | marked
      · rw [finished] at collection
        cases collection
      · exact exists_stems sound rounds marked
    refine ⟨last, ran, finished, unmarked, stems, fun none => List.eq_nil_iff_forall_not_mem.mpr ?_⟩
    intro node listed
    obtain ⟨source, marked, _⟩ := stems node listed
    rw [none] at marked
    cases marked
  · rw [Context.expandCollections, failed] at done
    cases done

/-- A collection with a marked qualifier in it: the copies of the marked one are collection
qualifiers again, and the other one is gone. -/
theorem expandCollections_consumes_marked :
    let qualifier (tag path : String) : Json :=
      .object [(Key.type, .text tag), (Key.value, .text path)]
    let template : Json := .object [("submodelElements", .array [.object
      [(Key.modelType, .text "SubmodelElementCollection"),
        (Key.qualifiers, .array [qualifier "SMT/CollectionMappingInfo" "$.a[*]",
          qualifier "_SMT/CollectionMappingInfo" "$.b[*]"])]])]
    let data : Json := .object [("a", .array [.null, .null])]
    let context : Context :=
      { Context.start template data "en" "id" "now" with working := Document.ofJson template }
    context.working.Reachable ∧ context.working.KeysDistinct ∧
      ∃ after, context.expandCollections = .ok after ∧
        ∃ last, expandAll context = .ok last ∧
          last.working.qualifiers Document.root .collectionMappingInfo = [] ∧
          after.working.qualifiers Document.root .processedCollectionMappingInfo = [] ∧
          (∀ node ∈ after.working.qualifiers Document.root .collectionMappingInfo,
            ∃ source ∈ context.working.qualifiers Document.root .processedCollectionMappingInfo,
              Stems context last node source) ∧
          (context.working.qualifiers Document.root .processedCollectionMappingInfo = [] →
            after.working.qualifiers Document.root .collectionMappingInfo = []) := by
  intro qualifier template data context
  have reachable : context.working.Reachable := .ofJson template
  have distinct : context.working.KeysDistinct := by decide +kernel
  have once : ((round context).toOption.join.map fun after =>
      (after.working.qualifiers Document.root .collectionMappingInfo).isEmpty) = some true := by
    decide +kernel
  cases first : round context with
  | error failure => rw [first] at once; cases once
  | ok after? =>
      cases after? with
      | none => rw [first] at once; cases once
      | some last =>
          rw [first] at once
          have finished := round_eq_none_iff.mpr (List.isEmpty_iff.mp (Option.some.inj once))
          have ran := (Run.next first (.done finished)).expandAll_eq
          have done : context.expandCollections = .ok
              { last with qualifier? := none, working := restoreTags last.working } := by
            rw [Context.expandCollections, ran]
            rfl
          exact ⟨reachable, distinct, _, done, expandCollections_consumes reachable distinct done⟩

end Expansion

end TemplateFill
