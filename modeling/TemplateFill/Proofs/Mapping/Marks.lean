import TemplateFill.Proofs.Mapping.Copies
import TemplateFill.Proofs.Mapping.Mappings

/-!
Marks of expanded collections.

Restoring tags takes the mark from every qualifier that has it and changes nothing else, so no
marked qualifier is left, and the qualifiers that take values stay as they are.
-/

namespace TemplateFill

def Tree.marked (tree : Tree) : List Tree :=
  view.qualifiersBelow (view.hasTag QualifierType.processedCollectionMappingInfo.tag) tree

theorem Tree.type_of_mem_marked {tree qualifier : Tree} (inside : qualifier ∈ tree.marked) :
    ∃ number, qualifier.member? Key.type =
      some (.scalar number (.string QualifierType.processedCollectionMappingInfo.tag)) := by
  obtain ⟨_, _, _, _, _, tagged⟩ := mem_qualifiersBelow_iff.mp inside
  exact exists_scalar_of_stringMember? (hasTag_iff.mp tagged)

def Tree.markedTypes (tree : Tree) : List (NodeId × NodeId) :=
  tree.marked.map fun qualifier =>
    (qualifier.number, ((qualifier.member? Key.type).map number).getD 0)

theorem Tree.exists_of_mem_markedTypes {tree : Tree} {entry : NodeId × NodeId}
    (inside : entry ∈ tree.markedTypes) :
    ∃ qualifier ∈ tree.marked, entry.1 = qualifier.number ∧ qualifier.member? Key.type =
      some (.scalar entry.2 (.string QualifierType.processedCollectionMappingInfo.tag)) := by
  obtain ⟨qualifier, known, rfl⟩ := List.mem_map.mp inside
  obtain ⟨number, member⟩ := type_of_mem_marked known
  refine ⟨qualifier, known, rfl, ?_⟩
  rw [member]
  rfl

/-- A change of texts takes every qualifier to one with the texts of its own. -/
theorem Tree.mem_qualifiersBelow_retext {which : Tree → Bool} {texts : NodeId → Option String}
    {tree found : Tree} (inside : found ∈ view.qualifiersBelow which (tree.retext texts)) :
    ∃ old ∈ view.qualifiersBelow (fun node => which (node.retext texts)) tree,
      found = old.retext texts := by
  obtain ⟨owner, within, list, member, directly, chosen⟩ := mem_qualifiersBelow_iff.mp inside
  rw [preorder_retext] at within
  obtain ⟨oldOwner, ownerIn, rfl⟩ := List.mem_map.mp within
  rw [member?_retext] at member
  obtain ⟨oldList, oldMember, rfl⟩ := Option.map_eq_some_iff.mp member
  rw [children_retext] at directly
  obtain ⟨old, oldIn, rfl⟩ := List.mem_map.mp directly
  refine ⟨old, mem_qualifiersBelow_iff.mpr ?_, rfl⟩
  exact ⟨oldOwner, ownerIn, oldList, oldMember, oldIn, chosen⟩

namespace Expansion

variable {document : Document} {tree : Tree}

theorem foldl_restoreTag_eq (wellFormed : document.WellFormed)
    (entries : List (NodeId × NodeId))
    (types : ∀ entry ∈ entries, document.member? Key.type entry.1 = some entry.2 ∧
      entry.2 < document.size ∧ ∃ value, document.content entry.2 = .scalar value) :
    (entries.map Prod.fst).foldl restoreTag document = document.writeTexts
      (entries.map fun entry => (entry.2, QualifierType.collectionMappingInfo.tag)) := by
  induction entries generalizing document with
  | nil => rfl
  | cons entry rest ih =>
      obtain ⟨qualifier, node⟩ := entry
      obtain ⟨member, present, value, recorded⟩ :=
        types (qualifier, node) (List.mem_cons_self ..)
      obtain ⟨first, size, _, contents, _⟩ :=
        wellFormed.writeText present recorded QualifierType.collectionMappingInfo.tag
      have restored : restoreTag document qualifier = document.replaceValue node
          (.text QualifierType.collectionMappingInfo.tag) := by
        rw [restoreTag, member]
      rw [List.map_cons, List.foldl_cons, restored, ih first]
      · rfl
      · intro entry inside
        obtain ⟨entryMember, entryPresent, old, entryRecorded⟩ :=
          types entry (List.mem_cons_of_mem _ inside)
        rw [member?_replaceValue_text wellFormed present recorded, size, contents]
        refine ⟨entryMember, entryPresent, ?_⟩
        split
        · exact ⟨_, rfl⟩
        · exact ⟨old, entryRecorded⟩

theorem member?_of_mem_markedTypes (holds : document.Holds tree) {entry : NodeId × NodeId}
    (inside : entry ∈ tree.markedTypes) :
    document.member? Key.type entry.1 = some entry.2 ∧ entry.2 < document.size ∧
      ∃ value, document.content entry.2 = .scalar value := by
  obtain ⟨qualifier, known, same, member⟩ := Tree.exists_of_mem_markedTypes inside
  have held := holds.of_mem_preorder (Tree.mem_preorder_of_qualifier known)
  have child := held.of_mem_children (Tree.mem_children_of_member? member)
  refine ⟨?_, child.present, _, child.content⟩
  rw [same, held.member?, member]
  rfl

def restoredTypes (tree : Tree) : List (NodeId × String) :=
  tree.markedTypes.map fun entry => (entry.2, QualifierType.collectionMappingInfo.tag)

theorem restoreTags_eq (wellFormed : document.WellFormed) (holds : document.Holds tree)
    (top : tree.number = Document.root) :
    restoreTags document = document.writeTexts (restoredTypes tree) := by
  have written := foldl_restoreTag_eq wellFormed tree.markedTypes fun _ =>
    member?_of_mem_markedTypes holds
  rw [restoreTags, ← top, wellFormed.qualifiers_eq holds .processedCollectionMappingInfo,
    restoredTypes, ← written, Tree.markedTypes, List.map_map]
  rfl

/-- Texts that make the marked qualifiers collection qualifiers again and change nothing else. -/
structure Restores (tree : Tree) (texts : NodeId → Option String) : Prop where
  marked : ∀ node ∈ tree.marked, (node.retext texts).stringMember? Key.type =
    some QualifierType.collectionMappingInfo.tag
  others : ∀ node ∈ tree.preorder, ∀ key, (key = Key.type → node ∉ tree.marked) →
    (node.retext texts).stringMember? key = node.stringMember? key

theorem restoreTags_holds (wellFormed : document.WellFormed)
    (holds : document.Holds tree) (top : tree.number = Document.root) :
    ∃ texts, (restoreTags document).WellFormed ∧ (restoreTags document).Holds (tree.retext texts) ∧
      Restores tree texts := by
  obtain ⟨restoredWF, _, _, trees⟩ := wellFormed.writeTexts (restoredTypes tree) (by
    intro entry inside
    obtain ⟨pair, known, rfl⟩ := List.mem_map.mp inside
    exact (member?_of_mem_markedTypes holds known).2)
  rw [restoreTags_eq wellFormed holds top]
  refine ⟨_, restoredWF, trees tree holds, ⟨?_, ?_⟩⟩
  · intro node inside
    obtain ⟨number, member⟩ := Tree.type_of_mem_marked inside
    have given : number ∈ (restoredTypes tree).map Prod.fst := by
      rw [restoredTypes, List.map_map, Tree.markedTypes, List.map_map]
      refine List.mem_map.mpr ⟨node, inside, ?_⟩
      rw [Function.comp_apply, member]
      rfl
    obtain ⟨text, found⟩ := Tree.exists_textsOf given
    obtain ⟨_, _, same⟩ := List.mem_map.mp (Tree.mem_of_textsOf found)
    cases same
    rw [Tree.stringMember?, Tree.member?_retext, member, Option.map_some, Option.bind_some,
      Tree.retext, found]
    rfl
  · intro node within key other
    refine Tree.stringMember?_retext fun member found => Tree.textsOf_of_not_mem fun given => ?_
    rw [restoredTypes, List.map_map] at given
    obtain ⟨entry, known, same⟩ := List.mem_map.mp given
    obtain ⟨qualifier, marked, _, typeMember⟩ := Tree.exists_of_mem_markedTypes known
    have held := holds.of_mem_preorder (Tree.mem_preorder_of_qualifier marked)
    obtain ⟨rfl, keys⟩ :=
      wellFormed.member_inj (holds.of_mem_preorder within) held found typeMember same.symm
    exact other keys marked

/-- A qualifier of the restored tree was marked if it has the tag that is restored, or else it was
not marked and had its tag before. -/
theorem Restores.exists_old {texts : NodeId → Option String} {tag : String} {found : Tree}
    (restores : Restores tree texts)
    (inside : found ∈ Tree.view.qualifiersBelow (Tree.view.hasTag tag) (tree.retext texts)) :
    ∃ old, found = old.retext texts ∧
      (old ∈ tree.marked ∧ tag = QualifierType.collectionMappingInfo.tag ∨
        old ∉ tree.marked ∧ old ∈ Tree.view.qualifiersBelow (Tree.view.hasTag tag) tree) := by
  obtain ⟨old, oldIn, rfl⟩ := Tree.mem_qualifiersBelow_retext inside
  obtain ⟨owner, ownerIn, list, member, directly, tagged⟩ := Tree.mem_qualifiersBelow_iff.mp oldIn
  rw [Tree.hasTag_iff] at tagged
  by_cases marked : old ∈ tree.marked
  · rw [restores.marked old marked] at tagged
    exact ⟨old, rfl, Or.inl ⟨marked, (Option.some.inj tagged).symm⟩⟩
  · have within := Tree.mem_preorder_of_qualifier oldIn
    rw [restores.others old within Key.type fun _ => marked] at tagged
    have same := Tree.mem_qualifiersBelow_iff.mpr
      ⟨owner, ownerIn, list, member, directly, Tree.hasTag_iff.mpr tagged⟩
    exact ⟨old, rfl, Or.inr ⟨marked, same⟩⟩

/-- After restoring tags no qualifier is marked, and the collection qualifiers are those that were
collection qualifiers or marked ones before. -/
theorem qualifiers_restoreTags (wellFormed : document.WellFormed) :
    (restoreTags document).qualifiers Document.root .processedCollectionMappingInfo = [] ∧
      ∀ node ∈ (restoreTags document).qualifiers Document.root .collectionMappingInfo,
        node ∈ document.qualifiers Document.root .collectionMappingInfo ∨
          node ∈ document.qualifiers Document.root .processedCollectionMappingInfo := by
  obtain ⟨tree, top, holds⟩ := wellFormed.grounded wellFormed.rooted
  obtain ⟨texts, restoredWF, restoredHolds, restores⟩ := restoreTags_holds wellFormed holds top
  have restoredTop : (tree.retext texts).number = Document.root := by rw [Tree.number_retext, top]
  rw [← restoredTop, restoredWF.qualifiers_eq restoredHolds, restoredWF.qualifiers_eq restoredHolds,
    restoredTop, ← top, wellFormed.qualifiers_eq holds, wellFormed.qualifiers_eq holds]
  constructor
  · rw [List.map_eq_nil_iff, List.eq_nil_iff_forall_not_mem]
    intro found inside
    obtain ⟨old, _, ⟨_, same⟩ | ⟨unmarked, marked⟩⟩ := restores.exists_old inside
    · exact absurd same (by decide)
    · exact unmarked marked
  · intro node inside
    obtain ⟨found, foundIn, rfl⟩ := List.mem_map.mp inside
    obtain ⟨old, rfl, ⟨marked, _⟩ | ⟨_, collection⟩⟩ := restores.exists_old foundIn
    · rw [Tree.number_retext]
      exact Or.inr (List.mem_map_of_mem marked)
    · rw [Tree.number_retext]
      exact Or.inl (List.mem_map_of_mem collection)

/-- Restoring tags keeps the mappings that take values, and their paths. -/
theorem mappingInfo_restoreTags (wellFormed : document.WellFormed)
    (holds : document.Holds tree) (top : tree.number = Document.root) :
    ((restoreTags document).qualifiers Document.root .mappingInfo).map
        (restoreTags document).qualifierValue? =
      (tree.mappings.filter (Tree.view.hasTag QualifierType.mappingInfo.tag)).map
        (Tree.stringMember? Key.value) := by
  obtain ⟨texts, restoredWF, restoredHolds, restores⟩ := restoreTags_holds wellFormed holds top
  have tags : ∀ node ∈ tree.preorder,
      Tree.view.hasTag QualifierType.mappingInfo.tag (node.retext texts) =
        Tree.view.hasTag QualifierType.mappingInfo.tag node := by
    intro node within
    by_cases marked : node ∈ tree.marked
    · obtain ⟨_, _, _, _, _, tagged⟩ := Tree.mem_qualifiersBelow_iff.mp marked
      have collection := Tree.hasTag_iff.mpr (restores.marked node marked)
      rw [Tree.hasTag_unique tagged (by decide), Tree.hasTag_unique collection (by decide)]
    · exact Tree.hasTag_congr (restores.others node within Key.type fun _ => marked) _
  have changed := @Tree.qualifiersBelow_change
    (Tree.view.hasTag QualifierType.mappingInfo.tag) (fun _ => true) (Tree.retext texts) tree
    (fun node _ => by rw [Tree.children_retext, List.filter_true])
    (fun node _ => Tree.member?_retext texts node Key.qualifiers) tags
    (fun _ _ dropped => absurd dropped (by decide))
  rw [List.filter_true, Tree.qualifiersBelow_mappingInfo tree] at changed
  have restoredTop : (tree.retext texts).number = Document.root := by rw [Tree.number_retext, top]
  rw [← restoredTop, restoredWF.qualifiers_eq restoredHolds, changed, List.map_map, List.map_map]
  refine List.map_congr_left fun found inside => ?_
  have within := Tree.mem_preorder_of_qualifier (List.mem_filter.mp inside).1
  have held : (restoreTags document).Holds (found.retext texts) :=
    restoredHolds.of_mem_preorder (by
      rw [Tree.preorder_retext]
      exact List.mem_map_of_mem within)
  have value := restores.others found within Key.value fun same => absurd same (by decide)
  exact (held.stringMember? Key.value).trans value

end Expansion

end TemplateFill
