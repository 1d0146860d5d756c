import TemplateFill.Mapping.Expansion
import TemplateFill.Proofs.Document.Reshape
import TemplateFill.Proofs.Mapping.Qualifiers
import TemplateFill.Proofs.Mapping.Results

/-!
The copies of one round of expansion.

`Tree.prepared` is what becomes of the tree of a fresh copy: the qualifiers that caused the copying
are taken out, a short name gets the number of the copy, and paths that start with the list are
bound. Making copies never fails if the container is an array; the container gets them behind the
elements that it has, and nothing else that the document holds changes.
-/

namespace TemplateFill

/-! ### Copies as trees -/

namespace Tree

def triggers (path : String) (copy : Tree) : List NodeId :=
  ((view.qualifiersBelow (view.hasTag QualifierType.collectionMappingInfo.tag) copy).filter
    fun qualifier => qualifier.stringMember? Key.value == some path).map number

def shortNames (position : Nat) (copy : Tree) : List (NodeId × String) :=
  match copy.member? Key.idShort with
  | some (.scalar number (.string name)) => [(number, name ++ "_" ++ toString position)]
  | _ => []

def boundText (binding : Binding) (position : Nat) (qualifier : Tree) :
    Option (NodeId × NodeId × String) :=
  match qualifier.member? Key.value with
  | some (.scalar number (.string path)) =>
      if binding.appliesTo path then
        some (qualifier.number, number, binding.bind path position)
      else none
  | _ => none

def boundTexts (binding : Binding) (position : Nat) (copy : Tree) :
    List (NodeId × NodeId × String) :=
  (view.qualifiersBelow view.isIndexed copy).filterMap (boundText binding position)

def pruned (path : String) (copy : Tree) : Tree := copy.without (copy.triggers path).contains

def numbered (position : Nat) (copy : Tree) : Tree :=
  copy.retext (textsOf (copy.shortNames position))

def bound (binding : Binding) (position : Nat) (copy : Tree) : Tree :=
  copy.retext (textsOf ((copy.boundTexts binding position).map Prod.snd))

def prepared (path : String) (binding : Binding) (position : Nat) (copy : Tree) : Tree :=
  ((copy.pruned path).numbered position).bound binding position

/-- A copy of an owner whose nodes are numbered from some number at or behind the limit on. -/
def IsCopy (limit : NodeId) (path : String) (binding : Binding) (position : Nat)
    (owner copy : Tree) : Prop :=
  ∃ first, limit ≤ first ∧ copy = (ofJson first owner.toJson).prepared path binding position

@[simp] theorem number_prepared (path : String) (binding : Binding) (position : Nat)
    (copy : Tree) : (copy.prepared path binding position).number = copy.number := by
  rw [prepared, bound, numbered, pruned, number_retext, number_retext, number_without]

theorem triggers_subset (path : String) (copy : Tree) : copy.triggers path ⊆ copy.numbers := by
  intro number inside
  obtain ⟨found, within, rfl⟩ := List.mem_map.mp inside
  exact mem_numbers_of_mem_preorder (mem_preorder_of_qualifier (List.mem_filter.mp within).1)

theorem mem_shortNames {position : Nat} {copy : Tree} {entry : NodeId × String}
    (inside : entry ∈ copy.shortNames position) :
    ∃ name, copy.member? Key.idShort = some (.scalar entry.1 (.string name)) := by
  rw [shortNames] at inside
  split at inside
  · rename_i number name found
    cases List.mem_singleton.mp inside
    exact ⟨name, found⟩
  · cases inside

theorem mem_numbers_of_mem_shortNames {position : Nat} {copy : Tree} {entry : NodeId × String}
    (inside : entry ∈ copy.shortNames position) : entry.1 ∈ copy.numbers := by
  obtain ⟨name, member⟩ := mem_shortNames inside
  exact mem_numbers_of_mem_preorder (child_mem_preorder (mem_children_of_member? member))

theorem boundText_eq_some {binding : Binding} {position : Nat} {qualifier : Tree}
    {entry : NodeId × NodeId × String}
    (found : qualifier.boundText binding position = some entry) :
    ∃ path, qualifier.member? Key.value = some (.scalar entry.2.1 (.string path)) ∧
      binding.appliesTo path = true ∧
      entry = (qualifier.number, entry.2.1, binding.bind path position) := by
  rw [boundText] at found
  split at found
  · rename_i number path member
    split at found
    · rename_i applies
      cases found
      exact ⟨path, member, applies, rfl⟩
    · cases found
  · cases found

theorem mem_boundTexts {binding : Binding} {position : Nat} {copy : Tree}
    {entry : NodeId × NodeId × String} (inside : entry ∈ copy.boundTexts binding position) :
    ∃ qualifier ∈ view.qualifiersBelow view.isIndexed copy, ∃ path,
      qualifier.member? Key.value = some (.scalar entry.2.1 (.string path)) ∧
        binding.appliesTo path = true ∧
        entry = (qualifier.number, entry.2.1, binding.bind path position) := by
  obtain ⟨qualifier, listed, found⟩ := List.mem_filterMap.mp inside
  exact ⟨qualifier, listed, boundText_eq_some found⟩

theorem mem_numbers_of_mem_boundTexts {binding : Binding} {position : Nat} {copy : Tree}
    {entry : NodeId × NodeId × String} (inside : entry ∈ copy.boundTexts binding position) :
    entry.2.1 ∈ copy.numbers := by
  obtain ⟨qualifier, found, text, member, _⟩ := mem_boundTexts inside
  exact mem_numbers_of_mem_preorder (preorder_trans (mem_preorder_of_qualifier found)
    (child_mem_preorder (mem_children_of_member? member)))

theorem numbers_without_subset (gone : NodeId → Bool) (tree : Tree) :
    (tree.without gone).numbers ⊆ tree.numbers := by
  induction tree using induction with
  | step tree ih =>
      intro number inside
      rcases mem_numbers_iff.mp inside with same | ⟨child, directly, deeper⟩
      · rw [same, number_without]
        exact tree.number_mem_numbers
      · rw [children_without] at directly
        obtain ⟨old, present, rfl⟩ := List.mem_map.mp directly
        have oldIn := (List.mem_filter.mp present).1
        exact numbers_subset (child_mem_preorder oldIn) (ih old oldIn deeper)

theorem numbers_prepared_subset (path : String) (binding : Binding) (position : Nat)
    (copy : Tree) : (copy.prepared path binding position).numbers ⊆ copy.numbers := by
  rw [prepared, bound, numbered, pruned, numbers_retext, numbers_retext]
  exact numbers_without_subset _ copy

theorem IsCopy.le_of_mem_numbers {limit : NodeId} {path : String} {binding : Binding}
    {position : Nat} {owner copy : Tree} (isCopy : IsCopy limit path binding position owner copy)
    {number : NodeId} (inside : number ∈ copy.numbers) : limit ≤ number := by
  obtain ⟨first, low, rfl⟩ := isCopy
  have fresh := mem_numbers_ofJson.mp (numbers_prepared_subset _ _ _ _ inside)
  exact Nat.le_trans low fresh.1

theorem without_of_disjoint {gone : List NodeId} {tree : Tree}
    (apart : List.Disjoint gone tree.numbers) : tree.without gone.contains = tree := by
  refine without_of_not_mem fun child directly number deeper => ?_
  rw [Bool.eq_false_iff]
  intro isGone
  exact apart (List.contains_iff_mem.mp isGone)
    (numbers_subset (child_mem_preorder directly) deeper)

theorem retext_of_disjoint {entries : List (NodeId × String)} {tree : Tree}
    (apart : List.Disjoint (entries.map Prod.fst) tree.numbers) :
    tree.retext (textsOf entries) = tree :=
  retext_of_not_mem fun _ inside => textsOf_of_not_mem fun listed => apart listed inside

theorem mem_preorder_graft {tree subtree : Tree} (inside : subtree.number ∈ tree.numbers) :
    subtree ∈ (tree.graft subtree).preorder := by
  induction tree using induction with
  | step tree ih =>
      by_cases here : tree.number = subtree.number
      · rw [graft_of_eq here]
        exact subtree.self_mem_preorder
      · rw [graft_of_ne here]
        rcases mem_numbers_iff.mp inside with same | ⟨child, directly, deeper⟩
        · exact absurd same.symm here
        · refine mem_preorder_iff.mpr (Or.inr ⟨child.graft subtree, ?_, ih child directly deeper⟩)
          rw [children_mapChildren]
          exact List.mem_map_of_mem directly

theorem mem_preorder_graft_of_apart {tree subtree below : Tree} (within : below ∈ tree.preorder)
    (outside : subtree.number ∉ below.numbers)
    (apart : ∀ node ∈ tree.preorder, node.number = subtree.number → below ∉ node.preorder) :
    below ∈ (tree.graft subtree).preorder := by
  induction tree using induction with
  | step tree ih =>
      by_cases here : tree.number = subtree.number
      · exact absurd within (apart tree tree.self_mem_preorder here)
      · rcases mem_preorder_iff.mp within with same | ⟨child, directly, deeper⟩
        · subst same
          rw [graft_of_not_mem outside]
          exact self_mem_preorder _
        · rw [graft_of_ne here]
          refine mem_preorder_iff.mpr (Or.inr ⟨child.graft subtree, ?_, ?_⟩)
          · rw [children_mapChildren]
            exact List.mem_map_of_mem directly
          · exact ih child directly deeper fun node inside =>
              apart node (preorder_trans (child_mem_preorder directly) inside)

end Tree

theorem Document.Holds.graft_self {document : Document} {tree : Tree}
    (holds : document.Holds tree) {below : Tree} (within : below ∈ tree.preorder) :
    tree.graft below = tree := by
  have belowHolds := holds.of_mem_preorder within
  clear within
  induction holds with
  | @intro tree present content linked held ih =>
      by_cases here : tree.number = below.number
      · rw [Tree.graft_of_eq here]
        exact belowHolds.unique (.intro present content linked held) here.symm
      · rw [Tree.graft_of_ne here]
        exact Tree.mapChildren_eq_self _ _ ih

/-! ### Copies in a document -/

theorem Document.Holds.number_not_mem_triggers {document : Document} {copy : Tree}
    (holds : document.Holds copy) (path : String) : copy.number ∉ copy.triggers path := by
  intro inside
  obtain ⟨found, within, same⟩ := List.mem_map.mp inside
  obtain ⟨child, directly, deeper⟩ :=
    Tree.exists_child_of_qualifier (List.mem_filter.mp within).1
  exact holds.number_not_mem_child directly (same ▸ Tree.mem_numbers_of_mem_preorder deeper)

theorem Document.Holds.scalar_of_mem_shortNames {document : Document} {copy : Tree}
    (holds : document.Holds copy) (position : Nat) :
    ∀ entry ∈ copy.shortNames position, entry.1 < document.size ∧
      ∃ value, document.content entry.1 = .scalar value := by
  intro entry inside
  obtain ⟨name, member⟩ := Tree.mem_shortNames inside
  have held := holds.of_mem_children (Tree.mem_children_of_member? member)
  exact ⟨held.present, _, held.content⟩

theorem Document.Holds.scalar_of_mem_boundTexts {document : Document} {copy : Tree}
    (holds : document.Holds copy) (binding : Binding) (position : Nat) :
    ∀ entry ∈ copy.boundTexts binding position,
      document.member? Key.value entry.1 = some entry.2.1 ∧ entry.2.1 < document.size ∧
        ∃ value, document.content entry.2.1 = .scalar value := by
  intro entry inside
  obtain ⟨qualifier, listed, text, member, _, same⟩ := Tree.mem_boundTexts inside
  have held := holds.of_mem_preorder (Tree.mem_preorder_of_qualifier listed)
  have child := held.of_mem_children (Tree.mem_children_of_member? member)
  refine ⟨?_, child.present, _, child.content⟩
  rw [same, held.member?, member]
  rfl

namespace Expansion

variable {document : Document} {path : String} {binding : Binding} {position : Nat}

theorem dropTriggers_eq (wellFormed : document.WellFormed) {copy : Tree}
    (holds : document.Holds copy) :
    dropTriggers document copy.number path =
      (copy.triggers path).foldl Document.removeNode document := by
  rw [dropTriggers, wellFormed.qualifiers_eq holds, List.filter_map, Tree.triggers]
  refine congrArg (fun found => (List.map Tree.number found).foldl Document.removeNode document)
    (List.filter_congr fun qualifier listed => ?_)
  rw [Function.comp_apply, Document.qualifierValue?,
    (holds.of_mem_preorder (Tree.mem_preorder_of_qualifier listed)).stringMember?]

theorem numberShortName_eq {copy : Tree} (holds : document.Holds copy) :
    numberShortName document copy.number position =
      .ok (document.writeTexts (copy.shortNames position)) := by
  rw [numberShortName, holds.stringMember?, Tree.shortNames]
  cases found : copy.stringMember? Key.idShort with
  | none =>
      cases member : copy.member? Key.idShort with
      | none => rfl
      | some child =>
          rw [Tree.stringMember?, member, Option.bind_some] at found
          cases child with
          | scalar number value =>
              cases value with
              | string text => cases found
              | null => rfl
              | bool value => rfl
              | number value => rfl
          | array number elements => rfl
          | object number members => rfl
  | some name =>
      obtain ⟨number, member⟩ := Tree.exists_scalar_of_stringMember? found
      have recorded : document.member? Key.idShort copy.number = some number := by
        rw [holds.member?, member]
        rfl
      rw [member]
      dsimp only
      rw [Document.setMember_of_some _ recorded]
      rfl

theorem member?_replaceValue_text (wellFormed : document.WellFormed) {node : NodeId}
    {value : Scalar} (present : node < document.size)
    (recorded : document.content node = .scalar value) (text key : String) (other : NodeId) :
    (document.replaceValue node (.text text)).member? key other = document.member? key other := by
  rw [Document.member?, (wellFormed.writeText present recorded text).2.2.2.1, Document.member?]
  by_cases same : other = node
  · rw [if_pos same, same, recorded]
  · rw [if_neg same]

theorem writePaths_eq (wellFormed : document.WellFormed)
    (entries : List (NodeId × NodeId × String))
    (values : ∀ entry ∈ entries, document.member? Key.value entry.1 = some entry.2.1 ∧
      entry.2.1 < document.size ∧ ∃ value, document.content entry.2.1 = .scalar value) :
    writePaths document (entries.map fun entry => (entry.1, entry.2.2)) =
      .ok (document.writeTexts (entries.map Prod.snd)) := by
  induction entries generalizing document with
  | nil => rfl
  | cons entry rest ih =>
      obtain ⟨qualifier, node, text⟩ := entry
      obtain ⟨member, present, value, recorded⟩ :=
        values (qualifier, node, text) (List.mem_cons_self ..)
      obtain ⟨first, size, _, contents, _⟩ := wellFormed.writeText present recorded text
      have further := ih first fun entry inside => by
        obtain ⟨entryMember, entryPresent, old, entryRecorded⟩ :=
          values entry (List.mem_cons_of_mem _ inside)
        rw [member?_replaceValue_text wellFormed present recorded, size, contents]
        refine ⟨entryMember, entryPresent, ?_⟩
        split
        · exact ⟨_, rfl⟩
        · exact ⟨old, entryRecorded⟩
      rw [List.map_cons, writePaths, Document.setMember_of_some _ member]
      exact further

theorem boundPaths_eq (wellFormed : document.WellFormed) {copy : Tree}
    (holds : document.Holds copy) :
    boundPaths document copy.number binding position =
      (copy.boundTexts binding position).map fun entry => (entry.1, entry.2.2) := by
  rw [boundPaths, wellFormed.indexedQualifiers_eq holds, List.filterMap_map, Tree.boundTexts,
    List.map_filterMap]
  refine List.filterMap_congr fun qualifier listed => ?_
  have held := holds.of_mem_preorder (Tree.mem_preorder_of_qualifier listed)
  rw [Function.comp_apply, Document.qualifierValue?, held.stringMember?, Tree.boundText]
  cases member : qualifier.member? Key.value with
  | none => rw [Tree.stringMember?, member]; rfl
  | some child =>
      rw [Tree.stringMember?, member, Option.bind_some]
      cases child with
      | scalar number value =>
          cases value with
          | string text =>
              dsimp only [Tree.string?]
              split <;> rfl
          | null => rfl
          | bool value => rfl
          | number value => rfl
      | array number elements => rfl
      | object number members => rfl

/-- Preparing a copy never fails, changes the copy as a tree, and nothing apart from it. -/
theorem prepareCopy_ok (wellFormed : document.WellFormed) {copy : Tree}
    (holds : document.Holds copy) :
    ∃ edited, prepareCopy document copy.number path binding position = .ok edited ∧
      edited.WellFormed ∧ edited.size = document.size ∧
      edited.parent? copy.number = document.parent? copy.number ∧
      edited.Holds (copy.prepared path binding position) ∧
      ∀ other : Tree, document.Holds other → List.Disjoint copy.numbers other.numbers →
        edited.Holds other := by
  have outside := holds.number_not_mem_triggers path
  obtain ⟨droppedWF, droppedSize, droppedLinks, droppedTrees⟩ :=
    wellFormed.removeNodes (copy.triggers path)
  generalize dropped : (copy.triggers path).foldl Document.removeNode document = pruning at *
  have prunedHolds : pruning.Holds (copy.pruned path) := droppedTrees copy holds outside
  obtain ⟨numberedWF, numberedSize, numberedLinks, numberedTrees⟩ :=
    droppedWF.writeTexts _ (prunedHolds.scalar_of_mem_shortNames position)
  have numberedHolds := numberedTrees _ prunedHolds
  have paths := numberedHolds.scalar_of_mem_boundTexts binding position
  obtain ⟨boundWF, boundSize, boundLinks, boundTrees⟩ :=
    numberedWF.writeTexts
      ((((copy.pruned path).numbered position).boundTexts binding position).map Prod.snd)
      (by
        intro entry inside
        obtain ⟨whole, listed, rfl⟩ := List.mem_map.mp inside
        exact (paths whole listed).2)
  have top : (copy.pruned path).number = copy.number := Tree.number_without ..
  have numberedTop : ((copy.pruned path).numbered position).number = copy.number :=
    (Tree.number_retext ..).trans top
  refine ⟨_, ?_, boundWF, boundSize.trans (numberedSize.trans droppedSize), ?_,
    boundTrees _ numberedHolds, ?_⟩
  · rw [prepareCopy, dropTriggers_eq wellFormed holds, dropped, ← top,
      numberShortName_eq prunedHolds, top, ← numberedTop]
    change writePaths _ (boundPaths _ _ binding position) = _
    have bindings : boundPaths (pruning.writeTexts ((copy.pruned path).shortNames position))
        ((copy.pruned path).numbered position).number binding position =
          (((copy.pruned path).numbered position).boundTexts binding position).map fun entry =>
            (entry.1, entry.2.2) := boundPaths_eq numberedWF numberedHolds
    rw [bindings]
    exact writePaths_eq numberedWF _ paths
  · rw [boundLinks, numberedLinks, droppedLinks _ outside]
  · intro other otherHolds apart
    have first := droppedTrees other otherHolds fun inside =>
      apart (Tree.triggers_subset path copy inside) other.number_mem_numbers
    rw [Tree.without_of_disjoint fun number inside shared =>
      apart (Tree.triggers_subset path copy inside) shared] at first
    have prunedSubset : (copy.pruned path).numbers ⊆ copy.numbers :=
      Tree.numbers_without_subset _ copy
    have second := numberedTrees other first
    rw [Tree.retext_of_disjoint] at second
    · have third := boundTrees other second
      rwa [Tree.retext_of_disjoint] at third
      intro number inside shared
      obtain ⟨entry, listed, rfl⟩ := List.mem_map.mp inside
      obtain ⟨whole, inTexts, rfl⟩ := List.mem_map.mp listed
      have within := Tree.mem_numbers_of_mem_boundTexts inTexts
      rw [Tree.numbered, Tree.numbers_retext] at within
      exact apart (prunedSubset within) shared
    · intro number inside shared
      obtain ⟨entry, listed, rfl⟩ := List.mem_map.mp inside
      exact apart (prunedSubset (Tree.mem_numbers_of_mem_shortNames listed)) shared

/-- A prepared copy of the owner stands in new nodes, unlinked; all else stays as it is. -/
theorem prepareClone_ok (wellFormed : document.WellFormed) {owner : Tree}
    (ownerHolds : document.Holds owner) (path : String) (binding : Binding) (position : Nat) :
    ∃ (prepared : Document) (copy : Tree),
      (document.deepClone owner.number).2 = copy.number ∧
      prepareCopy (document.deepClone owner.number).1 copy.number path binding position =
        .ok prepared ∧
      Tree.IsCopy document.size path binding position owner copy ∧
      prepared.WellFormed ∧ document.size ≤ prepared.size ∧ prepared.Holds copy ∧
      prepared.parent? copy.number = none ∧ copy.number ≠ Document.root ∧
      (∀ number ∈ copy.numbers, document.size ≤ number) ∧
      ∀ other : Tree, document.Holds other → prepared.Holds other := by
  have clonedWF := wellFormed.insert owner.toJson
  obtain ⟨cloneHolds, detached⟩ := Document.holds_insert document none owner.toJson
  have clonedSize := @Document.size_insert document none owner.toJson
  have numbers := Tree.numbers_ofJson document.size owner.toJson
  have stays : ∀ other : Tree, document.Holds other →
      (document.insert none owner.toJson).1.Holds other :=
    fun other otherHolds => otherHolds.insert none owner.toJson
  have cloneNumber : (Tree.ofJson document.size owner.toJson).number = document.size :=
    Tree.number_place ..
  have cloned : document.deepClone owner.number =
      ((document.insert none owner.toJson).1, document.size) := by
    rw [Document.deepClone, wellFormed.nodeToJson_eq ownerHolds]
    rfl
  generalize clone : Tree.ofJson document.size owner.toJson = fresh at *
  generalize (document.insert none owner.toJson).1 = longer at *
  obtain ⟨prepared, done, preparedWF, preparedSize, link, copyHolds, frame⟩ :=
    @prepareCopy_ok longer path binding position clonedWF fresh cloneHolds
  have copyNumber : (fresh.prepared path binding position).number = document.size := by
    rw [Tree.number_prepared, cloneNumber]
  have isNew : ∀ number ∈ fresh.numbers, document.size ≤ number := by
    intro number inside
    rw [numbers] at inside
    exact (List.mem_range'_1.mp inside).1
  refine ⟨prepared, fresh.prepared path binding position, ?_, ?_,
    ⟨document.size, Nat.le_refl _, by rw [clone]⟩, preparedWF, ?_, copyHolds, ?_, ?_, ?_, ?_⟩
  · rw [cloned, copyNumber]
  · rw [cloned, copyNumber, ← cloneNumber]
    exact done
  · rw [preparedSize, clonedSize]
    exact Nat.le_add_right _ _
  · rw [copyNumber, ← cloneNumber, link, cloneNumber, detached]
  · rw [copyNumber]
    exact Nat.ne_of_gt wellFormed.rooted
  · exact fun number inside => isNew number (Tree.numbers_prepared_subset _ _ _ _ inside)
  · exact fun other otherHolds => frame other (stays other otherHolds) fun number inside shared =>
      Nat.not_lt.mpr (isNew number inside) (otherHolds.lt_size_of_mem_numbers shared)

theorem addCopy_eq (wellFormed : document.WellFormed) {owner : Tree}
    (ownerHolds : document.Holds owner) (path : String) (binding : Binding) (position : Nat) :
    ∃ (prepared : Document) (copy : Tree),
      (∀ container, addCopy document owner.number container path binding position =
        prepared.appendChild container copy.number) ∧
      Tree.IsCopy document.size path binding position owner copy ∧
      prepared.WellFormed ∧ document.size ≤ prepared.size ∧ prepared.Holds copy ∧
      prepared.parent? copy.number = none ∧ copy.number ≠ Document.root ∧
      (∀ number ∈ copy.numbers, document.size ≤ number) ∧
      ∀ other : Tree, document.Holds other → prepared.Holds other := by
  obtain ⟨prepared, copy, number, done, rest⟩ :=
    prepareClone_ok wellFormed ownerHolds path binding position
  refine ⟨prepared, copy, fun container => ?_, rest⟩
  change (prepareCopy (document.deepClone owner.number).1 (document.deepClone owner.number).2 path
    binding position >>= fun prepared =>
      prepared.appendChild container (document.deepClone owner.number).2) = _
  rw [number, done]
  rfl

/-- A copy of the owner for an entry becomes the last element of an array. -/
theorem addCopy_ok (wellFormed : document.WellFormed) {tree owner : Tree}
    (holds : document.Holds tree) {array : NodeId} {elements : List Tree}
    (within : Tree.array array elements ∈ tree.preorder) (ownerHolds : document.Holds owner) :
    ∃ edited copy, addCopy document owner.number array path binding position = .ok edited ∧
      Tree.IsCopy document.size path binding position owner copy ∧
      edited.WellFormed ∧ document.size ≤ edited.size ∧
      edited.Holds (tree.graft (.array array (elements ++ [copy]))) ∧
      ∀ other : Tree, document.Holds other → array ∉ other.numbers → edited.Holds other := by
  obtain ⟨prepared, copy, adds, isCopy, preparedWF, grows, copyHolds, free, other, isNew, stays⟩ :=
    addCopy_eq wellFormed ownerHolds path binding position
  have arrayHolds := holds.of_mem_preorder within
  have outside : array ∉ copy.numbers := fun inside =>
    Nat.not_lt.mpr (isNew array inside) arrayHolds.present
  have edit :=
    Document.appendChild_editAt preparedWF (stays _ arrayHolds) copyHolds free other outside
  refine ⟨_, copy, ?_, isCopy, edit.wellFormed preparedWF, Nat.le_trans grows edit.grows,
    edit.holds_graft (stays tree holds), fun remaining remainingHolds apart =>
      edit.holds_of_not_mem (stays remaining remainingHolds) apart⟩
  rw [adds]
  exact Document.appendChild_eq free other (stays _ arrayHolds).content

theorem array_of_addCopy (wellFormed : document.WellFormed) {container owner : Tree}
    (holds : document.Holds container) (ownerHolds : document.Holds owner) {edited : Document}
    (done : addCopy document owner.number container.number path binding position = .ok edited) :
    ∃ number elements, container = .array number elements := by
  obtain ⟨prepared, copy, adds, _, _, _, _, _, _, _, stays⟩ :=
    addCopy_eq wellFormed ownerHolds path binding position
  rw [adds, Document.appendChild, (stays container holds).content] at done
  cases container with
  | array number elements => exact ⟨number, elements, rfl⟩
  | scalar number value =>
      split at done
      · cases done
      · cases done
  | object number members =>
      split at done
      · cases done
      · cases done

/-- Copies of the owner for entries in a row become the last elements of an array. -/
theorem addCopies_ok (wellFormed : document.WellFormed) {tree owner : Tree}
    (holds : document.Holds tree) {array : NodeId} {elements : List Tree}
    (within : Tree.array array elements ∈ tree.preorder) (ownerHolds : document.Holds owner)
    (apart : array ∉ owner.numbers) (more : Nat) :
    ∃ edited copies, addCopies document owner.number array path binding position more =
        .ok edited ∧
      copies.length = more ∧
      (∀ (index : Nat) (copy : Tree), copies[index]? = some copy →
        Tree.IsCopy document.size path binding (position + index) owner copy) ∧
      edited.WellFormed ∧ document.size ≤ edited.size ∧
      edited.Holds (tree.graft (.array array (elements ++ copies))) ∧
      ∀ other : Tree, document.Holds other → array ∉ other.numbers → edited.Holds other := by
  induction more generalizing document tree elements position with
  | zero =>
      refine ⟨document, [], rfl, rfl, nofun, wellFormed, Nat.le_refl _, ?_, fun _ kept _ => kept⟩
      rw [List.append_nil, holds.graft_self within]
      exact holds
  | succ more ih =>
      obtain ⟨longer, copy, done, isCopy, longerWF, grows, longerHolds, frame⟩ :=
        @addCopy_ok document path binding position wellFormed tree owner holds array elements within
          ownerHolds
      have inside : array ∈ tree.numbers := Tree.mem_numbers_of_mem_preorder within
      obtain ⟨edited, copies, rest, length, areCopies, editedWF, growsFurther, editedHolds,
        further⟩ := @ih longer (position + 1) longerWF _ longerHolds _
          (Tree.mem_preorder_graft inside) (frame owner ownerHolds apart)
      refine ⟨edited, copy :: copies, ?_, by rw [List.length_cons, length], ?_, editedWF,
        Nat.le_trans grows growsFurther, ?_,
        fun other otherHolds outside => further other (frame other otherHolds outside) outside⟩
      · rw [addCopies, done]
        exact rest
      · intro index found present
        cases index with
        | zero =>
            cases present
            exact isCopy
        | succ index =>
            obtain ⟨first, low, same⟩ := areCopies index found present
            refine ⟨first, Nat.le_trans grows low, ?_⟩
            rw [same, Nat.add_assoc, Nat.add_comm 1]
      · have once : (tree.graft (.array array (elements ++ [copy]))).graft
            (.array array (elements ++ [copy] ++ copies)) =
              tree.graft (.array array (elements ++ [copy] ++ copies)) := Tree.graft_graft rfl
        rw [once, List.append_assoc] at editedHolds
        exact editedHolds

end Expansion

end TemplateFill
