import TemplateFill.Proofs.Document.Renumbering
import TemplateFill.Proofs.Mapping.CopyValues
import TemplateFill.Proofs.Mapping.Mappings

/-!
Trees that mirror others.

A change of a tree may drop nodes, number nodes anew and write texts. As long as every node that is
left has its members, its children and its type from a node of the old tree, every qualifier of the
new tree has its tag from a qualifier of the old one.
-/

namespace TemplateFill

namespace Tree

/-- What is there in an image is there in what it mirrors: members, children, and types that are
texts. -/
structure Mirrors (mirrors : Tree → Tree → Prop) : Prop where
  member : ∀ {image source : Tree} {key : String} {member : Tree}, mirrors image source →
    image.member? key = some member →
      ∃ original, source.member? key = some original ∧ mirrors member original
  child : ∀ {image source child : Tree}, mirrors image source → child ∈ image.children →
    ∃ original ∈ source.children, mirrors child original
  type : ∀ {image source : Tree} {tag : String}, mirrors image source →
    image.stringMember? Key.type = some tag → source.stringMember? Key.type = some tag

namespace Mirrors

variable {mirrors later : Tree → Tree → Prop} {image source : Tree}

theorem preorder (isMirror : Mirrors mirrors) (top : mirrors image source) {below : Tree}
    (within : below ∈ image.preorder) : ∃ original ∈ source.preorder, mirrors below original := by
  induction image using induction generalizing source with
  | step image ih =>
      rcases mem_preorder_iff.mp within with same | ⟨child, directly, deeper⟩
      · exact ⟨source, source.self_mem_preorder, same ▸ top⟩
      · obtain ⟨old, oldIn, lower⟩ := isMirror.child top directly
        obtain ⟨original, inside, found⟩ := ih child directly lower deeper
        exact ⟨original, preorder_trans (child_mem_preorder oldIn) inside, found⟩

/-- Every qualifier of an image mirrors one with the same tag. -/
theorem qualifier (isMirror : Mirrors mirrors) (top : mirrors image source) {tag : String}
    {found : Tree} (inside : found ∈ view.qualifiersBelow (view.hasTag tag) image) :
    ∃ original ∈ view.qualifiersBelow (view.hasTag tag) source, mirrors found original := by
  obtain ⟨owner, within, list, member, directly, tagged⟩ := mem_qualifiersBelow_iff.mp inside
  obtain ⟨oldOwner, ownerIn, ownerMirror⟩ := isMirror.preorder top within
  obtain ⟨oldList, oldMember, listMirror⟩ := isMirror.member ownerMirror member
  obtain ⟨original, originalIn, mirrored⟩ := isMirror.child listMirror directly
  refine ⟨original, mem_qualifiersBelow_iff.mpr ?_, mirrored⟩
  have sameTag := isMirror.type mirrored (hasTag_iff.mp tagged)
  exact ⟨oldOwner, ownerIn, oldList, oldMember, originalIn, hasTag_iff.mpr sameTag⟩

theorem comp (isMirror : Mirrors mirrors) (isLater : Mirrors later) :
    Mirrors fun image source => ∃ middle, later image middle ∧ mirrors middle source := by
  constructor
  · rintro image source key member ⟨middle, upper, lower⟩ found
    obtain ⟨between, foundBetween, memberUpper⟩ := isLater.member upper found
    obtain ⟨original, foundSource, memberLower⟩ := isMirror.member lower foundBetween
    exact ⟨original, foundSource, between, memberUpper, memberLower⟩
  · rintro image source child ⟨middle, upper, lower⟩ inside
    obtain ⟨between, insideBetween, childUpper⟩ := isLater.child upper inside
    obtain ⟨original, insideSource, childLower⟩ := isMirror.child lower insideBetween
    exact ⟨original, insideSource, between, childUpper, childLower⟩
  · rintro image source tag ⟨middle, upper, lower⟩ tagged
    exact isMirror.type lower (isLater.type upper tagged)

end Mirrors

/-! ### Changes that mirror -/

variable {tree : Tree}

theorem member?_of_filterChildren {keep : Tree → Bool} {key : String} {member : Tree}
    (distinct : tree.KeysDistinct) (found : (tree.filterChildren keep).member? key = some member) :
    tree.member? key = some member ∧ keep member = true := by
  cases tree with
  | scalar number value => cases found
  | array number elements => cases found
  | object number members =>
      obtain ⟨present, kept⟩ := List.mem_filter.mp (mem_of_memberOf? found)
      have keys := keysDistinct_object.mp (keysDistinct_iff.mp distinct).1
      exact ⟨Document.memberOf?_of_mem keys present, kept⟩

theorem mirrors_without (gone : NodeId → Bool) :
    Mirrors fun image source => source.KeysDistinct ∧ image = source.without gone := by
  have members : ∀ {source : Tree} {key : String} {member : Tree}, source.KeysDistinct →
      (source.without gone).member? key = some member →
        ∃ original, source.member? key = some original ∧ member = original.without gone := by
    intro source key member distinct found
    rw [without_eq, member?_mapChildren] at found
    obtain ⟨original, kept, rfl⟩ := Option.map_eq_some_iff.mp found
    exact ⟨original, (member?_of_filterChildren distinct kept).1, rfl⟩
  constructor
  · rintro image source key member ⟨distinct, rfl⟩ found
    obtain ⟨original, present, rfl⟩ := members distinct found
    have below := (keysDistinct_iff.mp distinct).2 original (mem_children_of_member? present)
    exact ⟨original, present, below, rfl⟩
  · rintro image source child ⟨distinct, rfl⟩ inside
    rw [children_without] at inside
    obtain ⟨original, kept, rfl⟩ := List.mem_map.mp inside
    have present := (List.mem_filter.mp kept).1
    exact ⟨original, present, (keysDistinct_iff.mp distinct).2 original present, rfl⟩
  · rintro image source tag ⟨distinct, rfl⟩ tagged
    obtain ⟨number, member⟩ := exists_scalar_of_stringMember? tagged
    obtain ⟨original, found, same⟩ := members distinct member
    have text : original.string? = some tag := by
      rw [← string?_without gone, ← same]
      rfl
    rw [stringMember?, found]
    exact text

theorem mirrors_retext {texts : NodeId → Option String}
    (types : ∀ node ∈ tree.preorder,
      (node.retext texts).stringMember? Key.type = node.stringMember? Key.type) :
    Mirrors fun image source => source ∈ tree.preorder ∧ image = source.retext texts := by
  constructor
  · rintro image source key member ⟨within, rfl⟩ found
    rw [member?_retext] at found
    obtain ⟨original, present, rfl⟩ := Option.map_eq_some_iff.mp found
    have below := child_mem_preorder (mem_children_of_member? present)
    exact ⟨original, present, preorder_trans within below, rfl⟩
  · rintro image source child ⟨within, rfl⟩ inside
    rw [children_retext] at inside
    obtain ⟨original, present, rfl⟩ := List.mem_map.mp inside
    exact ⟨original, present, preorder_trans within (child_mem_preorder present), rfl⟩
  · rintro image source tag ⟨within, rfl⟩ tagged
    rwa [types source within] at tagged

theorem mirrors_renumber (rename : NodeId → NodeId) :
    Mirrors fun image source => source ∈ tree.preorder ∧ image = source.renumber rename := by
  constructor
  · rintro image source key member ⟨within, rfl⟩ found
    rw [member?_renumber] at found
    obtain ⟨original, present, rfl⟩ := Option.map_eq_some_iff.mp found
    have below := child_mem_preorder (mem_children_of_member? present)
    exact ⟨original, present, preorder_trans within below, rfl⟩
  · rintro image source child ⟨within, rfl⟩ inside
    rw [children_renumber] at inside
    obtain ⟨original, present, rfl⟩ := List.mem_map.mp inside
    exact ⟨original, present, preorder_trans within (child_mem_preorder present), rfl⟩
  · rintro image source tag ⟨within, rfl⟩ tagged
    rwa [← stringMember?_toJson, toJson_renumber, stringMember?_toJson] at tagged

end Tree

/-- Texts that go to members with other keys keep all types. -/
theorem Document.WellFormed.types_retext {document : Document} {tree : Tree}
    (wellFormed : document.WellFormed) (holds : document.Holds tree)
    (entries : List (NodeId × String))
    (others : ∀ entry ∈ entries, ∃ owner ∈ tree.preorder, ∃ key member, key ≠ Key.type ∧
      owner.member? key = some member ∧ member.number = entry.1) :
    ∀ node ∈ tree.preorder, (node.retext (Tree.textsOf entries)).stringMember? Key.type =
      node.stringMember? Key.type := by
  intro node within
  refine Tree.stringMember?_retext fun member found => Tree.textsOf_of_not_mem fun listed => ?_
  obtain ⟨entry, inside, same⟩ := List.mem_map.mp listed
  obtain ⟨owner, ownerWithin, key, other, different, present, number⟩ := others entry inside
  have equal := (wellFormed.member_inj (holds.of_mem_preorder ownerWithin)
    (holds.of_mem_preorder within) present found (number.trans same)).2
  exact different equal

namespace Tree

/-! ### Copies -/

/-- How a copy mirrors its owner: its nodes are numbered from some number on, each by its place in
the owner. -/
structure CopyMirrors (owner copy : Tree) (mirrors : Tree → Tree → Prop) : Prop where
  isMirror : Mirrors mirrors
  top : mirrors copy owner
  numbers : ∀ image source, mirrors image source → source ∈ owner.preorder ∧
    image.number = copy.number + owner.numbers.idxOf source.number

theorem IsCopy.exists_mirrors {limit : NodeId} {path : String} {binding : Binding} {position : Nat}
    {owner copy : Tree} (isCopy : IsCopy limit path binding position owner copy)
    (distinct : owner.KeysDistinct) (nodup : owner.numbers.Nodup) :
    ∃ mirrors, CopyMirrors owner copy mirrors := by
  obtain ⟨first, _, rfl⟩ := isCopy
  obtain ⟨pruning, prunedWF, prunedHolds⟩ := exists_holds_pruned first owner.toJson path
  obtain ⟨numbering, numberedWF, numberedHolds⟩ :=
    exists_holds_numbered first owner.toJson path position
  have freshDistinct : (ofJson first owner.toJson).KeysDistinct :=
    keysDistinct_place (keysDistinct_toJson.mpr distinct)
  have copyNumber : ((ofJson first owner.toJson).prepared path binding position).number = first :=
    (number_prepared ..).trans (number_place ..)
  have renumbered := ofJson_toJson first nodup
  generalize ofJson first owner.toJson = fresh at *
  have numberedTypes := prunedWF.types_retext prunedHolds ((fresh.pruned path).shortNames position)
      fun entry inside => by
    obtain ⟨name, member⟩ := mem_shortNames inside
    exact ⟨_, self_mem_preorder _, Key.idShort, _, by decide, member, rfl⟩
  have boundTypes := numberedWF.types_retext numberedHolds
      ((((fresh.pruned path).numbered position).boundTexts binding position).map Prod.snd)
      fun entry inside => by
    obtain ⟨whole, listed, rfl⟩ := List.mem_map.mp inside
    obtain ⟨qualifier, found, text, member, _⟩ := mem_boundTexts listed
    exact ⟨qualifier, mem_preorder_of_qualifier found, Key.value, _, by decide, member, rfl⟩
  have fromOwner := @mirrors_renumber owner fun number => first + owner.numbers.idxOf number
  have fromFresh := fromOwner.comp (mirrors_without (fresh.triggers path).contains)
  have fromPruned := fromFresh.comp (mirrors_retext numberedTypes)
  refine ⟨_, ⟨fromPruned.comp (mirrors_retext boundTypes), ?_, ?_⟩⟩
  · exact ⟨(fresh.pruned path).numbered position, ⟨self_mem_preorder _, rfl⟩,
      fresh.pruned path, ⟨self_mem_preorder _, rfl⟩, fresh, ⟨freshDistinct, rfl⟩,
      owner.self_mem_preorder, renumbered⟩
  · rintro image source ⟨third, ⟨_, rfl⟩, second, ⟨_, rfl⟩, original, ⟨_, rfl⟩, within, rfl⟩
    rw [number_retext, number_retext, number_without, number_renumber, copyNumber]
    exact ⟨within, rfl⟩

end Tree

end TemplateFill
