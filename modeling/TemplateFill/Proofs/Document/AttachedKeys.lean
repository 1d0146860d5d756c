import TemplateFill.Proofs.Document.Location

/-!
Distinct keys below the root.

A run works on the attached nodes only. That no object among them has a key twice is kept by every
write of a value without a key twice, whatever the detached nodes hold.
-/

namespace TemplateFill

namespace Tree

theorem KeysDistinct.graft {tree subtree : Tree} (distinct : tree.KeysDistinct)
    (apart : subtree.number ∈ tree.numbers → subtree.KeysDistinct) :
    (tree.graft subtree).KeysDistinct := by
  induction tree using induction with
  | step tree ih =>
      by_cases here : tree.number = subtree.number
      · rw [graft_of_eq here]
        exact apart (here ▸ tree.number_mem_numbers)
      · obtain ⟨top, children⟩ := keysDistinct_iff.mp distinct
        rw [graft_of_ne here, keysDistinct_iff]
        constructor
        · rwa [content_mapChildren _ _ fun child _ => number_graft child subtree]
        · intro child inside
          rw [children_mapChildren] at inside
          obtain ⟨old, directly, rfl⟩ := List.mem_map.mp inside
          exact ih old directly (children old directly) fun deeper =>
            apart (numbers_subset (child_mem_preorder directly) deeper)

end Tree

namespace Document

variable {document edited : Document} {tree subtree : Tree}

def AttachedKeysDistinct (document : Document) : Prop :=
  ∀ node, document.isAttached node = true → (document.content node).KeysDistinct

theorem KeysDistinct.attached (distinct : document.KeysDistinct) :
    document.AttachedKeysDistinct :=
  fun node _ => distinct node

theorem attachedKeysDistinct_iff (wellFormed : document.WellFormed) (holds : document.Holds tree)
    (top : tree.number = root) : document.AttachedKeysDistinct ↔ tree.KeysDistinct := by
  constructor
  · intro distinct below within
    have attached := (wellFormed.isAttached_iff holds top below.number).mpr
      (Tree.mem_numbers_of_mem_preorder within)
    rw [← (holds.of_mem_preorder within).content]
    exact distinct below.number attached
  · intro distinct node attached
    exact holds.content_keysDistinct distinct
      ((wellFormed.isAttached_iff holds top node).mp attached)

theorem WellFormed.isAttached_of_ancestor? (wellFormed : document.WellFormed) {node above : NodeId}
    {levels : Nat} (attached : document.isAttached node = true)
    (found : document.ancestor? node levels = some above) : document.isAttached above = true := by
  obtain ⟨tree, top, holds⟩ := wellFormed.grounded wellFormed.rooted
  rw [wellFormed.isAttached_iff holds top] at attached ⊢
  induction levels generalizing above with
  | zero =>
      cases found
      exact attached
  | succ levels ih =>
      rw [ancestor?_succ] at found
      obtain ⟨below, climbed, link⟩ := Option.bind_eq_some_iff.mp found
      rcases holds.parent_mem (ih climbed) with same | ⟨parent, within, above⟩
      · exact absurd (same.trans top) (wellFormed.ne_root link)
      · rw [link] at above
        cases above
        exact within

namespace AttachedKeysDistinct

theorem of_holds (distinct : document.AttachedKeysDistinct) (wellFormed : document.WellFormed)
    (holds : document.Holds tree) (attached : document.isAttached tree.number = true) :
    tree.KeysDistinct := by
  obtain ⟨whole, top, wholeHolds⟩ := wellFormed.grounded wellFormed.rooted
  have all := (attachedKeysDistinct_iff wellFormed wholeHolds top).mp distinct
  have inside := (wellFormed.isAttached_iff wholeHolds top tree.number).mp attached
  obtain ⟨found, within, same⟩ := Tree.exists_of_mem_numbers inside
  have equal := (wholeHolds.of_mem_preorder within).unique holds same
  intro below deeper
  exact all below (Tree.preorder_trans within (equal ▸ deeper))

theorem editAt (distinct : document.AttachedKeysDistinct) (wellFormed : document.WellFormed)
    (edit : EditAt document edited subtree)
    (apart : document.isAttached subtree.number = true → subtree.KeysDistinct) :
    edited.AttachedKeysDistinct := by
  obtain ⟨tree, top, holds⟩ := wellFormed.grounded wellFormed.rooted
  have before := (attachedKeysDistinct_iff wellFormed holds top).mp distinct
  have editedTop : (tree.graft subtree).number = root := by rw [Tree.number_graft, top]
  rw [attachedKeysDistinct_iff (edit.wellFormed wellFormed) (edit.holds_graft holds) editedTop]
  exact before.graft fun inside =>
    apart ((wellFormed.isAttached_iff holds top subtree.number).mpr inside)

theorem replaceValue (distinct : document.AttachedKeysDistinct) (wellFormed : document.WellFormed)
    {node : NodeId} (present : node < document.size) {value : Json} (apart : value.KeysDistinct) :
    (document.replaceValue node value).AttachedKeysDistinct :=
  distinct.editAt wellFormed (replaceValue_editAt wellFormed present value) fun _ =>
    Tree.keysDistinct_place apart

theorem setMember (distinct : document.AttachedKeysDistinct) (wellFormed : document.WellFormed)
    {object member : NodeId} {key : String} {value : Json} (apart : value.KeysDistinct)
    (done : document.setMember object key value = .ok (edited, member)) :
    edited.AttachedKeysDistinct := by
  obtain ⟨subtree, edit, keeps⟩ := wellFormed.exists_editAt_setMember apart done
  refine distinct.editAt wellFormed edit fun attached => keeps fun old holds same => ?_
  exact distinct.of_holds wellFormed holds (same ▸ attached)

/-- An attached node has a location. It is read as a path that selects that node alone. -/
theorem exists_location (distinct : document.AttachedKeysDistinct)
    (wellFormed : document.WellFormed) {node : NodeId}
    (attached : document.isAttached node = true) :
    ∃ path, document.location? node = some path ∧ (document.PositionsFit node →
      ∃ query, Query.parse path = .ok query ∧ query.select document.view root = [node]) := by
  refine Document.exists_location wellFormed attached fun levels above found => ?_
  exact distinct above (wellFormed.isAttached_of_ancestor? attached found)

end AttachedKeysDistinct

/-- A well-formed document without a key twice below its root: its locations are paths. -/
structure Sound (document : Document) : Prop where
  wellFormed : document.WellFormed
  keys : document.AttachedKeysDistinct

theorem sound_ofJson {value : Json} (distinct : value.KeysDistinct) : (ofJson value).Sound :=
  ⟨ofJson_wellFormed value, (keysDistinct_ofJson distinct).attached⟩

theorem Sound.replaceValue (sound : document.Sound) {node : NodeId} (present : node < document.size)
    {value : Json} (apart : value.KeysDistinct) : (document.replaceValue node value).Sound :=
  ⟨(replaceValue_editAt sound.wellFormed present value).wellFormed sound.wellFormed,
    sound.keys.replaceValue sound.wellFormed present apart⟩

theorem Sound.setMember (sound : document.Sound) {object member : NodeId} {key : String}
    {value : Json} (apart : value.KeysDistinct)
    (done : document.setMember object key value = .ok (edited, member)) : edited.Sound :=
  ⟨(sound.wellFormed.memberWrite done).wellFormed, sound.keys.setMember sound.wellFormed apart done⟩

end Document

end TemplateFill
