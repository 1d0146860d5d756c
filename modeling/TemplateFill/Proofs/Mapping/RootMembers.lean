import TemplateFill.Proofs.Mapping.Origins
import TemplateFill.Proofs.Mapping.Passes

/-!
The members of the root.

Repeating collections can take members from the root, and writing values can give it one, but a text
that stands in the root under another key than `type` and `value` is there after both, and no member
under such a key comes in. So what is written over the root before and after is found in the result.
-/

namespace TemplateFill

theorem memberOf?_filter_of_keep {α : Type} {keep : String × α → Bool} {key : String} {member : α}
    {members : List (String × α)} (found : memberOf? key members = some member)
    (kept : keep (key, member) = true) : memberOf? key (members.filter keep) = some member := by
  obtain ⟨before, after, rfl, others⟩ := memberOf?_eq_some_iff.mp found
  rw [List.filter_append, List.filter_cons_of_pos kept]
  apply memberOf?_eq_some_iff.mpr
  refine ⟨before.filter keep, after.filter keep, rfl, ?_⟩
  intro other inside
  exact others other (List.mem_of_mem_filter inside)

theorem isSome_memberOf?_of_filter {α : Type} {keep : String × α → Bool} {key : String}
    {members : List (String × α)} (found : (memberOf? key (members.filter keep)).isSome = true) :
    (memberOf? key members).isSome = true := by
  obtain ⟨member, present⟩ := Option.isSome_iff_exists.mp found
  have inside := List.mem_of_mem_filter (mem_of_memberOf? present)
  cases absent : memberOf? key members with
  | some other => rfl
  | none =>
      have missing := Document.memberOf?_eq_none_iff.mp absent
      exact absurd (List.mem_map_of_mem inside) missing

/-- What keeps a member of the root under a key: a text stays, and no member comes in. -/
structure Document.KeepsMember (key : String) (before after : Document) : Prop where
  text : ∀ text, before.stringMember? key root = some text →
    after.stringMember? key root = some text
  present : (after.member? key root).isSome = true → (before.member? key root).isSome = true

namespace Document

variable {document edited first second third : Document} {key : String}

theorem KeepsMember.refl (key : String) (document : Document) : KeepsMember key document document :=
  ⟨fun _ found => found, id⟩

theorem KeepsMember.trans (early : KeepsMember key first second)
    (late : KeepsMember key second third) : KeepsMember key first third :=
  { text := fun text found => late.text text (early.text text found)
    present := fun found => early.present (late.present found) }

theorem WellFormed.keepsMember_setMember (wellFormed : document.WellFormed)
    {object member : NodeId} {written : String} {value : Json}
    (done : document.setMember object written value = .ok (edited, member))
    (other : object = root → key ≠ written) : KeepsMember key document edited := by
  have write := wellFormed.memberWrite done
  have notPlace : ∀ {node : NodeId}, node < document.size →
      (document.parent? node = some object → document.member? written object ≠ some node) →
      node ≠ member := by
    intro node present apart same
    rcases write.place with ⟨found, link⟩ | ⟨_, fresh⟩
    · exact apart (same ▸ link) (same ▸ found)
    · rw [same, fresh] at present
      exact Nat.lt_irrefl _ present
  have rootApart : root ≠ member := by
    apply notPlace wellFormed.rooted
    intro link
    exact absurd rfl (wellFormed.ne_root link)
  have members : edited.member? key root = document.member? key root := by
    by_cases here : object = root
    · subst here
      exact write.otherMembers key (other rfl)
    · have kept := write.contents root wellFormed.rooted (Ne.symm here) rootApart
      rw [member?, member?, kept]
  refine ⟨?_, fun found => by rwa [members] at found⟩
  intro text found
  unfold stringMember? at found ⊢
  rw [members]
  obtain ⟨node, present, isText⟩ := Option.bind_eq_some_iff.mp found
  have link := wellFormed.parent?_of_member? present
  have notObject : node ≠ object := by
    rintro rfl
    obtain ⟨listed, recorded⟩ := exists_members_of_setMember done
    rw [string?, recorded] at isText
    cases isText
  have apart : node ≠ member := by
    apply notPlace (lt_size_of_parent? link)
    intro above isValue
    rw [link] at above
    cases above
    exact other rfl (wellFormed.member?_inj present isValue)
  rw [present, Option.bind_some, string?,
    write.contents node (lt_size_of_parent? link) notObject apart]
  exact isText

end Document

/-! ### Rounds -/

namespace Expansion

variable {context after : Context} {tree container owner list qualifier : Tree} {path key : String}
  {entries : List Json} {copies : List Tree}

theorem Expands.member?_top (key : String) (holds : context.working.Holds tree)
    (expands : Expands context after tree container owner list qualifier path entries copies) :
    (∀ number text, tree.member? key = some (.scalar number (.string text)) →
      (tree.graft (container.exchange owner.number copies)).member? key =
        some (.scalar number (.string text))) ∧
      (((tree.graft (container.exchange owner.number copies)).member? key).isSome = true →
        (tree.member? key).isSome = true) := by
  have containerHolds := holds.of_mem_preorder expands.within
  have ownerHolds := containerHolds.of_mem_children expands.directly
  have notScalar : ∀ number value, container ≠ .scalar number value := by
    rintro number value rfl
    cases expands.directly
  by_cases here : tree.number = container.number
  · have same := holds.unique containerHolds here
    subst same
    rw [Tree.graft_of_eq (Tree.number_exchange ..).symm, Tree.member?_exchange]
    cases tree with
    | scalar number value => exact ⟨nofun, nofun⟩
    | array number elements => exact ⟨nofun, nofun⟩
    | object number members =>
        refine ⟨?_, isSome_memberOf?_of_filter⟩
        intro number text found
        apply memberOf?_filter_of_keep found
        apply bne_iff_ne.mpr
        intro same
        have held := holds.of_mem_children (Tree.mem_children_of_member? found)
        have isOwner := ownerHolds.unique held same.symm
        have member := expands.member
        rw [isOwner] at member
        cases member
  · rw [Tree.graft_of_ne (by rwa [Tree.number_exchange]), Tree.member?_mapChildren]
    refine ⟨?_, fun found => by rwa [Option.isSome_map] at found⟩
    intro number text found
    rw [found, Option.map_some, Tree.graft_of_not_mem]
    intro inside
    rw [Tree.number_exchange] at inside
    have held := holds.of_mem_children (Tree.mem_children_of_member? found)
    rcases Tree.mem_numbers_iff.mp inside with same | ⟨child, impossible, _⟩
    · exact notScalar _ _ (containerHolds.unique held same)
    · cases impossible

theorem keepsMember_of_holds {before after : Document} {source image : Tree}
    (holds : before.Holds source) (top : source.number = Document.root)
    (afterHolds : after.Holds image) (afterTop : image.number = Document.root)
    (texts : ∀ number text, source.member? key = some (.scalar number (.string text)) →
      image.stringMember? key = some text)
    (present : (image.member? key).isSome = true → (source.member? key).isSome = true) :
    before.KeepsMember key after := by
  constructor
  · intro text found
    rw [← top, holds.stringMember?] at found
    obtain ⟨number, member⟩ := Tree.exists_scalar_of_stringMember? found
    rw [← afterTop, afterHolds.stringMember?]
    exact texts number text member
  · intro found
    rw [← afterTop, afterHolds.member?, Option.isSome_map] at found
    rw [← top, holds.member?, Option.isSome_map]
    exact present found

theorem keepsMember_of_round (key : String) (wellFormed : context.working.WellFormed)
    (done : round context = .ok (some after)) :
    after.working.WellFormed ∧ context.working.KeepsMember key after.working := by
  obtain ⟨tree, top, holds⟩ := wellFormed.grounded wellFormed.rooted
  obtain ⟨container, owner, list, qualifier, path, entries, copies, expands⟩ :=
    exists_expands wellFormed holds top done
  obtain ⟨texts, present⟩ := expands.member?_top key holds
  refine ⟨expands.wellFormed, keepsMember_of_holds holds top expands.holds ?_ ?_ present⟩
  · rw [Tree.number_graft, top]
  · intro number text found
    rw [Tree.stringMember?, texts number text found]
    rfl

theorem Rounds.keepsMember {before : Context} (rounds : Rounds before after) (key : String)
    (wellFormed : before.working.WellFormed) :
    after.working.WellFormed ∧ before.working.KeepsMember key after.working := by
  induction rounds with
  | refl => exact ⟨wellFormed, .refl key _⟩
  | tail _ last ih =>
      obtain ⟨between, early⟩ := ih
      obtain ⟨behind, late⟩ := keepsMember_of_round key between last
      exact ⟨behind, early.trans late⟩

theorem keepsMember_restoreTags {document : Document} (wellFormed : document.WellFormed)
    (other : key ≠ Key.type) :
    (restoreTags document).WellFormed ∧ document.KeepsMember key (restoreTags document) := by
  obtain ⟨tree, top, holds⟩ := wellFormed.grounded wellFormed.rooted
  obtain ⟨texts, restoredWF, restoredHolds, restores⟩ := restoreTags_holds wellFormed holds top
  refine ⟨restoredWF, keepsMember_of_holds holds top restoredHolds ?_ ?_ ?_⟩
  · rw [Tree.number_retext, top]
  · intro number text found
    rw [restores.others tree tree.self_mem_preorder key fun same => absurd same other,
      Tree.stringMember?, found]
    rfl
  · intro found
    rwa [Tree.member?_retext, Option.isSome_map] at found

end Expansion

/-! ### Passes -/

namespace Context

variable {context after : Context} {key : String}

theorem keepsMember_expandCollections (done : context.expandCollections = .ok after)
    (wellFormed : context.working.WellFormed) (other : key ≠ Key.type) :
    after.working.WellFormed ∧ context.working.KeepsMember key after.working := by
  obtain ⟨last, rounds, ⟨ran, _⟩ | ⟨failure, failed, _⟩⟩ := Expansion.exists_last wellFormed
  · rw [expandCollections, ran] at done
    cases done
    obtain ⟨between, early⟩ := rounds.keepsMember key wellFormed
    obtain ⟨behind, late⟩ := Expansion.keepsMember_restoreTags between other
    exact ⟨behind, early.trans late⟩
  · rw [expandCollections, failed] at done
    cases done

theorem keepsMember_fill {qualifier : NodeId} (done : Scalars.fill context qualifier = .ok after)
    (wellFormed : context.working.WellFormed) (other : key ≠ Key.value) :
    after.working.WellFormed ∧ context.working.KeepsMember key after.working := by
  obtain ⟨owner, kind, path, ensured, _, _, _, _, first, second⟩ := Scalars.fill_ok done
  have early : ensured.WellFormed ∧ context.working.KeepsMember key ensured := by
    rcases first with rfl | ⟨_, place, written⟩
    · exact ⟨wellFormed, .refl key _⟩
    · exact ⟨(wellFormed.memberWrite written).wellFormed,
        wellFormed.keepsMember_setMember written fun _ => other⟩
  rcases second with ⟨_, same⟩ | ⟨node, place, _, written⟩
  · rwa [same]
  · exact ⟨(early.1.memberWrite written).wellFormed,
      early.2.trans (early.1.keepsMember_setMember written fun _ => other)⟩

theorem keepsMember_fillEach {qualifiers : List NodeId}
    (done : Scalars.fillEach qualifiers context = .ok after)
    (wellFormed : context.working.WellFormed) (other : key ≠ Key.value) :
    after.working.WellFormed ∧ context.working.KeepsMember key after.working := by
  induction qualifiers generalizing context with
  | nil =>
      cases done
      exact ⟨wellFormed, .refl key _⟩
  | cons qualifier rest ih =>
      obtain ⟨next, ⟨_, filled⟩ | ⟨_, rfl⟩, remaining⟩ := (Scalars.fillEach_cons ..).mp done
      · obtain ⟨between, early⟩ := keepsMember_fill filled wellFormed other
        obtain ⟨behind, late⟩ := ih remaining between
        exact ⟨behind, early.trans late⟩
      · exact ih remaining wellFormed

end Context

end TemplateFill
