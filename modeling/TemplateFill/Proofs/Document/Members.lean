import TemplateFill.Proofs.Document.Operations

/-!
Writing a member of an object.

A member that is there gets a new value in its place, and one that is not there becomes the last.
Callers need not tell the two cases apart: `MemberWrite` states what holds in both of them.
-/

namespace TemplateFill

namespace Document

variable {document edited : Document} {object member : NodeId} {key : String} {value : Json}

/-- The second document is the first with the member of an object set to a value. -/
structure MemberWrite (document edited : Document) (object : NodeId) (key : String)
    (member : NodeId) (value : Json) : Prop where
  wellFormed : edited.WellFormed
  grows : document.size ≤ edited.size
  place : document.member? key object = some member ∧ document.parent? member = some object ∨
    document.member? key object = none ∧ member = document.size
  found : edited.member? key object = some member
  written : ∃ tree : Tree, tree.number = member ∧ edited.Holds tree ∧ tree.toJson = value ∧
    ∀ number ∈ tree.numbers, number = member ∨ document.size ≤ number
  otherMembers : ∀ other, other ≠ key → edited.member? other object = document.member? other object
  contents : ∀ node < document.size, node ≠ object → node ≠ member →
    edited.content node = document.content node
  keepsLinks : ∀ node parent, document.parent? node = some parent → parent ≠ member →
    edited.parent? node = some parent
  addsNoLinks : ∀ node < document.size, ∀ parent, edited.parent? node = some parent →
    document.parent? node = some parent
  frame : ∀ tree : Tree, document.Holds tree → object ∉ tree.numbers → member ∉ tree.numbers →
    edited.Holds tree

theorem memberOf?_append_of_ne {α : Type} {key other : String} (members : List (String × α))
    (value : α) (different : other ≠ key) :
    memberOf? other (members ++ [(key, value)]) = memberOf? other members := by
  induction members with
  | nil => exact if_neg (Ne.symm different)
  | cons member rest ih =>
      obtain ⟨name, first⟩ := member
      rw [List.cons_append, memberOf?, memberOf?, ih]

theorem memberOf?_append_of_none {α : Type} {key : String} {members : List (String × α)}
    (value : α) (missing : memberOf? key members = none) :
    memberOf? key (members ++ [(key, value)]) = some value := by
  induction members with
  | nil => exact if_pos rfl
  | cons member rest ih =>
      obtain ⟨name, first⟩ := member
      rw [memberOf?] at missing
      rw [List.cons_append, memberOf?]
      split at missing
      · cases missing
      · rename_i different
        rw [if_neg different]
        exact ih missing

/-- An edit of one node takes no old node to a new parent but those that it links itself. -/
theorem EditAt.addsNoLinks {subtree : Tree} (edit : EditAt document edited subtree)
    (kept : ∀ child ∈ subtree.children, document.size ≤ child.number ∨
      document.parent? child.number = some subtree.number) {node parent : NodeId}
    (old : node < document.size) (link : edited.parent? node = some parent) :
    document.parent? node = some parent := by
  by_cases inside : node ∈ subtree.children.map Tree.number
  · obtain ⟨child, directly, rfl⟩ := List.mem_map.mp inside
    rw [edit.held.linked directly] at link
    rcases kept child directly with new | same
    · exact absurd old (Nat.not_lt.mpr new)
    · rw [same, link]
  · rw [edit.links node old inside] at link
    split at link
    · cases link
    · exact link

theorem WellFormed.parent?_of_member? (wellFormed : document.WellFormed)
    (found : document.member? key object = some member) :
    document.parent? member = some object := by
  refine (wellFormed.child ?_).2.2
  rw [Document.member?] at found
  rw [children]
  cases recorded : document.content object with
  | scalar value => rw [recorded] at found; cases found
  | array elements => rw [recorded] at found; cases found
  | object members =>
      rw [recorded] at found
      exact List.mem_map_of_mem (mem_of_memberOf? found)

theorem WellFormed.member?_inj (wellFormed : document.WellFormed) {other : String}
    (found : document.member? key object = some member)
    (foundOther : document.member? other object = some member) : key = other := by
  have distinct := wellFormed.distinct object
  rw [Document.member?] at found foundOther
  rw [children] at distinct
  cases recorded : document.content object with
  | scalar value => rw [recorded] at found; cases found
  | array elements => rw [recorded] at found; cases found
  | object members =>
      rw [recorded] at found foundOther distinct
      exact congrArg Prod.fst (List.inj_on_of_nodup_map distinct (mem_of_memberOf? found)
        (mem_of_memberOf? foundOther) rfl)

private theorem memberWrite_of_some (wellFormed : document.WellFormed) (value : Json)
    (found : document.member? key object = some member) :
    MemberWrite document (document.replaceValue member value) object key member value := by
  have link := wellFormed.parent?_of_member? found
  have present := lt_size_of_parent? link
  have edit := replaceValue_editAt wellFormed present value
  have apart : object ≠ member := by
    rintro rfl
    exact wellFormed.ancestor?_ne_self object 0 (by rw [ancestor?, link]; rfl)
  have recorded : (document.replaceValue member value).content object = document.content object :=
    content_replaceValue_of_ne (wellFormed.parent_present link) apart
  have sameMembers : ∀ other, (document.replaceValue member value).member? other object =
      document.member? other object := by
    intro other
    rw [Document.member?, recorded, ← Document.member?]
  refine
    { wellFormed := edit.wellFormed wellFormed
      grows := edit.grows
      place := Or.inl ⟨found, link⟩
      found := (sameMembers key).trans found
      written := ⟨_, Tree.number_place .., edit.held, Tree.toJson_place .., ?_⟩
      otherMembers := fun other _ => sameMembers other
      contents := ?_
      keepsLinks := ?_
      addsNoLinks := fun node old parent above => edit.addsNoLinks ?_ old above
      frame := ?_ }
  · intro number inside
    rw [Tree.numbers_place, List.mem_cons, List.mem_range'_1] at inside
    exact inside.imp_right And.left
  · intro node old _ different
    exact edit.contents node old (by rwa [Tree.number_place])
  · intro node parent above different
    exact edit.parent?_of_ne above (by rwa [Tree.number_place])
  · exact fun child inside => Or.inl (Tree.le_number_of_mem_place inside)
  · intro tree holds _ outside
    exact edit.holds_of_not_mem holds (by rwa [Tree.number_place])

private theorem memberWrite_of_none (wellFormed : document.WellFormed)
    {members : List (String × Tree)} (holds : document.Holds (.object object members))
    (value : Json) (missing : document.member? key object = none) :
    MemberWrite document
      (document.appendMember object (members.map fun member => (member.1, member.2.number))
        key value)
      object key document.size value := by
  have edit := appendMember_editAt wellFormed holds key value
  have before := holds.member?
  have after := edit.held.member?
  have children : (Tree.object object
      (members ++ [(key, Tree.ofJson document.size value)])).children =
      members.map Prod.snd ++ [Tree.ofJson document.size value] := List.map_append
  have oldMissing : memberOf? key members = none := by
    have none := before key
    rw [Tree.number, missing] at none
    exact (Option.map_eq_none_iff.mp none.symm)
  refine
    { wellFormed := edit.wellFormed wellFormed
      grows := edit.grows
      place := Or.inr ⟨missing, rfl⟩
      found := ?_
      written := ⟨Tree.ofJson document.size value, Tree.number_ofJson .., ?_,
        Tree.toJson_place .., ?_⟩
      otherMembers := ?_
      contents := fun node old different _ => edit.contents node old different
      keepsLinks := ?_
      addsNoLinks := fun node old parent above => edit.addsNoLinks ?_ old above
      frame := fun tree kept outside _ => edit.holds_of_not_mem kept outside }
  · apply (after key).trans
    rw [Tree.member?, memberOf?_append_of_none _ oldMissing, Option.map_some, Tree.number_ofJson]
  · apply edit.held.of_mem_children
    rw [children]
    exact List.mem_append_right _ (List.mem_singleton.mpr rfl)
  · intro number inside
    exact Or.inr (Tree.mem_numbers_ofJson.mp inside).1
  · intro other different
    refine (after other).trans ((before other).trans ?_).symm
    rw [Tree.member?, Tree.member?, memberOf?_append_of_ne _ _ different]
  · intro node parent above _
    by_cases same : parent = object
    · subst same
      obtain ⟨child, directly, rfl⟩ := wellFormed.exists_child holds above
      apply edit.held.linked
      rw [children]
      exact List.mem_append_left _ directly
    · exact edit.parent?_of_ne above same
  · intro child inside
    rw [children] at inside
    rcases List.mem_append.mp inside with old | new
    · exact Or.inr (holds.linked old)
    · rw [List.mem_singleton.mp new, Tree.number_ofJson]
      exact Or.inl (Nat.le_refl _)

theorem WellFormed.memberWrite (wellFormed : document.WellFormed)
    (done : document.setMember object key value = .ok (edited, member)) :
    MemberWrite document edited object key member value := by
  obtain ⟨found, rfl⟩ | ⟨missing, rfl, listed, recorded, rfl⟩ := setMember_cases done
  · exact memberWrite_of_some wellFormed value found
  · obtain ⟨members, holds, rfl⟩ := wellFormed.exists_object recorded
    exact memberWrite_of_none wellFormed holds value missing

theorem exists_members_of_setMember
    (done : document.setMember object key value = .ok (edited, member)) :
    ∃ members, document.content object = .object members := by
  obtain ⟨found, _⟩ | ⟨_, _, listed, recorded, _⟩ := setMember_cases done
  · unfold member? at found
    split at found
    · rename_i members recorded
      exact ⟨members, recorded⟩
    · cases found
  · exact ⟨listed, recorded⟩

/-! ### What a write leaves alone -/

namespace MemberWrite

theorem parent?_ne (write : MemberWrite document edited object key member value) {node : NodeId}
    (old : node < document.size) : edited.parent? node ≠ some member := by
  obtain ⟨tree, rfl, holds, _, fresh⟩ := write.written
  exact write.wellFormed.parent?_ne_of_fresh holds fresh old

theorem object_ne (write : MemberWrite document edited object key member value)
    (before : document.WellFormed) (present : object < document.size) : object ≠ member := by
  rintro rfl
  rcases write.place with ⟨_, link⟩ | ⟨_, same⟩
  · exact before.ancestor?_ne_self object 0 (by rw [ancestor?, link]; rfl)
  · exact Nat.lt_irrefl _ (same ▸ present)

/-- What lies above a node still does if the written member does not lie above it. -/
theorem ancestor? (write : MemberWrite document edited object key member value) {node : NodeId}
    (apart : ∀ levels, document.ancestor? node (levels + 1) ≠ some member) :
    ∀ (levels : Nat) (above : NodeId), document.ancestor? node levels = some above →
      edited.ancestor? node levels = some above := by
  intro levels
  induction levels with
  | zero => exact fun above found => found
  | succ levels ih =>
      intro above found
      have different := apart levels
      rw [found] at different
      rw [ancestor?_succ] at found ⊢
      obtain ⟨below, climbed, link⟩ := Option.bind_eq_some_iff.mp found
      rw [ih below climbed]
      exact write.keepsLinks below above link fun same => different (congrArg some same)

end MemberWrite

/-! ### Links that are lost -/

/-- Old nodes are cut off or stay below their parents. -/
structure LosesLinks (before after : Document) : Prop where
  grows : before.size ≤ after.size
  links : ∀ node < before.size, ∀ parent, after.parent? node = some parent →
    before.parent? node = some parent

namespace LosesLinks

variable {first second third : Document} {node : NodeId}

theorem refl (document : Document) : LosesLinks document document :=
  ⟨Nat.le_refl _, fun _ _ _ link => link⟩

theorem trans (early : LosesLinks first second) (late : LosesLinks second third) :
    LosesLinks first third := by
  refine ⟨Nat.le_trans early.grows late.grows, ?_⟩
  intro node old parent link
  have present := Nat.lt_of_lt_of_le old early.grows
  exact early.links node old parent (late.links node present parent link)

theorem ancestor? (loses : LosesLinks document edited) (wellFormed : document.WellFormed)
    {levels : Nat} (old : node < document.size) {above : NodeId}
    (found : edited.ancestor? node levels = some above) :
    document.ancestor? node levels = some above := by
  induction levels generalizing node with
  | zero => exact found
  | succ levels ih =>
      rw [Document.ancestor?] at found ⊢
      obtain ⟨parent, link, climbed⟩ := Option.bind_eq_some_iff.mp found
      have linkBefore := loses.links node old parent link
      rw [linkBefore]
      exact ih (wellFormed.parent_present linkBefore) climbed

theorem isAttached (loses : LosesLinks document edited) (wellFormed : document.WellFormed)
    (editedWF : edited.WellFormed) (old : node < document.size)
    (attached : edited.isAttached node = true) : document.isAttached node = true := by
  obtain ⟨levels, found⟩ := (editedWF.isAttached_iff_ancestor? node).mp attached
  have above := loses.ancestor? wellFormed old found
  exact (wellFormed.isAttached_iff_ancestor? node).mpr ⟨levels, above⟩

theorem linked (loses : LosesLinks document edited) (wellFormed : document.WellFormed)
    (editedWF : edited.WellFormed) {parent : NodeId} (link : document.parent? node = some parent)
    (attached : edited.isAttached node = true) :
    edited.parent? node = some parent ∧ edited.isAttached parent = true := by
  obtain ⟨levels, found⟩ := (editedWF.isAttached_iff_ancestor? node).mp attached
  cases levels with
  | zero =>
      cases found
      exact absurd rfl (wellFormed.ne_root link)
  | succ levels =>
      rw [Document.ancestor?] at found
      obtain ⟨above, linkAfter, climbed⟩ := Option.bind_eq_some_iff.mp found
      have same := loses.links node (lt_size_of_parent? link) above linkAfter
      rw [link] at same
      cases same
      exact ⟨linkAfter, (editedWF.isAttached_iff_ancestor? parent).mpr ⟨levels, climbed⟩⟩

end LosesLinks

theorem MemberWrite.losesLinks (write : MemberWrite document edited object key member value) :
    document.LosesLinks edited :=
  ⟨write.grows, write.addsNoLinks⟩

/-- What lies below the written member is cut off. -/
theorem MemberWrite.detaches (write : MemberWrite document edited object key member value)
    (wellFormed : document.WellFormed) {levels : Nat} {node : NodeId}
    (below : document.ancestor? node (levels + 1) = some member) :
    edited.isAttached node = false := by
  cases attached : edited.isAttached node with
  | false => rfl
  | true =>
      induction levels generalizing node with
      | zero =>
          obtain ⟨parent, link, same⟩ := Option.bind_eq_some_iff.mp below
          cases same
          have stays := write.losesLinks.linked wellFormed write.wellFormed link attached
          exact absurd stays.1 (write.parent?_ne (lt_size_of_parent? link))
      | succ levels ih =>
          obtain ⟨parent, link, climbed⟩ := Option.bind_eq_some_iff.mp below
          have stays := write.losesLinks.linked wellFormed write.wellFormed link attached
          exact ih climbed stays.2

end Document

end TemplateFill
