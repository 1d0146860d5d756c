import TemplateFill.Proofs.Document.Refinement

/-!
Trees that are replaced in their places.

A run over part of a document leaves other trees where that part had some, under the same numbers,
and touches nothing else. Such runs compose: one after the other over the same tree, side by side
over trees apart, and from the children of a node up to the node.
-/

namespace TemplateFill

theorem putMember_putMember {α : Type} (key : String) (first second : α)
    (members : List (String × α)) :
    putMember key second (putMember key first members) = putMember key second members := by
  induction members with
  | nil => exact if_pos rfl
  | cons member rest ih =>
      obtain ⟨name, value⟩ := member
      rw [putMember, putMember]
      split
      · rename_i same
        rw [putMember, if_pos same]
      · rename_i different
        rw [putMember, if_neg different, ih]

theorem putMember_of_memberOf? {α : Type} {key : String} {value : α} {members : List (String × α)}
    (found : memberOf? key members = some value) : putMember key value members = members := by
  induction members with
  | nil => cases found
  | cons member rest ih =>
      obtain ⟨name, first⟩ := member
      rw [memberOf?] at found
      rw [putMember]
      split
      · rename_i same
        rw [if_pos same] at found
        cases found
        rfl
      · rename_i different
        rw [if_neg different] at found
        rw [ih found]

theorem mem_putMember {α : Type} {key : String} {value : α} {members : List (String × α)}
    {member : String × α} (inside : member ∈ putMember key value members) :
    member = (key, value) ∨ member ∈ members := by
  induction members with
  | nil => exact .inl (List.mem_singleton.mp inside)
  | cons first rest ih =>
      obtain ⟨name, old⟩ := first
      rw [putMember] at inside
      split at inside
      · rename_i same
        rcases List.mem_cons.mp inside with here | later
        · exact .inl (here.trans (by rw [same]))
        · exact .inr (List.mem_cons_of_mem _ later)
      · rcases List.mem_cons.mp inside with here | later
        · exact .inr (here ▸ List.mem_cons_self ..)
        · exact (ih later).imp_right (List.mem_cons_of_mem _)

theorem putMember_append {α : Type} {key : String} (value : α) {before : List (String × α)}
    (others : ∀ member ∈ before, member.1 ≠ key) (old : α) (after : List (String × α)) :
    putMember key value (before ++ (key, old) :: after) = before ++ (key, value) :: after := by
  induction before with
  | nil => exact if_pos rfl
  | cons member rest ih =>
      obtain ⟨name, first⟩ := member
      rw [List.cons_append, putMember, if_neg (others _ (List.mem_cons_self ..)),
        ih fun other inside => others other (List.mem_cons_of_mem _ inside)]
      rfl

namespace Document

variable {before middle after : Document} {trees others images further : List Tree} {tree : Tree}

/-- The second document is the first with trees replaced by others under the same numbers. -/
structure Regrows (trees : List Tree) (before after : Document) (images : List Tree) : Prop where
  wellFormed : after.WellFormed
  loses : before.LosesLinks after
  numbers : images.map Tree.number = trees.map Tree.number
  held : ∀ image ∈ images, after.Holds image
  fresh : ∀ image ∈ images, ∀ node ∈ image.numbers,
    (∃ tree ∈ trees, node ∈ tree.numbers) ∨ before.size ≤ node
  contents : ∀ node < before.size, (∀ tree ∈ trees, node ∉ tree.numbers) →
    after.content node = before.content node
  links : ∀ node < before.size, (∀ tree ∈ trees, node ∈ tree.numbers → node = tree.number) →
    after.parent? node = before.parent? node

theorem WellFormed.regrows_self (wellFormed : before.WellFormed)
    (holds : ∀ tree ∈ trees, before.Holds tree) : Regrows trees before before trees where
  wellFormed := wellFormed
  loses := .refl before
  numbers := rfl
  held := holds
  fresh := fun image listed _ inside => .inl ⟨image, listed, inside⟩
  contents := fun _ _ _ => rfl
  links := fun _ _ _ => rfl

theorem WellFormed.pairwise_disjoint_children {document : Document}
    (wellFormed : document.WellFormed) (holds : document.Holds tree) :
    tree.children.Pairwise fun first second => List.Disjoint first.numbers second.numbers := by
  have distinct := wellFormed.nodup_children holds
  refine (List.pairwise_map.mp distinct).imp_of_mem ?_
  intro first second isFirst isSecond different
  exact holds.disjoint_children isFirst isSecond different

namespace Regrows

theorem holds_of_disjoint (regrows : Regrows trees before after images) (holds : before.Holds tree)
    (apart : ∀ other ∈ trees, List.Disjoint tree.numbers other.numbers) : after.Holds tree := by
  induction tree using Tree.induction with
  | step tree ih =>
      have here : ∀ other ∈ trees, tree.number ∉ other.numbers :=
        fun other listed => apart other listed tree.number_mem_numbers
      apply Holds.intro (Nat.lt_of_lt_of_le holds.present regrows.loses.grows)
      · rw [regrows.contents _ holds.present here, holds.content]
      · intro child inside
        have below := Tree.numbers_subset (Tree.child_mem_preorder inside) child.number_mem_numbers
        rw [regrows.links _ (holds.lt_size_of_mem_numbers below) fun other listed within =>
          absurd within (apart other listed below), holds.linked inside]
      · intro child inside
        apply ih child inside (holds.of_mem_children inside)
        intro other listed number within
        exact apart other listed (Tree.numbers_subset (Tree.child_mem_preorder inside) within)

theorem trans {first second third : Tree} (early : Regrows [first] before middle [second])
    (late : Regrows [second] middle after [third]) : Regrows [first] before after [third] := by
  have sameNumber : second.number = first.number := List.singleton_inj.mp early.numbers
  have outside : ∀ node < before.size, node ∉ first.numbers → node ∉ second.numbers := by
    intro node old notFirst inSecond
    rcases early.fresh second (List.mem_singleton_self _) node inSecond with
      ⟨other, listed, inside⟩ | new
    · rw [List.mem_singleton.mp listed] at inside
      exact notFirst inside
    · exact Nat.not_lt.mpr new old
  have grows : ∀ node < before.size, node < middle.size :=
    fun node old => Nat.lt_of_lt_of_le old early.loses.grows
  refine ⟨late.wellFormed, early.loses.trans late.loses, late.numbers.trans early.numbers,
    late.held, ?_, ?_, ?_⟩
  · intro image listed node inside
    rcases late.fresh image listed node inside with ⟨other, isSecond, within⟩ | new
    · rw [List.mem_singleton.mp isSecond] at within
      exact early.fresh second (List.mem_singleton_self _) node within
    · exact .inr (Nat.le_trans early.loses.grows new)
  · intro node old apart
    have notFirst := apart first (List.mem_singleton_self _)
    rw [late.contents node (grows node old) (by simpa using outside node old notFirst),
      early.contents node old apart]
  · intro node old atTop
    have topFirst := atTop first (List.mem_singleton_self _)
    rw [late.links node (grows node old) ?_, early.links node old atTop]
    intro other listed within
    rw [List.mem_singleton.mp listed] at within ⊢
    by_cases inside : node ∈ first.numbers
    · rw [topFirst inside, sameNumber]
    · exact absurd within (outside node old inside)

theorem append (early : Regrows trees before middle images)
    (late : Regrows others middle after further) (holds : ∀ other ∈ others, before.Holds other)
    (apart : ∀ tree ∈ trees, ∀ other ∈ others, List.Disjoint tree.numbers other.numbers) :
    Regrows (trees ++ others) before after (images ++ further) := by
  refine ⟨late.wellFormed, early.loses.trans late.loses, ?_, ?_, ?_, ?_, ?_⟩
  · rw [List.map_append, List.map_append, early.numbers, late.numbers]
  · intro image listed
    rcases List.mem_append.mp listed with first | second
    · apply late.holds_of_disjoint (early.held image first)
      intro other isOther number inside within
      rcases early.fresh image first number inside with ⟨tree, isTree, there⟩ | new
      · exact apart tree isTree other isOther there within
      · exact Nat.not_lt.mpr new ((holds other isOther).lt_size_of_mem_numbers within)
    · exact late.held image second
  · intro image listed node inside
    rcases List.mem_append.mp listed with first | second
    · rcases early.fresh image first node inside with ⟨tree, isTree, there⟩ | new
      · exact .inl ⟨tree, List.mem_append_left _ isTree, there⟩
      · exact .inr new
    · rcases late.fresh image second node inside with ⟨other, isOther, there⟩ | new
      · exact .inl ⟨other, List.mem_append_right _ isOther, there⟩
      · exact .inr (Nat.le_trans early.loses.grows new)
  · intro node old outside
    rw [late.contents node (Nat.lt_of_lt_of_le old early.loses.grows) fun other isOther =>
      outside other (List.mem_append_right _ isOther),
      early.contents node old fun tree isTree => outside tree (List.mem_append_left _ isTree)]
  · intro node old atTop
    rw [late.links node (Nat.lt_of_lt_of_le old early.loses.grows) fun other isOther =>
      atTop other (List.mem_append_right _ isOther),
      early.links node old fun tree isTree => atTop tree (List.mem_append_left _ isTree)]

/-- A run over children of a node leaves the node with what has come of them. -/
theorem holds_parent {image : Tree} (regrows : Regrows trees before after images)
    (holds : before.Holds tree) (listed : ∀ other ∈ trees, other ∈ tree.children)
    (number : image.number = tree.number) (content : image.content = tree.content)
    (children : ∀ child ∈ image.children, child ∈ images ∨
      child ∈ tree.children ∧ ∀ other ∈ trees, child.number ≠ other.number) :
    after.Holds image := by
  have above : ∀ other ∈ trees, tree.number ∉ other.numbers :=
    fun other isOther => holds.number_not_mem_child (listed other isOther)
  have onTop : ∀ child ∈ tree.children, ∀ other ∈ trees, child.number ∈ other.numbers →
      child.number = other.number := by
    intro child inside other isOther shared
    by_contra different
    exact holds.disjoint_children inside (listed other isOther) different child.number_mem_numbers
      shared
  have exists_tree : ∀ child ∈ images, ∃ other ∈ trees, child.number = other.number := by
    intro child isImage
    have named : child.number ∈ trees.map Tree.number :=
      regrows.numbers ▸ List.mem_map_of_mem isImage
    obtain ⟨other, isOther, same⟩ := List.mem_map.mp named
    exact ⟨other, isOther, same.symm⟩
  apply Holds.intro
  · rw [number]
    exact Nat.lt_of_lt_of_le holds.present regrows.loses.grows
  · rw [number, regrows.contents _ holds.present above, holds.content, content]
  · intro child inside
    rw [number]
    have source : ∃ old ∈ tree.children, child.number = old.number := by
      rcases children child inside with isImage | ⟨old, _⟩
      · obtain ⟨other, isOther, same⟩ := exists_tree child isImage
        exact ⟨other, listed other isOther, same⟩
      · exact ⟨child, old, rfl⟩
    obtain ⟨old, isOld, same⟩ := source
    rw [same, regrows.links _ (holds.of_mem_children isOld).present (onTop old isOld),
      holds.linked isOld]
  · intro child inside
    rcases children child inside with isImage | ⟨old, different⟩
    · exact regrows.held child isImage
    · apply regrows.holds_of_disjoint (holds.of_mem_children old)
      intro other isOther
      exact holds.disjoint_children old (listed other isOther) (different other isOther)

theorem lift {image : Tree} (regrows : Regrows trees before after images)
    (holds : before.Holds tree) (listed : ∀ other ∈ trees, other ∈ tree.children)
    (number : image.number = tree.number) (content : image.content = tree.content)
    (children : ∀ child ∈ image.children, child ∈ images ∨
      child ∈ tree.children ∧ ∀ other ∈ trees, child.number ≠ other.number) :
    Regrows [tree] before after [image] := by
  have within : ∀ other ∈ trees, other.numbers ⊆ tree.numbers :=
    fun other isOther => Tree.numbers_subset (Tree.child_mem_preorder (listed other isOther))
  refine ⟨regrows.wellFormed, regrows.loses, congrArg (· :: []) number, ?_, ?_, ?_, ?_⟩
  · exact List.forall_mem_singleton.mpr
      (regrows.holds_parent holds listed number content children)
  · intro other isImage node inside
    rw [List.mem_singleton.mp isImage] at inside
    have here : ∀ {found : NodeId}, found ∈ tree.numbers → ∃ top ∈ [tree], found ∈ top.numbers :=
      fun found => ⟨tree, List.mem_singleton_self _, found⟩
    rcases Tree.mem_numbers_iff.mp inside with same | ⟨child, directly, lower⟩
    · rw [same, number]
      exact .inl (here tree.number_mem_numbers)
    · rcases children child directly with isChild | ⟨old, _⟩
      · rcases regrows.fresh child isChild node lower with ⟨source, isSource, there⟩ | new
        · exact .inl (here (within source isSource there))
        · exact .inr new
      · exact .inl (here (Tree.numbers_subset (Tree.child_mem_preorder old) lower))
  · intro node old outside
    apply regrows.contents node old
    intro other isOther inside
    exact outside tree (List.mem_singleton_self _) (within other isOther inside)
  · intro node old atTop
    apply regrows.links node old
    intro other isOther inside
    have same := atTop tree (List.mem_singleton_self _) (within other isOther inside)
    rw [same] at inside
    exact absurd inside (holds.number_not_mem_child (listed other isOther))

theorem isAttached (regrows : Regrows trees before after images) (wellFormed : before.WellFormed)
    (holds : ∀ other ∈ trees, before.Holds other) {node : NodeId}
    (atTop : ∀ other ∈ trees, node ∈ other.numbers → node = other.number)
    (attached : before.isAttached node = true) : after.isAttached node = true := by
  have climb : ∀ levels node, (∀ other ∈ trees, node ∈ other.numbers → node = other.number) →
      before.ancestor? node levels = some root → after.ancestor? node levels = some root := by
    intro levels
    induction levels with
    | zero => exact fun _ _ found => found
    | succ levels ih =>
        intro node atTop found
        obtain ⟨parent, link, climbed⟩ := Option.bind_eq_some_iff.mp found
        have parentOutside : ∀ other ∈ trees, parent ∉ other.numbers := by
          intro other isOther inside
          obtain ⟨more, above⟩ := (holds other isOther).ancestor? inside
          have lower : before.ancestor? node (more + 1) = some other.number := by
            rw [ancestor?, link]
            exact above
          have same := atTop other isOther
            (wellFormed.mem_numbers_of_ancestor? (holds other isOther) (more + 1) node lower)
          exact wellFormed.ancestor?_ne_self node more (same ▸ lower)
        rw [ancestor?, regrows.links node (lt_size_of_parent? link) atTop, link]
        exact ih parent (fun other isOther inside => absurd inside (parentOutside other isOther))
          climbed
  obtain ⟨levels, found⟩ := (wellFormed.isAttached_iff_ancestor? node).mp attached
  have above := climb levels node atTop found
  exact (regrows.wellFormed.isAttached_iff_ancestor? node).mpr ⟨levels, above⟩

theorem isAttached_top {image : Tree} (regrows : Regrows [tree] before after [image])
    (wellFormed : before.WellFormed) (holds : before.Holds tree)
    (attached : before.isAttached tree.number = true) : after.isAttached tree.number = true := by
  exact regrows.isAttached wellFormed (List.forall_mem_singleton.mpr holds)
    (List.forall_mem_singleton.mpr fun _ => rfl) attached

theorem map_number_zipWith : ∀ {members : List (String × Tree)} {images : List Tree},
    images.map Tree.number = (members.map Prod.snd).map Tree.number →
      (List.zipWith (fun member image => (member.1, image)) members images).map
        (fun member => (member.1, member.2.number)) =
          members.map fun member => (member.1, member.2.number)
  | [], _, _ => rfl
  | _ :: _, [], same => by cases same
  | member :: members, image :: images, same => by
      rw [List.map_cons, List.map_cons, List.map_cons, List.cons.injEq] at same
      rw [List.zipWith_cons_cons, List.map_cons, List.map_cons, map_number_zipWith same.2, same.1]

/-- A run over some members of an object is a run over the object. -/
theorem segment {object : NodeId} {front members back : List (String × Tree)}
    (regrows : Regrows (members.map Prod.snd) before after images) (wellFormed : before.WellFormed)
    (holds : before.Holds (.object object (front ++ members ++ back))) :
    Regrows [.object object (front ++ members ++ back)] before after
      [.object object (front ++
        List.zipWith (fun member image => (member.1, image)) members images ++ back)] := by
  have keys := map_number_zipWith regrows.numbers
  have distinct := wellFormed.nodup_children holds
  simp only [Tree.children, List.map_append] at distinct
  have listed : ∀ other ∈ members.map Prod.snd,
      other ∈ (Tree.object object (front ++ members ++ back)).children := by
    intro other inside
    rw [Tree.children, List.map_append, List.map_append]
    exact List.mem_append_left _ (List.mem_append_right _ inside)
  refine regrows.lift holds listed ?_ ?_ ?_
  · rfl
  · simp only [Tree.content, List.map_append, keys]
  · intro child inside
    simp only [Tree.children, List.map_append, List.mem_append] at inside ⊢
    rw [List.nodup_append', List.nodup_append'] at distinct
    obtain ⟨⟨_, _, frontApart⟩, _, backApart⟩ := distinct
    rcases inside with (inFront | isImage) | inBack
    · right
      refine ⟨.inl (.inl inFront), ?_⟩
      intro other isOther same
      exact frontApart (List.mem_map_of_mem inFront) (same ▸ List.mem_map_of_mem isOther)
    · left
      rw [List.map_zipWith] at isImage
      obtain ⟨position, there⟩ := List.mem_iff_getElem?.mp isImage
      obtain ⟨_, image, _, isThis, same⟩ := List.getElem?_zipWith_eq_some.mp there
      exact same ▸ List.mem_of_getElem? isThis
    · right
      refine ⟨.inr inBack, ?_⟩
      intro other isOther same
      exact backApart (List.mem_append_right _ (List.mem_map_of_mem isOther))
        (same ▸ List.mem_map_of_mem inBack)

end Regrows

/-! ### Setting a member -/

/-- A change of one node within a tree makes the tree grow anew. -/
theorem EditAt.regrows {subtree image : Tree} (edit : EditAt before after subtree)
    (wellFormed : before.WellFormed) (holds : before.Holds tree)
    (inside : subtree.number ∈ tree.numbers)
    (kept : ∀ child ∈ subtree.children, before.size ≤ child.number ∨
      before.parent? child.number = some subtree.number)
    (grown : tree.graft subtree = image) : Regrows [tree] before after [image] := by
  subst grown
  have held := edit.holds_graft holds
  have outsideOf : ∀ node < before.size, (node ∈ tree.numbers → node = tree.number) →
      before.parent? node ≠ some subtree.number := by
    intro node old atTop link
    obtain ⟨levels, above⟩ := holds.ancestor? inside
    have lower : before.ancestor? node (levels + 1) = some tree.number := by
      rw [ancestor?, link]
      exact above
    have same := atTop (wellFormed.mem_numbers_of_ancestor? holds (levels + 1) node lower)
    exact wellFormed.ancestor?_ne_self node levels (same ▸ lower)
  refine ⟨edit.wellFormed wellFormed, ⟨edit.grows, ?_⟩, ?_, ?_, ?_, ?_, ?_⟩
  · exact fun node old parent link => edit.addsNoLinks kept old link
  · exact congrArg (· :: []) (Tree.number_graft ..)
  · exact List.forall_mem_singleton.mpr held
  · intro image isImage node within
    rw [List.mem_singleton.mp isImage] at within
    by_cases old : node < before.size
    · left
      refine ⟨tree, List.mem_singleton_self _, ?_⟩
      obtain ⟨levels, above⟩ := held.ancestor? within
      rw [Tree.number_graft] at above
      have loses : before.LosesLinks after :=
        ⟨edit.grows, fun node old parent link => edit.addsNoLinks kept old link⟩
      exact wellFormed.mem_numbers_of_ancestor? holds levels node
        (loses.ancestor? wellFormed old above)
    · exact .inr (Nat.le_of_not_lt old)
  · intro node old outside
    apply edit.contents node old
    intro same
    exact outside tree (List.mem_singleton_self _) (same ▸ inside)
  · intro node old atTop
    have notBelow := outsideOf node old (atTop tree (List.mem_singleton_self _))
    have notChild : node ∉ subtree.children.map Tree.number := by
      intro isChild
      obtain ⟨child, directly, rfl⟩ := List.mem_map.mp isChild
      rcases kept child directly with new | link
      · exact Nat.not_lt.mpr new old
      · exact notBelow link
    rw [edit.links node old notChild, if_neg notBelow]

/-- Setting a member makes its object grow anew, with the value in the member's place. -/
theorem WellFormed.regrows_setMember (wellFormed : before.WellFormed) {object place : NodeId}
    {members : List (String × Tree)} {key : String} {value : Json}
    (done : before.setMember object key value = .ok (after, place))
    (holds : before.Holds (.object object members)) :
    ∃ member : Tree, member.number = place ∧ member.toJson = value ∧
      Regrows [.object object members] before after [.object object (putMember key member members)]
      := by
  have sameMember : before.member? key object = (memberOf? key members).map Tree.number :=
    holds.member? key
  cases found : memberOf? key members with
  | some child =>
      rw [found, Option.map_some] at sameMember
      rw [setMember_of_some value sameMember] at done
      cases done
      have directly : child ∈ (Tree.object object members).children :=
        List.mem_map_of_mem (mem_of_memberOf? found)
      have numbered := Tree.number_place child.number before.size value
      refine ⟨Tree.place child.number before.size value, numbered, Tree.toJson_place .., ?_⟩
      have edit := replaceValue_editAt wellFormed (holds.of_mem_children directly).present value
      refine edit.regrows wellFormed holds ?_ ?_ ?_
      · rw [numbered]
        exact Tree.numbers_subset (Tree.child_mem_preorder directly) child.number_mem_numbers
      · exact fun below inside => .inl (Tree.le_number_of_mem_place inside)
      · exact wellFormed.graft_member holds found numbered.symm
  | none =>
      rw [found, Option.map_none] at sameMember
      rw [setMember_of_none value sameMember holds.content] at done
      cases done
      refine ⟨Tree.ofJson before.size value, Tree.number_place .., Tree.toJson_place .., ?_⟩
      have edit := appendMember_editAt wellFormed holds key value
      refine edit.regrows wellFormed holds (Tree.number_mem_numbers _) ?_ ?_
      · intro child inside
        rw [Tree.children, List.map_append, List.mem_append] at inside
        rcases inside with old | new
        · exact .inr (holds.linked old)
        · rw [List.map_singleton, List.mem_singleton] at new
          rw [new, Tree.number_ofJson]
          exact .inl (Nat.le_refl _)
      · rw [putMember_of_none _ found]
        exact Tree.graft_of_eq rfl

end Document

end TemplateFill
