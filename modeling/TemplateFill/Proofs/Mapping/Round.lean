import TemplateFill.Proofs.Mapping.Copies

/-!
One round of expansion.

A round that succeeds puts one tree in the place of another: the container of the owner, without the
owner and with the copies behind its other elements. The mark that the round leaves goes away with
the owner.
-/

namespace TemplateFill

namespace Tree

def exchange (gone : NodeId) (copies : List Tree) : Tree → Tree
  | .array number elements =>
      .array number ((elements.filter fun element => element.number != gone) ++ copies)
  | .scalar number value => .scalar number value
  | .object number members =>
      .object number (members.filter fun member => member.2.number != gone)

@[simp] theorem number_exchange (gone : NodeId) (copies : List Tree) (tree : Tree) :
    (tree.exchange gone copies).number = tree.number := by
  cases tree <;> rfl

def extend (copies : List Tree) : Tree → Tree
  | .array number elements => .array number (elements ++ copies)
  | .scalar number value => .scalar number value
  | .object number members => .object number members

@[simp] theorem number_extend (copies : List Tree) (tree : Tree) :
    (tree.extend copies).number = tree.number := by
  cases tree <;> rfl

theorem children_subset_extend (copies : List Tree) (tree : Tree) :
    tree.children ⊆ (tree.extend copies).children := by
  cases tree with
  | scalar number value => exact fun _ inside => inside
  | array number elements => exact List.subset_append_left elements copies
  | object number members => exact fun _ inside => inside

theorem filterChildren_extend {gone : NodeId} {copies : List Tree} {tree : Tree}
    (other : ∀ copy ∈ copies, copy.number ≠ gone) :
    (tree.extend copies).filterChildren (fun child => child.number != gone) =
      tree.exchange gone copies := by
  cases tree with
  | scalar number value => rfl
  | array number elements =>
      have kept : (copies.filter fun copy => copy.number != gone) = copies :=
        List.filter_eq_self.mpr fun copy inside => bne_iff_ne.mpr (other copy inside)
      rw [extend, filterChildren, List.filter_append, kept, exchange]
  | object number members => rfl

theorem retext_without (gone : NodeId → Bool) (texts : NodeId → Option String) (tree : Tree) :
    (tree.retext texts).without gone = (tree.without gone).retext texts := by
  induction tree using induction with
  | step tree ih =>
      cases tree with
      | scalar number value => rw [retext, without, without, retext]
      | array number elements =>
          rw [retext, without, without, retext, List.filter_map, List.map_map, List.map_map]
          simp only [Function.comp_def, number_retext]
          refine congrArg (array number) (List.map_congr_left fun element inside => ?_)
          exact ih element (List.mem_filter.mp inside).1
      | object number members =>
          rw [retext, without, without, retext, List.filter_map, List.map_map, List.map_map]
          simp only [Function.comp_def, number_retext]
          refine congrArg (object number) (List.map_congr_left fun member inside => ?_)
          exact congrArg (Prod.mk member.1)
            (ih member.2 (List.mem_map_of_mem (List.mem_filter.mp inside).1))

end Tree

theorem Document.Holds.not_mem_without {document : Document} {tree : Tree}
    (holds : document.Holds tree) {gone : NodeId → Bool} {child below : Tree}
    (directly : child ∈ tree.children) (within : below ∈ child.preorder)
    (isGone : gone below.number = true) {number : NodeId} (inside : number ∈ below.numbers) :
    number ∉ (tree.without gone).numbers := by
  induction holds generalizing child with
  | @intro tree present content linked held ih =>
      have holds : document.Holds tree := .intro present content linked held
      have inChild : number ∈ child.numbers := Tree.numbers_subset within inside
      intro left
      rcases Tree.mem_numbers_iff.mp left with same | ⟨kept, keptIn, deeper⟩
      · rw [Tree.number_without] at same
        exact holds.number_not_mem_child directly (same ▸ inChild)
      · rw [Tree.children_without] at keptIn
        obtain ⟨old, oldIn, rfl⟩ := List.mem_map.mp keptIn
        obtain ⟨oldChild, notGone⟩ := List.mem_filter.mp oldIn
        by_cases same : old.number = child.number
        · have equal := (holds.of_mem_children oldChild).unique (held child directly) same
          subst equal
          rcases Tree.mem_preorder_iff.mp within with top | ⟨grandchild, lower, further⟩
          · subst top
            rw [isGone] at notGone
            cases notGone
          · exact ih old directly lower further deeper
        · exact holds.disjoint_children oldChild directly same
            (Tree.numbers_without_subset gone old deeper) inChild

namespace Expansion

theorem leastBy_eq_none_iff {measure : NodeId → Nat} {nodes : List NodeId} :
    leastBy measure nodes = none ↔ nodes = [] := by
  cases nodes with
  | nil => simp [leastBy]
  | cons node rest =>
      rw [leastBy]
      cases leastBy measure rest with
      | none => simp
      | some other => dsimp only; split <;> simp

/-- The nodes before the least one measure more, those behind it not less. -/
theorem exists_split_of_leastBy {measure : NodeId → Nat} {nodes : List NodeId} {node : NodeId}
    (least : leastBy measure nodes = some node) :
    ∃ before behind, nodes = before ++ node :: behind ∧
      (∀ other ∈ before, measure node < measure other) ∧
      ∀ other ∈ behind, measure node ≤ measure other := by
  induction nodes generalizing node with
  | nil => cases least
  | cons first rest ih =>
      rw [leastBy] at least
      cases others : leastBy measure rest with
      | none =>
          rw [others] at least
          cases least
          cases leastBy_eq_none_iff.mp others
          exact ⟨[], [], rfl, nofun, nofun⟩
      | some other =>
          rw [others] at least
          dsimp only at least
          obtain ⟨before, behind, rfl, larger, notLess⟩ := ih others
          split at least
          · rename_i less
            cases least
            exact ⟨first :: before, behind, rfl, List.forall_mem_cons.mpr ⟨less, larger⟩, notLess⟩
          · rename_i notSmaller
            have first := Nat.not_lt.mp notSmaller
            cases least
            refine ⟨[], _, rfl, nofun, List.forall_mem_append.mpr ⟨?_, ?_⟩⟩
            · exact fun item inside => Nat.le_trans first (Nat.le_of_lt (larger item inside))
            · refine List.forall_mem_cons.mpr ⟨first, fun item inside => ?_⟩
              exact Nat.le_trans first (notLess item inside)

theorem mem_of_leastBy {measure : NodeId → Nat} {nodes : List NodeId} {node : NodeId}
    (least : leastBy measure nodes = some node) : node ∈ nodes := by
  obtain ⟨before, behind, rfl, _⟩ := exists_split_of_leastBy least
  exact List.mem_append_cons_self

/-- When expanding the owner of a qualifier succeeds, and with what result. -/
theorem expandQualifier_eq_ok {context after : Context} {qualifier : NodeId} :
    expandQualifier context qualifier = .ok after ↔
      ∃ owner container path entries copied marked node,
        context.working.qualifierOwner? qualifier = some owner ∧
        context.working.modelType? owner = some .collection ∧
        context.working.parent? owner = some container ∧
        context.working.qualifierValue? qualifier = some path ∧
        Query.selectManyIn context.data (Binding.ofPath path).countPath
          (context.working.qualifierCardinality qualifier).isMandatory = .ok entries ∧
        addCopies context.working owner container path (Binding.ofPath path) 0 entries.length =
          .ok copied ∧
        copied.setMember qualifier Key.type
          (.text QualifierType.processedCollectionMappingInfo.tag) = .ok (marked, node) ∧
        after = ({ context with working := marked.removeNode owner }).log
          ("Successfully duplicated " ++ toString entries.length
            ++ " elements for collection with mapping path '" ++ path ++ "'") := by
  constructor
  · intro done
    obtain ⟨owner, owned, done⟩ := bind_eq_ok.mp done
    obtain ⟨kind, isKind, done⟩ := bind_eq_ok.mp done
    have same : kind = .collection := by
      by_contra different
      have chosen : (kind != ModelType.collection) = true := bne_iff_ne.mpr different
      simp only [chosen, if_true] at done
      cases done
    subst same
    replace done : (context.require _ (context.working.parent? owner) >>= _) = _ := done
    obtain ⟨container, link, done⟩ := bind_eq_ok.mp done
    obtain ⟨path, hasPath, done⟩ := bind_eq_ok.mp done
    obtain ⟨entries, selects, done⟩ := bind_eq_ok.mp done
    obtain ⟨copied, copies, done⟩ := bind_eq_ok.mp done
    obtain ⟨⟨marked, node⟩, marks, done⟩ := bind_eq_ok.mp done
    rw [Context.require_eq_ok] at owned isKind link hasPath
    rw [Context.selected_eq_ok] at selects
    rw [Context.edited_eq_ok] at copies marks
    cases done
    exact ⟨owner, container, path, entries, copied, marked, node, owned, isKind, link, hasPath,
      selects, copies, marks, rfl⟩
  · rintro ⟨owner, container, path, entries, copied, marked, node, owned, isKind, link, hasPath,
      selects, copies, marks, rfl⟩
    refine bind_eq_ok.mpr ⟨owner, Context.require_eq_ok.mpr owned, ?_⟩
    refine bind_eq_ok.mpr ⟨.collection, Context.require_eq_ok.mpr isKind, ?_⟩
    change (context.require _ (context.working.parent? owner) >>= _) = _
    refine bind_eq_ok.mpr ⟨container, Context.require_eq_ok.mpr link, ?_⟩
    refine bind_eq_ok.mpr ⟨path, Context.require_eq_ok.mpr hasPath, ?_⟩
    refine bind_eq_ok.mpr ⟨entries, Context.selected_eq_ok.mpr selects, ?_⟩
    refine bind_eq_ok.mpr ⟨copied, Context.edited_eq_ok.mpr copies, ?_⟩
    exact bind_eq_ok.mpr ⟨(marked, node), Context.edited_eq_ok.mpr marks, rfl⟩

variable {context : Context} {tree container owner list qualifier : Tree}

/-- Copies in any container: only an array can take some. -/
private theorem addCopies_extend {document : Document} (wellFormed : document.WellFormed)
    (holds : document.Holds tree) (within : container ∈ tree.preorder)
    (directly : owner ∈ container.children) (path : String) (binding : Binding) {count : Nat}
    (fits : (∃ number elements, container = .array number elements) ∨ count = 0) :
    ∃ edited copies, addCopies document owner.number container.number path binding 0 count =
        .ok edited ∧
      copies.length = count ∧
      (∀ (index : Nat) (copy : Tree), copies[index]? = some copy →
        Tree.IsCopy document.size path binding index owner copy) ∧
      edited.WellFormed ∧ document.size ≤ edited.size ∧
      edited.Holds (tree.graft (container.extend copies)) ∧ edited.Holds owner := by
  have containerHolds := holds.of_mem_preorder within
  have ownerHolds := containerHolds.of_mem_children directly
  have apart := containerHolds.number_not_mem_child directly
  rcases fits with ⟨array, elements, rfl⟩ | rfl
  · obtain ⟨edited, copies, done, length, areCopies, editedWF, grows, editedHolds, frame⟩ :=
      @addCopies_ok document path binding 0 wellFormed tree owner holds array elements within
        ownerHolds apart count
    refine ⟨edited, copies, done, length, fun index copy found => ?_, editedWF, grows, editedHolds,
      frame owner ownerHolds apart⟩
    have isCopy := areCopies index copy found
    rwa [Nat.zero_add] at isCopy
  · refine ⟨document, [], rfl, rfl, nofun, wellFormed, Nat.le_refl _, ?_, ownerHolds⟩
    have same : container.extend [] = container := by
      cases container with
      | scalar number value => rfl
      | array number elements => rw [Tree.extend, List.append_nil]
      | object number members => rfl
    rwa [same, holds.graft_self within]

section Exchange

variable {document : Document} {copies : List Tree}

private theorem mem_graft_extend (copies : List Tree) (within : container ∈ tree.preorder)
    (directly : owner ∈ container.children) :
    container.extend copies ∈ (tree.graft (container.extend copies)).preorder ∧
      owner ∈ (container.extend copies).children := by
  refine ⟨Tree.mem_preorder_graft ?_, Tree.children_subset_extend copies container directly⟩
  rw [Tree.number_extend]
  exact Tree.mem_numbers_of_mem_preorder within

variable (holds : document.Holds (tree.graft (container.extend copies)))
  (within : container ∈ tree.preorder) (directly : owner ∈ container.children)
include holds within directly

/-- Copies behind an owner that then goes away are copies in its place. -/
private theorem without_graft_extend (fresh : ∀ copy ∈ copies, copy.number ≠ owner.number) :
    (tree.graft (container.extend copies)).without (fun number => number == owner.number) =
      tree.graft (container.exchange owner.number copies) := by
  obtain ⟨extendedIn, ownerIn⟩ := mem_graft_extend copies within directly
  rw [← holds.graft_filterChildren extendedIn ownerIn, Tree.filterChildren_extend fresh]
  exact Tree.graft_graft (by rw [Tree.number_extend, Tree.number_exchange])

private theorem not_mem_graft_exchange (fresh : ∀ copy ∈ copies, copy.number ≠ owner.number)
    {node : NodeId} (inside : node ∈ owner.numbers) :
    node ∉ (tree.graft (container.exchange owner.number copies)).numbers := by
  obtain ⟨extendedIn, ownerIn⟩ := mem_graft_extend copies within directly
  rw [← without_graft_extend holds within directly fresh]
  rcases Tree.mem_preorder_iff.mp
      (Tree.preorder_trans extendedIn (Tree.child_mem_preorder ownerIn)) with
    top | ⟨child, childIn, deeper⟩
  · exact absurd (congrArg Tree.number top) (holds.child_ne_number extendedIn ownerIn)
  · refine holds.not_mem_without childIn deeper ?_ inside
    exact beq_self_eq_true _

end Exchange

/-- Expanding the owner of a collection qualifier succeeds if the owner is a collection, its
container can take the copies, and the path can be followed. -/
theorem expandQualifier_ok (wellFormed : context.working.WellFormed)
    (holds : context.working.Holds tree) (within : container ∈ tree.preorder)
    (directly : owner ∈ container.children) (member : owner.member? Key.qualifiers = some list)
    (inside : qualifier ∈ list.children)
    (tagged : Tree.view.hasTag QualifierType.collectionMappingInfo.tag qualifier = true)
    (isKind : context.working.modelType? owner.number = some .collection) {path : String}
    (hasPath : qualifier.stringMember? Key.value = some path) {entries : List Json}
    (selects : Query.selectManyIn context.data (Binding.ofPath path).countPath
      (context.working.qualifierCardinality qualifier.number).isMandatory = .ok entries)
    (fits : (∃ number elements, container = .array number elements) ∨ entries.length = 0) :
    ∃ after copies, expandQualifier context qualifier.number = .ok after ∧
      after.data = context.data ∧ copies.length = entries.length ∧
      (∀ (index : Nat) (copy : Tree), copies[index]? = some copy →
        Tree.IsCopy context.working.size path (Binding.ofPath path) index owner copy) ∧
      after.working.WellFormed ∧ context.working.size ≤ after.working.size ∧
      after.working.Holds (tree.graft (container.exchange owner.number copies)) := by
  have containerHolds := holds.of_mem_preorder within
  have ownerHolds := containerHolds.of_mem_children directly
  have listChild := Tree.mem_children_of_member? member
  have qualifierHolds := (ownerHolds.of_mem_children listChild).of_mem_children inside
  obtain ⟨copied, copies, adds, length, areCopies, copiedWF, grows, copiedHolds, ownerCopied⟩ :=
    addCopies_extend wellFormed holds within directly path (Binding.ofPath path) fits
  have fresh : ∀ copy ∈ copies, copy.number ≠ owner.number := by
    intro copy listed
    obtain ⟨index, present⟩ := List.mem_iff_getElem?.mp listed
    have low := (areCopies index copy present).le_of_mem_numbers copy.number_mem_numbers
    exact Nat.ne_of_gt (Nat.lt_of_lt_of_le ownerHolds.present low)
  obtain ⟨extendedIn, ownerIn⟩ := mem_graft_extend copies within directly
  obtain ⟨node, typeMember⟩ := Tree.exists_scalar_of_stringMember? (Tree.hasTag_iff.mp tagged)
  have qualifierCopied := (ownerCopied.of_mem_children listChild).of_mem_children inside
  have typeHolds := qualifierCopied.of_mem_children (Tree.mem_children_of_member? typeMember)
  have found : copied.member? Key.type qualifier.number = some node := by
    rw [qualifierCopied.member?, typeMember]
    rfl
  have nodeInOwner : node ∈ owner.numbers :=
    Tree.numbers_subset (Tree.preorder_trans (Tree.child_mem_preorder listChild)
      (Tree.preorder_trans (Tree.child_mem_preorder inside)
        (Tree.child_mem_preorder (Tree.mem_children_of_member? typeMember))))
      (Tree.number_mem_numbers _)
  obtain ⟨markedWF, markedSize, _, _, markedTrees⟩ := copiedWF.writeText typeHolds.present
    typeHolds.content QualifierType.processedCollectionMappingInfo.tag
  have removed := (markedTrees _ copiedHolds).removeNode markedWF
    (show owner.number ≠ _ by
      rw [Tree.number_retext]
      exact copiedHolds.child_ne_number extendedIn ownerIn)
  rw [Tree.retext_without, without_graft_extend copiedHolds within directly fresh,
    Tree.retext_of_not_mem] at removed
  · refine ⟨_, copies, expandQualifier_eq_ok.mpr ⟨owner.number, container.number, path, entries,
      copied, _, node, ownerHolds.qualifierOwner? member inside, isKind,
      containerHolds.linked directly, ?_, selects, adds,
      Document.setMember_of_some _ found, rfl⟩, rfl, length, areCopies, markedWF.removeNode _,
      ?_, removed⟩
    · rw [Document.qualifierValue?, qualifierHolds.stringMember?, hasPath]
    · refine Nat.le_trans grows (Nat.le_of_eq ?_)
      exact (markedSize.symm.trans (Document.size_removeNode _ _).symm)
  · intro number listed
    apply if_neg
    rintro rfl
    exact not_mem_graft_exchange copiedHolds within directly fresh nodeInOwner listed

/-! ### What a round does -/

/-- A round that expands a collection: what it finds in the tree below the root, and the tree that
it leaves there. -/
structure Expands (context after : Context) (tree container owner list qualifier : Tree)
    (path : String) (entries : List Json) (copies : List Tree) : Prop where
  next : nextQualifier? context.working = some qualifier.number
  within : container ∈ tree.preorder
  directly : owner ∈ container.children
  member : owner.member? Key.qualifiers = some list
  inside : qualifier ∈ list.children
  tagged : Tree.view.hasTag QualifierType.collectionMappingInfo.tag qualifier = true
  hasPath : qualifier.stringMember? Key.value = some path
  selects : Query.selectManyIn context.data (Binding.ofPath path).countPath
    (context.working.qualifierCardinality qualifier.number).isMandatory = .ok entries
  fits : (∃ number elements, container = .array number elements) ∨ entries.length = 0
  length : copies.length = entries.length
  areCopies : ∀ (index : Nat) (copy : Tree), copies[index]? = some copy →
    Tree.IsCopy context.working.size path (Binding.ofPath path) index owner copy
  wellFormed : after.working.WellFormed
  grows : context.working.size ≤ after.working.size
  holds : after.working.Holds (tree.graft (container.exchange owner.number copies))

theorem exists_expands {after : Context} (wellFormed : context.working.WellFormed)
    (holds : context.working.Holds tree) (top : tree.number = Document.root)
    (done : round context = .ok (some after)) :
    ∃ container owner list qualifier path entries copies,
      Expands context after tree container owner list qualifier path entries copies := by
  rw [round] at done
  cases next : nextQualifier? context.working with
  | none => rw [next] at done; cases done
  | some number =>
      rw [next] at done
      dsimp only at done
      cases ran : expandQualifier { context with qualifier? := some number } number with
      | error failure => rw [ran] at done; cases done
      | ok result =>
          rw [ran] at done
          cases done
          have listed := mem_of_leastBy next
          rw [← top, wellFormed.qualifiers_eq holds] at listed
          obtain ⟨qualifier, found, rfl⟩ := List.mem_map.mp listed
          obtain ⟨owner, within, list, member, inside, tagged⟩ :=
            Tree.mem_qualifiersBelow_iff.mp found
          have ownerHolds := holds.of_mem_preorder within
          have qualifierHolds := holds.of_mem_preorder (Tree.mem_preorder_of_qualifier found)
          obtain ⟨ownerNumber, containerNumber, path, entries, copied, marked, node, owned, isKind,
            link, hasPath, selects, adds, marks, _⟩ := expandQualifier_eq_ok.mp ran
          change context.working.qualifierOwner? qualifier.number = some ownerNumber at owned
          rw [ownerHolds.qualifierOwner? member inside] at owned
          cases owned
          change context.working.qualifierValue? qualifier.number = some path at hasPath
          rw [Document.qualifierValue?, qualifierHolds.stringMember?] at hasPath
          change context.working.parent? owner.number = some containerNumber at link
          rcases Tree.exists_parent within with same | ⟨container, containerIn, directly⟩
          · exact absurd (same ▸ top) (wellFormed.ne_root link)
          · have containerHolds := holds.of_mem_preorder containerIn
            rw [containerHolds.linked directly] at link
            cases link
            have fits : (∃ number elements, container = .array number elements) ∨
                entries.length = 0 := by
              cases count : entries.length with
              | zero => exact Or.inr rfl
              | succ more =>
                  rw [count, addCopies] at adds
                  obtain ⟨longer, first, _⟩ := bind_eq_ok.mp adds
                  exact Or.inl (array_of_addCopy wellFormed containerHolds ownerHolds first)
            obtain ⟨result, copies, again, _, length, areCopies, afterWF, grows, afterHolds⟩ :=
              @expandQualifier_ok { context with qualifier? := some qualifier.number } tree
                container owner list qualifier wellFormed holds containerIn directly member inside tagged
                isKind path hasPath entries selects fits
            rw [ran] at again
            cases again
            exact ⟨container, owner, list, qualifier, path, entries, copies,
              { next, within := containerIn, directly, member, inside, tagged, hasPath, selects
                fits, length, areCopies, wellFormed := afterWF, grows, holds := afterHolds }⟩

theorem Expands.triggers_ne_nil {after : Context} {path : String} {entries : List Json}
    {copies : List Tree}
    (expands : Expands context after tree container owner list qualifier path entries copies) :
    owner.triggers path ≠ [] := by
  have isTrigger : qualifier.number ∈ owner.triggers path := by
    refine List.mem_map_of_mem (List.mem_filter.mpr ⟨?_, ?_⟩)
    · exact Tree.mem_qualifiersBelow_iff.mpr
        ⟨owner, owner.self_mem_preorder, list, expands.member, expands.inside, expands.tagged⟩
    · rw [expands.hasPath]
      exact beq_self_eq_true _
  exact List.ne_nil_of_mem isTrigger

end Expansion

end TemplateFill
