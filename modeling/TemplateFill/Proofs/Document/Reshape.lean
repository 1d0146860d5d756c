import TemplateFill.Proofs.Document.Members

/-!
Dropping nodes and rewriting texts.

Unlinking nodes takes them out of every held tree, with all that lies below them. Writing texts into
scalar nodes changes these scalars and nothing else. Both are stated for several nodes at a time.
-/

namespace TemplateFill

namespace Tree

/-! ### Trees without some of their nodes -/

/-- The tree without those of its nodes below the top that are gone, and without what lies below
them. -/
def without (gone : NodeId → Bool) (tree : Tree) : Tree :=
  match tree with
  | .scalar number value => .scalar number value
  | .array number elements =>
      .array number ((elements.filter fun element => !gone element.number).map fun element =>
        element.without gone)
  | .object number members =>
      .object number ((members.filter fun member => !gone member.2.number).map fun member =>
        (member.1, member.2.without gone))
termination_by tree
decreasing_by
  · exact @sizeOf_children_lt (.array _ elements) _ (by assumption)
  · exact @sizeOf_children_lt (.object _ members) _ (List.mem_map_of_mem (by assumption))

variable {gone : NodeId → Bool} {tree : Tree}

theorem without_eq (gone : NodeId → Bool) (tree : Tree) :
    tree.without gone =
      (tree.filterChildren fun child => !gone child.number).mapChildren (without gone) := by
  cases tree <;> rw [without] <;> rfl

@[simp] theorem number_without (gone : NodeId → Bool) (tree : Tree) :
    (tree.without gone).number = tree.number := by
  rw [without_eq, number_mapChildren, number_filterChildren]

@[simp] theorem children_without (gone : NodeId → Bool) (tree : Tree) :
    (tree.without gone).children =
      (tree.children.filter fun child => !gone child.number).map (without gone) := by
  rw [without_eq, children_mapChildren, children_filterChildren]

theorem filterChildren_eq_self {keep : Tree → Bool} (all : ∀ child ∈ tree.children, keep child = true) :
    tree.filterChildren keep = tree := by
  cases tree with
  | scalar number value => rfl
  | array number elements => exact congrArg (array number) (List.filter_eq_self.mpr all)
  | object number members =>
      exact congrArg (object number) (List.filter_eq_self.mpr fun member inside =>
        all member.2 (List.mem_map_of_mem inside))

theorem without_of_not_mem
    (kept : ∀ child ∈ tree.children, ∀ number ∈ child.numbers, gone number = false) :
    tree.without gone = tree := by
  induction tree using induction with
  | step tree ih =>
      have present : ∀ child ∈ tree.children, (!gone child.number) = true := fun child inside => by
        rw [kept child inside child.number child.number_mem_numbers]
        rfl
      rw [without_eq, filterChildren_eq_self present]
      refine mapChildren_eq_self _ _ fun child inside => ih child inside ?_
      intro grandchild directly number deeper
      exact kept child inside number
        (numbers_subset (child_mem_preorder directly) deeper)

theorem filterChildren_mapChildren (keep : Tree → Bool) (change : Tree → Tree) (tree : Tree) :
    (tree.mapChildren change).filterChildren keep =
      (tree.filterChildren fun child => keep (change child)).mapChildren change := by
  cases tree with
  | scalar number value => rfl
  | array number elements =>
      simp only [mapChildren, filterChildren, List.filter_map, Function.comp_def]
  | object number members =>
      simp only [mapChildren, filterChildren, List.filter_map, Function.comp_def]

theorem filterChildren_filterChildren (first second : Tree → Bool) (tree : Tree) :
    (tree.filterChildren first).filterChildren second =
      tree.filterChildren fun child => first child && second child := by
  cases tree with
  | scalar number value => rfl
  | array number elements => simp only [filterChildren, List.filter_filter, Bool.and_comm]
  | object number members => simp only [filterChildren, List.filter_filter, Bool.and_comm]

theorem without_without (first second : NodeId → Bool) (tree : Tree) :
    (tree.without first).without second =
      tree.without fun number => first number || second number := by
  induction tree using induction with
  | step tree ih =>
      rw [without_eq second, without_eq first, filterChildren_mapChildren, mapChildren_mapChildren,
        filterChildren_filterChildren, without_eq]
      simp only [number_without, Bool.not_or]
      refine mapChildren_congr _ _ _ fun child inside => ih child ?_
      rw [children_filterChildren] at inside
      exact (List.mem_filter.mp inside).1

/-! ### Trees with other texts -/

def retext (texts : NodeId → Option String) (tree : Tree) : Tree :=
  match tree with
  | .scalar number value => .scalar number ((texts number).elim value .string)
  | .array number elements => .array number (elements.map fun element => element.retext texts)
  | .object number members =>
      .object number (members.map fun member => (member.1, member.2.retext texts))
termination_by tree
decreasing_by
  · exact @sizeOf_children_lt (.array _ elements) _ (by assumption)
  · exact @sizeOf_children_lt (.object _ members) _ (List.mem_map_of_mem (by assumption))

variable {texts : NodeId → Option String}

@[simp] theorem number_retext (texts : NodeId → Option String) (tree : Tree) :
    (tree.retext texts).number = tree.number := by
  cases tree <;> rw [retext] <;> rfl

@[simp] theorem children_retext (texts : NodeId → Option String) (tree : Tree) :
    (tree.retext texts).children = tree.children.map (retext texts) := by
  cases tree with
  | scalar number value => rw [retext]; rfl
  | array number elements => rw [retext]; rfl
  | object number members =>
      rw [retext]
      simp only [children, List.map_map, Function.comp_def]

theorem member?_retext (texts : NodeId → Option String) (tree : Tree) (key : String) :
    (tree.retext texts).member? key = (tree.member? key).map (retext texts) := by
  cases tree with
  | scalar number value => rw [retext]; rfl
  | array number elements => rw [retext]; rfl
  | object number members =>
      rw [retext]
      exact memberOf?_map key (retext texts) members

theorem preorder_retext (texts : NodeId → Option String) (tree : Tree) :
    (tree.retext texts).preorder = tree.preorder.map (retext texts) := by
  induction tree using induction with
  | step tree ih =>
      rw [preorder_eq, preorder_eq tree, children_retext, List.map_cons, List.flatMap_map,
        List.map_flatMap]
      exact congrArg _ (List.flatMap_congr ih)

@[simp] theorem numbers_retext (texts : NodeId → Option String) (tree : Tree) :
    (tree.retext texts).numbers = tree.numbers := by
  rw [numbers, numbers, preorder_retext, List.map_map]
  exact List.map_congr_left fun below _ => number_retext texts below

theorem retext_of_not_mem (kept : ∀ number ∈ tree.numbers, texts number = none) :
    tree.retext texts = tree := by
  induction tree using induction with
  | step tree ih =>
      have below : ∀ child ∈ tree.children, child.retext texts = child := fun child inside =>
        ih child inside fun number deeper =>
          kept number (numbers_subset (child_mem_preorder inside) deeper)
      cases tree with
      | scalar number value => rw [retext, kept number (number_mem_numbers _)]; rfl
      | array number elements =>
          rw [retext]
          exact congrArg (array number) ((List.map_congr_left below).trans (List.map_id _))
      | object number members =>
          rw [retext]
          refine congrArg (object number) ((List.map_congr_left fun member inside => ?_).trans
            (List.map_id _))
          exact congrArg (Prod.mk member.1) (below member.2 (List.mem_map_of_mem inside))

theorem retext_retext (first second : NodeId → Option String) (tree : Tree) :
    (tree.retext first).retext second =
      tree.retext fun number => (second number).orElse fun _ => first number := by
  induction tree using induction with
  | step tree ih =>
      cases tree with
      | scalar number value =>
          rw [retext, retext, retext]
          cases second number <;> rfl
      | array number elements =>
          rw [retext, retext, retext, List.map_map]
          exact congrArg (array number) (List.map_congr_left ih)
      | object number members =>
          rw [retext, retext, retext, List.map_map]
          refine congrArg (object number) (List.map_congr_left fun member inside => ?_)
          exact congrArg (Prod.mk member.1) (ih member.2 (List.mem_map_of_mem inside))

/-- The texts of a list; of several for one number the last counts. -/
def textsOf : List (NodeId × String) → NodeId → Option String
  | [], _ => none
  | (number, text) :: rest, other =>
      (textsOf rest other).orElse fun _ => if other = number then some text else none

theorem textsOf_of_not_mem {entries : List (NodeId × String)} {number : NodeId}
    (outside : number ∉ entries.map Prod.fst) : textsOf entries number = none := by
  induction entries with
  | nil => rfl
  | cons entry rest ih =>
      obtain ⟨other, text⟩ := entry
      rw [List.map_cons, List.mem_cons, not_or] at outside
      rw [textsOf, ih outside.2, if_neg outside.1]
      rfl

theorem mem_of_textsOf {entries : List (NodeId × String)} {number : NodeId} {text : String}
    (found : textsOf entries number = some text) : (number, text) ∈ entries := by
  induction entries with
  | nil => cases found
  | cons entry rest ih =>
      obtain ⟨other, first⟩ := entry
      rw [textsOf] at found
      cases later : textsOf rest number with
      | some last =>
          rw [later] at found
          cases found
          exact List.mem_cons_of_mem _ (ih later)
      | none =>
          rw [later] at found
          change (if number = other then some first else none) = some text at found
          split at found
          · rename_i same
            cases found
            rw [same]
            exact List.mem_cons_self ..
          · cases found

theorem exists_textsOf {entries : List (NodeId × String)} {number : NodeId}
    (listed : number ∈ entries.map Prod.fst) : ∃ text, textsOf entries number = some text := by
  induction entries with
  | nil => cases listed
  | cons entry rest ih =>
      obtain ⟨other, first⟩ := entry
      rw [textsOf]
      cases later : textsOf rest number with
      | some last => exact ⟨last, rfl⟩
      | none =>
          rcases List.mem_cons.mp listed with same | behind
          · exact ⟨first, if_pos same⟩
          · obtain ⟨text, found⟩ := ih behind
            rw [later] at found
            cases found

end Tree

namespace Document

variable {document : Document} {tree : Tree}

/-! ### Unlinking nodes -/

theorem Holds.graft_filterChildren (holds : document.Holds tree) {parent child : Tree}
    (within : parent ∈ tree.preorder) (inside : child ∈ parent.children) :
    tree.graft (parent.filterChildren fun other => other.number != child.number) =
      tree.without fun number => number == child.number := by
  have parentHolds := holds.of_mem_preorder within
  induction holds with
  | @intro tree present content linked below ih =>
      have holds : document.Holds tree := .intro present content linked below
      by_cases here : tree.number = parent.number
      · have same := holds.unique parentHolds here
        subst same
        rw [Tree.graft_of_eq (by rw [Tree.number_filterChildren]), Tree.without_eq]
        refine (Tree.mapChildren_eq_self _ _ fun other remaining => ?_).symm
        rw [Tree.children_filterChildren, List.mem_filter] at remaining
        obtain ⟨sibling, different⟩ := remaining
        refine Tree.without_of_not_mem fun grandchild directly number deeper => ?_
        rw [beq_eq_false_iff_ne]
        rintro rfl
        refine holds.disjoint_children sibling inside (bne_iff_ne.mp different)
          (Tree.numbers_subset (Tree.child_mem_preorder directly) deeper)
          child.number_mem_numbers
      · have whole : tree.filterChildren (fun other => !other.number == child.number) = tree := by
          refine Tree.filterChildren_eq_self fun other directly => ?_
          rw [Bool.not_eq_true', beq_eq_false_iff_ne]
          intro same
          have link := holds.linked directly
          rw [same, parentHolds.linked inside] at link
          exact here (Option.some.inj link).symm
        rw [Tree.graft_of_ne (by rwa [Tree.number_filterChildren]), Tree.without_eq, whole]
        refine Tree.mapChildren_congr _ _ _ fun other directly => ?_
        by_cases deeper : parent ∈ other.preorder
        · exact ih other directly deeper
        · have otherHolds := holds.of_mem_children directly
          have noParent : parent.number ∉ other.numbers := by
            intro shared
            obtain ⟨found, foundIn, same⟩ := Tree.exists_of_mem_numbers shared
            have equal := (otherHolds.of_mem_preorder foundIn).unique parentHolds same
            exact deeper (equal ▸ foundIn)
          rw [Tree.graft_of_not_mem (by rwa [Tree.number_filterChildren]),
            Tree.without_of_not_mem]
          intro grandchild foundIn number within
          rw [beq_eq_false_iff_ne]
          rintro rfl
          rcases otherHolds.parent_mem
              (Tree.numbers_subset (Tree.child_mem_preorder foundIn) within) with
            same | ⟨above, aboveIn, link⟩
          · exact otherHolds.number_not_mem_child foundIn (same ▸ within)
          · rw [parentHolds.linked inside] at link
            cases link
            exact noParent aboveIn

/-- Unlinking a node takes it out of every held tree that it is not on top of. -/
theorem Holds.removeNode (holds : document.Holds tree) (wellFormed : document.WellFormed)
    {node : NodeId} (below : node ≠ tree.number) :
    (document.removeNode node).Holds (tree.without fun number => number == node) := by
  by_cases inside : node ∈ tree.numbers
  · obtain ⟨child, within, rfl⟩ := Tree.exists_of_mem_numbers inside
    rcases Tree.exists_parent within with same | ⟨parent, parentWithin, directly⟩
    · exact absurd (congrArg Tree.number same) below
    · have edit := removeNode_editAt wellFormed (holds.of_mem_preorder parentWithin) directly
      rw [← holds.graft_filterChildren parentWithin directly]
      exact edit.holds_graft holds
  · have unchanged : (tree.without fun number => number == node) = tree := by
      refine Tree.without_of_not_mem fun child directly number deeper => ?_
      rw [beq_eq_false_iff_ne]
      rintro rfl
      exact inside (Tree.numbers_subset (Tree.child_mem_preorder directly) deeper)
    rw [unchanged]
    cases link : document.parent? node with
    | none => rwa [removeNode_of_none link]
    | some parent =>
        obtain ⟨above, child, aboveHolds, directly, rfl, rfl⟩ := wellFormed.exists_above link
        apply (removeNode_editAt wellFormed aboveHolds directly).holds_of_not_mem holds
        rw [Tree.number_filterChildren]
        intro shared
        obtain ⟨found, foundIn, same⟩ := Tree.exists_of_mem_numbers shared
        have equal := (holds.of_mem_preorder foundIn).unique aboveHolds same
        subst equal
        exact inside (Tree.mem_numbers_of_mem_preorder
          (Tree.preorder_trans foundIn (Tree.child_mem_preorder directly)))

theorem WellFormed.removeNodes (wellFormed : document.WellFormed) (nodes : List NodeId) :
    (nodes.foldl Document.removeNode document).WellFormed ∧
      (nodes.foldl Document.removeNode document).size = document.size ∧
      (∀ other ∉ nodes, (nodes.foldl Document.removeNode document).parent? other =
        document.parent? other) ∧
      ∀ tree : Tree, document.Holds tree → tree.number ∉ nodes →
        (nodes.foldl Document.removeNode document).Holds (tree.without nodes.contains) := by
  induction nodes generalizing document with
  | nil =>
      refine ⟨wellFormed, rfl, fun _ _ => rfl, fun tree holds _ => ?_⟩
      have unchanged : tree.without [].contains = tree :=
        Tree.without_of_not_mem fun _ _ _ _ => rfl
      rwa [unchanged]
  | cons node rest ih =>
      obtain ⟨kept, size, links, trees⟩ := ih (wellFormed.removeNode node)
      refine ⟨kept, size.trans (size_removeNode document node), ?_, ?_⟩
      · intro other outside
        rw [List.mem_cons, not_or] at outside
        exact (links other outside.2).trans (parent?_removeNode_of_ne outside.1)
      · intro tree holds outside
        rw [List.mem_cons, not_or] at outside
        have first := holds.removeNode wellFormed (Ne.symm outside.1)
        have all := trees _ first (by rw [Tree.number_without]; exact outside.2)
        rw [Tree.without_without] at all
        have same : (fun number => number == node || rest.contains number) =
            (node :: rest).contains := funext fun number => (List.contains_cons).symm
        rw [same] at all
        exact all

/-! ### Writing texts -/

def writeTexts (document : Document) (entries : List (NodeId × String)) : Document :=
  entries.foldl (fun doc entry => doc.replaceValue entry.1 (.text entry.2)) document

theorem Holds.graft_text (holds : document.Holds tree) {node : NodeId} {value : Scalar}
    (recorded : document.content node = .scalar value) (text : String) :
    tree.graft (.scalar node (.string text)) =
      tree.retext fun number => if number = node then some text else none := by
  induction holds with
  | @intro tree present content linked below ih =>
      by_cases here : tree.number = node
      · subst here
        rw [content] at recorded
        cases tree with
        | scalar number old =>
            have whole : (Tree.scalar number old).graft (.scalar number (.string text)) =
                .scalar number (.string text) := Tree.graft_of_eq rfl
            apply whole.trans
            rw [Tree.retext, if_pos (show number = Tree.number _ from rfl)]
            rfl
        | array number elements => cases recorded
        | object number members => cases recorded
      · rw [Tree.graft_of_ne here]
        cases tree with
        | scalar number old =>
            rw [Tree.retext, if_neg (show ¬number = node from here)]
            rfl
        | array number elements =>
            rw [Tree.retext]
            exact congrArg (Tree.array number) (List.map_congr_left ih)
        | object number members =>
            rw [Tree.retext]
            refine congrArg (Tree.object number) (List.map_congr_left fun member inside => ?_)
            exact congrArg (Prod.mk member.1) (ih member.2 (List.mem_map_of_mem inside))

theorem WellFormed.writeText (wellFormed : document.WellFormed) {node : NodeId} {value : Scalar}
    (present : node < document.size) (recorded : document.content node = .scalar value)
    (text : String) :
    (document.replaceValue node (.text text)).WellFormed ∧
      (document.replaceValue node (.text text)).size = document.size ∧
      (∀ other, (document.replaceValue node (.text text)).parent? other = document.parent? other) ∧
      (∀ other, (document.replaceValue node (.text text)).content other =
        if other = node then .scalar (.string text) else document.content other) ∧
      ∀ tree : Tree, document.Holds tree → (document.replaceValue node (.text text)).Holds
        (tree.retext fun number => if number = node then some text else none) := by
  have edit := replaceValue_editAt wellFormed present (.text text)
  have children : document.children node = [] := by
    rw [Document.children, recorded]
    rfl
  have size : (document.replaceValue node (.text text)).size = document.size :=
    size_replaceValue ..
  have same : document.replaceValue node (.text text) =
      document.setContent node (.scalar (.string text)) := by
    rw [replaceValue_eq, children]
    have none : document.extend [] = document := congrArg Document.mk Array.append_empty
    change ((document.extend []).setContent node _) = _
    rw [none]
    rfl
  refine ⟨edit.wellFormed wellFormed, size, ?_, ?_, ?_⟩
  · intro other
    rw [same, parent?_setContent]
  · intro other
    by_cases here : other = node
    · rw [if_pos here, here, same, content_setContent_self present]
    · rw [if_neg here, same, content_setContent_of_ne (Ne.symm here)]
  · intro tree holds
    rw [← holds.graft_text recorded text]
    exact edit.holds_graft holds

theorem WellFormed.writeTexts (wellFormed : document.WellFormed)
    (entries : List (NodeId × String))
    (scalars : ∀ entry ∈ entries, entry.1 < document.size ∧
      ∃ value, document.content entry.1 = .scalar value) :
    (document.writeTexts entries).WellFormed ∧
      (document.writeTexts entries).size = document.size ∧
      (∀ other, (document.writeTexts entries).parent? other = document.parent? other) ∧
      ∀ tree : Tree, document.Holds tree →
        (document.writeTexts entries).Holds (tree.retext (Tree.textsOf entries)) := by
  induction entries generalizing document with
  | nil =>
      refine ⟨wellFormed, rfl, fun _ => rfl, fun tree holds => ?_⟩
      have unchanged : tree.retext (Tree.textsOf []) = tree := Tree.retext_of_not_mem fun _ _ => rfl
      rwa [unchanged]
  | cons entry rest ih =>
      obtain ⟨node, text⟩ := entry
      obtain ⟨present, value, recorded⟩ := scalars (node, text) (List.mem_cons_self ..)
      obtain ⟨first, firstSize, firstLinks, firstContents, firstTrees⟩ :=
        wellFormed.writeText present recorded text
      have stillScalars : ∀ entry ∈ rest,
          entry.1 < (document.replaceValue node (.text text)).size ∧
            ∃ value, (document.replaceValue node (.text text)).content entry.1 = .scalar value := by
        intro entry inside
        obtain ⟨entryPresent, old, entryRecorded⟩ := scalars entry (List.mem_cons_of_mem _ inside)
        rw [firstSize, firstContents]
        refine ⟨entryPresent, ?_⟩
        split
        · exact ⟨_, rfl⟩
        · exact ⟨old, entryRecorded⟩
      obtain ⟨kept, size, links, trees⟩ := ih first stillScalars
      refine ⟨kept, size.trans firstSize, fun other => (links other).trans (firstLinks other), ?_⟩
      intro tree holds
      have all := trees _ (firstTrees tree holds)
      rw [Tree.retext_retext] at all
      exact all

end Document

end TemplateFill
