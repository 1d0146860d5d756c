import TemplateFill.Proofs.Document.Tree
import Mathlib.Data.List.Nodup
import Mathlib.Data.List.Perm.Subperm

/-!
Which trees a document holds, and when its links form a forest.

A document holds a tree if its table records that tree node by node, with the parent links to match.
In a well-formed document every node is on top of a tree that is held, and every link upwards is
answered by one downwards. Such a document is a forest: a held tree is settled by its number, its
numbers are distinct, and the attached nodes are those of the tree on top of which the root stands.
-/

namespace TemplateFill

namespace Document

/-! ### Behind the last node -/

theorem content_of_size_le {document : Document} {node : NodeId}
    (beyond : document.size ≤ node) : document.content node = .scalar .null := by
  unfold content
  rw [Array.getElem?_eq_none beyond]

theorem parent?_of_size_le {document : Document} {node : NodeId}
    (beyond : document.size ≤ node) : document.parent? node = none := by
  unfold parent?
  rw [Array.getElem?_eq_none beyond]
  rfl

theorem children_of_size_le {document : Document} {node : NodeId}
    (beyond : document.size ≤ node) : document.children node = [] := by
  rw [children, content_of_size_le beyond]
  rfl

theorem lt_size_of_parent? {document : Document} {node parent : NodeId}
    (link : document.parent? node = some parent) : node < document.size := by
  by_contra beyond
  rw [parent?_of_size_le (Nat.le_of_not_lt beyond)] at link
  cases link

theorem lt_size_of_content {document : Document} {node : NodeId} {content : Content}
    (recorded : document.content node = content) (written : content ≠ .scalar .null) :
    node < document.size := by
  by_contra beyond
  rw [content_of_size_le (Nat.le_of_not_lt beyond)] at recorded
  exact written recorded.symm

/-! ### Held trees -/

/-- The document records the tree: its contents, and the links from its nodes to their parents. -/
inductive Holds (document : Document) : Tree → Prop
  | intro {tree : Tree} (present : tree.number < document.size)
      (content : document.content tree.number = tree.content)
      (linked : ∀ child ∈ tree.children, document.parent? child.number = some tree.number)
      (below : ∀ child ∈ tree.children, document.Holds child) : document.Holds tree

namespace Holds

variable {document : Document} {tree : Tree}

theorem present (holds : document.Holds tree) : tree.number < document.size := by
  cases holds with
  | intro present content linked below => exact present

theorem content (holds : document.Holds tree) : document.content tree.number = tree.content := by
  cases holds with
  | intro present content linked below => exact content

theorem linked (holds : document.Holds tree) {child : Tree} (inside : child ∈ tree.children) :
    document.parent? child.number = some tree.number := by
  cases holds with
  | intro present content linked below => exact linked child inside

theorem of_mem_children (holds : document.Holds tree) {child : Tree}
    (inside : child ∈ tree.children) : document.Holds child := by
  cases holds with
  | intro present content linked below => exact below child inside

theorem of_mem_preorder (holds : document.Holds tree) {below : Tree}
    (inside : below ∈ tree.preorder) : document.Holds below := by
  induction holds with
  | @intro tree present content linked held ih =>
      rcases Tree.mem_preorder_iff.mp inside with same | ⟨child, directly, deeper⟩
      · subst same
        exact .intro present content linked held
      · exact ih child directly deeper

theorem children (holds : document.Holds tree) :
    document.children tree.number = tree.children.map Tree.number := by
  rw [Document.children, holds.content, Tree.content_children]

theorem lt_size_of_mem_numbers (holds : document.Holds tree) {number : NodeId}
    (inside : number ∈ tree.numbers) : number < document.size := by
  obtain ⟨below, within, rfl⟩ := Tree.exists_of_mem_numbers inside
  exact (holds.of_mem_preorder within).present

theorem member? (holds : document.Holds tree) (key : String) :
    document.member? key tree.number = (tree.member? key).map Tree.number := by
  rw [Document.member?, holds.content]
  cases tree with
  | scalar number value => rfl
  | array number elements => rfl
  | object number members => exact memberOf?_map key Tree.number members

theorem element? (holds : document.Holds tree) (position : Nat) :
    document.view.element? position tree.number = (tree.element? position).map Tree.number := by
  change (document.elements tree.number)[position]? = _
  rw [Document.elements, holds.content]
  cases tree with
  | scalar number value => rfl
  | array number elements => exact List.getElem?_map
  | object number members => rfl

theorem scalar? (holds : document.Holds tree) :
    document.scalar? tree.number = tree.scalar? := by
  rw [Document.scalar?, holds.content]
  cases tree with
  | scalar number value => rfl
  | array number elements => rfl
  | object number members => rfl

private theorem eq_of_map_eq {α β : Type} (name : α → β) :
    ∀ left right : List α, left.map name = right.map name →
      (∀ a ∈ left, ∀ b ∈ right, name a = name b → a = b) → left = right
  | [], [], _, _ => rfl
  | [], _ :: _, same, _ => by cases same
  | _ :: _, [], same, _ => by cases same
  | a :: left, b :: right, same, settled => by
      rw [List.map_cons, List.map_cons, List.cons.injEq] at same
      have heads := settled a (List.mem_cons_self ..) b (List.mem_cons_self ..) same.1
      have tails := eq_of_map_eq name left right same.2 fun a' inLeft b' inRight =>
        settled a' (List.mem_cons_of_mem _ inLeft) b' (List.mem_cons_of_mem _ inRight)
      rw [heads, tails]

/-- A held tree is settled by its number. -/
theorem unique {first second : Tree} (left : document.Holds first)
    (right : document.Holds second) (same : first.number = second.number) : first = second := by
  induction left generalizing second with
  | @intro first present content linked below ih =>
      have contents : first.content = second.content := by
        rw [← content, same, right.content]
      cases first with
      | scalar number value =>
          cases second with
          | scalar number' value' =>
              cases same
              cases contents
              rfl
          | array number' elements' => cases contents
          | object number' members' => cases contents
      | array number elements =>
          cases second with
          | scalar number' value' => cases contents
          | array number' elements' =>
              cases same
              have elementsEq : elements = elements' :=
                eq_of_map_eq Tree.number _ _ (Content.array.inj contents)
                  fun a inLeft b inRight equal => ih a inLeft (right.of_mem_children inRight) equal
              rw [elementsEq]
          | object number' members' => cases contents
      | object number members =>
          cases second with
          | scalar number' value' => cases contents
          | array number' elements' => cases contents
          | object number' members' =>
              cases same
              have membersEq : members = members' :=
                eq_of_map_eq _ _ _ (Content.object.inj contents)
                  fun a inLeft b inRight equal => Prod.ext (Prod.mk.inj equal).1
                    (ih a.2 (List.mem_map_of_mem inLeft)
                      (right.of_mem_children (List.mem_map_of_mem inRight)) (Prod.mk.inj equal).2)
              rw [membersEq]

theorem number_not_mem_child (holds : document.Holds tree) {child : Tree}
    (inside : child ∈ tree.children) : tree.number ∉ child.numbers := by
  intro repeated
  obtain ⟨below, within, same⟩ := Tree.exists_of_mem_numbers repeated
  have held := (holds.of_mem_children inside).of_mem_preorder within
  have equal := held.unique holds same
  subst equal
  have smaller := Tree.sizeOf_children_lt inside
  have atMost := Tree.sizeOf_preorder_le within
  omega

theorem child_ne_number (holds : document.Holds tree) {parent child : Tree}
    (within : parent ∈ tree.preorder) (directly : child ∈ parent.children) :
    child.number ≠ tree.number := by
  intro same
  have held := holds.of_mem_preorder within
  have equal := (held.of_mem_children directly).unique holds same
  subst equal
  exact held.number_not_mem_child directly (Tree.mem_numbers_of_mem_preorder within)

theorem ne_of_mem_child (holds : document.Holds tree) {child : Tree}
    (inside : child ∈ tree.children) {node : NodeId} (within : node ∈ child.numbers) :
    node ≠ tree.number := by
  rintro rfl
  exact holds.number_not_mem_child inside within

theorem parent_mem (holds : document.Holds tree) {number : NodeId}
    (inside : number ∈ tree.numbers) :
    number = tree.number ∨ ∃ parent ∈ tree.numbers, document.parent? number = some parent := by
  obtain ⟨below, within, rfl⟩ := Tree.exists_of_mem_numbers inside
  rcases Tree.exists_parent within with same | ⟨parent, present, directly⟩
  · exact Or.inl (congrArg Tree.number same)
  · exact Or.inr ⟨parent.number, Tree.mem_numbers_of_mem_preorder present,
      (holds.of_mem_preorder present).linked directly⟩

theorem disjoint_children (holds : document.Holds tree) {left right : Tree}
    (inLeft : left ∈ tree.children) (inRight : right ∈ tree.children)
    (different : left.number ≠ right.number) : List.Disjoint left.numbers right.numbers := by
  have top : left.number ∉ right.numbers := by
    intro shared
    rcases (holds.of_mem_children inRight).parent_mem shared with same | ⟨parent, within, link⟩
    · exact different same
    · rw [holds.linked inLeft] at link
      cases link
      exact holds.number_not_mem_child inRight within
  have down : ∀ below : Tree, below ∈ left.preorder → below.number ∉ right.numbers →
      ∀ number ∈ below.numbers, number ∉ right.numbers := by
    intro below
    induction below using Tree.induction with
    | step below ih =>
        intro within outside number inside
        rcases Tree.mem_numbers_iff.mp inside with rfl | ⟨child, directly, deeper⟩
        · exact outside
        · have belowHeld := (holds.of_mem_children inLeft).of_mem_preorder within
          refine ih child directly (Tree.preorder_trans within (Tree.child_mem_preorder directly))
            ?_ number deeper
          intro shared
          rcases (holds.of_mem_children inRight).parent_mem shared with same | ⟨parent, inside', link⟩
          · have upper := holds.linked inRight
            rw [← same, belowHeld.linked directly] at upper
            have repeated := Tree.mem_numbers_of_mem_preorder within
            rw [Option.some.inj upper] at repeated
            exact holds.number_not_mem_child inLeft repeated
          · rw [belowHeld.linked directly] at link
            cases link
            exact outside inside'
  exact fun number inLeft' => down left left.self_mem_preorder top number inLeft'

end Holds

/-! ### Forests -/

/-- A document whose links form a forest, with the root on top of one tree. -/
structure WellFormed (document : Document) : Prop where
  rooted : root < document.size
  rootless : document.parent? root = none
  listed : ∀ {node parent : NodeId},
    document.parent? node = some parent → node ∈ document.children parent
  distinct : ∀ node : NodeId, (document.children node).Nodup
  grounded : ∀ {node : NodeId},
    node < document.size → ∃ tree : Tree, tree.number = node ∧ document.Holds tree

namespace WellFormed

variable {document : Document} {tree : Tree}

theorem ne_root (wellFormed : document.WellFormed) {node parent : NodeId}
    (link : document.parent? node = some parent) : node ≠ root := by
  rintro rfl
  rw [wellFormed.rootless] at link
  cases link

theorem mem_children (wellFormed : document.WellFormed) (holds : document.Holds tree)
    {node : NodeId} (link : document.parent? node = some tree.number) :
    node ∈ tree.children.map Tree.number := by
  rw [← holds.children]
  exact wellFormed.listed link

theorem nodup_children (wellFormed : document.WellFormed) (holds : document.Holds tree) :
    (tree.children.map Tree.number).Nodup := by
  rw [← holds.children]
  exact wellFormed.distinct tree.number

theorem numbers_nodup (wellFormed : document.WellFormed) (holds : document.Holds tree) :
    tree.numbers.Nodup := by
  induction holds with
  | @intro tree present content linked below ih =>
      have holds : document.Holds tree := .intro present content linked below
      rw [Tree.numbers_eq, List.nodup_cons]
      constructor
      · intro repeated
        obtain ⟨child, inside, deeper⟩ := List.mem_flatMap.mp repeated
        exact holds.number_not_mem_child inside deeper
      · rw [List.nodup_flatMap]
        refine ⟨ih, ?_⟩
        have apart : tree.children.Pairwise fun left right => left.number ≠ right.number :=
          List.pairwise_map.mp (wellFormed.nodup_children holds)
        exact apart.imp_of_mem fun inLeft inRight different =>
          holds.disjoint_children inLeft inRight different

theorem length_numbers_le (wellFormed : document.WellFormed) (holds : document.Holds tree) :
    tree.numbers.length ≤ document.size := by
  have inRange : tree.numbers ⊆ List.range document.size := fun number inside =>
    List.mem_range.mpr (holds.lt_size_of_mem_numbers inside)
  have atMost := ((wellFormed.numbers_nodup holds).subperm inRange).length_le
  rwa [List.length_range] at atMost

theorem child (wellFormed : document.WellFormed) {node number : NodeId}
    (inside : number ∈ document.children node) :
    node < document.size ∧ number < document.size ∧ document.parent? number = some node := by
  have present : node < document.size := by
    by_contra beyond
    rw [children_of_size_le (Nat.le_of_not_lt beyond)] at inside
    cases inside
  obtain ⟨tree, rfl, holds⟩ := wellFormed.grounded present
  rw [holds.children] at inside
  obtain ⟨below, directly, rfl⟩ := List.mem_map.mp inside
  exact ⟨present, (holds.of_mem_children directly).present, holds.linked directly⟩

theorem parent_present (wellFormed : document.WellFormed) {node parent : NodeId}
    (link : document.parent? node = some parent) : parent < document.size :=
  (wellFormed.child (wellFormed.listed link)).1

theorem exists_child (wellFormed : document.WellFormed) (holds : document.Holds tree)
    {node : NodeId} (link : document.parent? node = some tree.number) :
    ∃ child ∈ tree.children, child.number = node :=
  List.mem_map.mp (wellFormed.mem_children holds link)

theorem parent?_ne_of_fresh (wellFormed : document.WellFormed) (holds : document.Holds tree)
    {size : Nat} (fresh : ∀ number ∈ tree.numbers, number = tree.number ∨ size ≤ number)
    {node : NodeId} (old : node < size) : document.parent? node ≠ some tree.number := by
  intro link
  obtain ⟨child, directly, rfl⟩ := wellFormed.exists_child holds link
  have within := child.number_mem_numbers
  rcases fresh _ (Tree.numbers_subset (Tree.child_mem_preorder directly) within) with same | new
  · exact holds.ne_of_mem_child directly within same
  · exact Nat.not_lt.mpr new old

theorem exists_above (wellFormed : document.WellFormed) {node parent : NodeId}
    (link : document.parent? node = some parent) :
    ∃ above child : Tree, document.Holds above ∧ child ∈ above.children ∧
      above.number = parent ∧ child.number = node := by
  obtain ⟨above, rfl, holds⟩ := wellFormed.grounded (wellFormed.parent_present link)
  obtain ⟨child, inside, same⟩ := wellFormed.exists_child holds link
  exact ⟨above, child, holds, inside, rfl, same⟩

theorem exists_array (wellFormed : document.WellFormed) {array : NodeId} {listed : List NodeId}
    (recorded : document.content array = .array listed) :
    ∃ elements, document.Holds (.array array elements) ∧ listed = elements.map Tree.number := by
  obtain ⟨tree, rfl, holds⟩ := wellFormed.grounded (lt_size_of_content recorded nofun)
  rw [holds.content] at recorded
  cases tree with
  | array number elements =>
      cases recorded
      exact ⟨elements, holds, rfl⟩
  | _ => cases recorded

theorem exists_object (wellFormed : document.WellFormed) {object : NodeId}
    {listed : List (String × NodeId)} (recorded : document.content object = .object listed) :
    ∃ members, document.Holds (.object object members) ∧
      listed = members.map fun member => (member.1, member.2.number) := by
  obtain ⟨tree, rfl, holds⟩ := wellFormed.grounded (lt_size_of_content recorded nofun)
  rw [holds.content] at recorded
  cases tree with
  | object number members =>
      cases recorded
      exact ⟨members, holds, rfl⟩
  | _ => cases recorded

/-! ### Values -/

/-- A held tree is read whole within as many levels as it has nodes. -/
theorem toJsonWithin_eq (holds : document.Holds tree) :
    ∀ depth, tree.numbers.length ≤ depth →
      document.toJsonWithin depth tree.number = tree.toJson := by
  induction holds with
  | @intro tree present content linked below ih =>
      intro depth enough
      cases depth with
      | zero =>
          rw [Tree.numbers_eq] at enough
          cases enough
      | succ depth =>
          have shorter : ∀ child ∈ tree.children, child.numbers.length ≤ depth := by
            intro child inside
            exact Nat.le_of_lt_succ (Nat.lt_of_lt_of_le (Tree.length_numbers_lt inside) enough)
          rw [toJsonWithin, content]
          cases tree with
          | scalar number value => rw [Tree.toJson]; rfl
          | array number elements =>
              rw [Tree.toJson]
              simp only [Tree.content, List.map_map, Json.array.injEq]
              exact List.map_congr_left fun child inside =>
                ih child inside depth (shorter child inside)
          | object number members =>
              rw [Tree.toJson]
              simp only [Tree.content, List.map_map, Json.object.injEq]
              refine List.map_congr_left fun member inside => ?_
              have within : member.2 ∈ (Tree.object number members).children :=
                List.mem_map_of_mem inside
              exact congrArg (Prod.mk member.1) (ih member.2 within depth (shorter _ within))

theorem nodeToJson_eq (wellFormed : document.WellFormed) (holds : document.Holds tree) :
    document.nodeToJson tree.number = tree.toJson :=
  toJsonWithin_eq holds document.size (wellFormed.length_numbers_le holds)

end WellFormed

/-! ### Ancestors -/

theorem ancestor?_succ (document : Document) (node : NodeId) (levels : Nat) :
    document.ancestor? node (levels + 1) =
      (document.ancestor? node levels).bind document.parent? := by
  induction levels generalizing node with
  | zero =>
      rw [ancestor?, ancestor?, Option.bind_some]
      cases document.parent? node <;> rfl
  | succ levels ih =>
      rw [ancestor?, ancestor?]
      cases document.parent? node with
      | none => rfl
      | some parent => exact ih parent

theorem exists_ancestor?_of_topOf? {document : Document} {top : NodeId} :
    ∀ (levels : Nat) (node : NodeId), document.topOf? node levels = some top →
      ∃ above, document.ancestor? node above = some top := by
  intro levels
  induction levels with
  | zero => intro node found; cases found
  | succ levels ih =>
      intro node found
      rw [topOf?] at found
      cases link : document.parent? node with
      | none =>
          rw [link] at found
          exact ⟨0, found⟩
      | some parent =>
          rw [link] at found
          obtain ⟨above, climbed⟩ := ih parent found
          refine ⟨above + 1, ?_⟩
          rw [ancestor?, link]
          exact climbed

/-- The top of a held tree lies above every node of it. -/
theorem Holds.ancestor? {document : Document} {tree : Tree} (holds : document.Holds tree)
    {number : NodeId} (inside : number ∈ tree.numbers) :
    ∃ levels, document.ancestor? number levels = some tree.number := by
  induction holds with
  | @intro tree present content linked below ih =>
      rcases Tree.mem_numbers_iff.mp inside with rfl | ⟨child, directly, deeper⟩
      · exact ⟨0, rfl⟩
      · obtain ⟨levels, found⟩ := ih child directly deeper
        refine ⟨levels + 1, ?_⟩
        rw [ancestor?_succ, found]
        exact linked child directly

namespace WellFormed

variable {document : Document} {tree : Tree}

theorem mem_numbers_of_ancestor? (wellFormed : document.WellFormed)
    (holds : document.Holds tree) :
    ∀ (levels : Nat) (node : NodeId),
      document.ancestor? node levels = some tree.number → node ∈ tree.numbers := by
  intro levels
  induction levels with
  | zero =>
      intro node found
      cases found
      exact tree.number_mem_numbers
  | succ levels ih =>
      intro node found
      obtain ⟨parent, link, climbed⟩ := Option.bind_eq_some_iff.mp found
      obtain ⟨above, within, same⟩ := Tree.exists_of_mem_numbers (ih parent climbed)
      rw [← same] at link
      obtain ⟨child, directly, rfl⟩ := wellFormed.exists_child (holds.of_mem_preorder within) link
      exact Tree.mem_numbers_of_mem_preorder
        (Tree.preorder_trans within (Tree.child_mem_preorder directly))

/-- The nodes that do not lie at or below the top of a held tree are those outside the tree. -/
theorem ancestor?_ne_iff (wellFormed : document.WellFormed) (holds : document.Holds tree)
    {node : NodeId} :
    (∀ levels, document.ancestor? node levels ≠ some tree.number) ↔ node ∉ tree.numbers := by
  constructor
  · intro apart inside
    obtain ⟨levels, found⟩ := holds.ancestor? inside
    exact apart levels found
  · intro outside levels found
    exact outside (wellFormed.mem_numbers_of_ancestor? holds levels node found)

theorem exists_child_of_ancestor? (wellFormed : document.WellFormed)
    (holds : document.Holds tree) {levels : Nat} {node : NodeId}
    (found : document.ancestor? node (levels + 1) = some tree.number) :
    ∃ child ∈ tree.children, node ∈ child.numbers := by
  rw [ancestor?_succ] at found
  obtain ⟨below, climbed, link⟩ := Option.bind_eq_some_iff.mp found
  obtain ⟨child, directly, rfl⟩ := wellFormed.exists_child holds link
  exact ⟨child, directly,
    wellFormed.mem_numbers_of_ancestor? (holds.of_mem_children directly) levels node climbed⟩

theorem lt_size_of_ancestor? (wellFormed : document.WellFormed) {levels : Nat}
    {node above : NodeId} (found : document.ancestor? node (levels + 1) = some above) :
    above < document.size := by
  rw [ancestor?_succ] at found
  obtain ⟨below, climbed, link⟩ := Option.bind_eq_some_iff.mp found
  exact wellFormed.parent_present link

theorem ancestor?_ne_self (wellFormed : document.WellFormed) (node : NodeId) (levels : Nat) :
    document.ancestor? node (levels + 1) ≠ some node := by
  intro found
  obtain ⟨tree, rfl, holds⟩ := wellFormed.grounded (wellFormed.lt_size_of_ancestor? found)
  obtain ⟨child, directly, inside⟩ := wellFormed.exists_child_of_ancestor? holds found
  exact holds.number_not_mem_child directly inside

/-! ### Attachment -/

private theorem topOf?_climb (holds : document.Holds tree) {number : NodeId}
    (inside : number ∈ tree.numbers) :
    ∃ levels < tree.numbers.length, ∀ more,
      document.topOf? number (levels + more) = document.topOf? tree.number more := by
  induction holds with
  | @intro tree present content linked below ih =>
      rcases Tree.mem_numbers_iff.mp inside with same | ⟨child, directly, deeper⟩
      · subst same
        refine ⟨0, ?_, fun more => ?_⟩
        · rw [Tree.numbers_eq, List.length_cons]
          exact Nat.succ_pos _
        · rw [Nat.zero_add]
      · obtain ⟨levels, bounded, climbed⟩ := ih child directly deeper
        refine ⟨levels + 1, ?_, fun more => ?_⟩
        · exact Nat.lt_of_le_of_lt bounded (Tree.length_numbers_lt directly)
        · rw [Nat.add_assoc, climbed, Nat.add_comm 1 more, topOf?, linked child directly]

/-- The attached nodes are those of the tree below the root. -/
theorem isAttached_iff (wellFormed : document.WellFormed) (holds : document.Holds tree)
    (top : tree.number = root) (node : NodeId) :
    document.isAttached node = true ↔ node ∈ tree.numbers := by
  rw [isAttached, beq_iff_eq]
  constructor
  · intro found
    rw [← top] at found
    obtain ⟨levels, above⟩ := exists_ancestor?_of_topOf? _ node found
    exact wellFormed.mem_numbers_of_ancestor? holds levels node above
  · intro inside
    obtain ⟨levels, bounded, climbed⟩ := topOf?_climb holds inside
    have size := wellFormed.length_numbers_le holds
    have split : document.size + 1 = levels + ((document.size - levels) + 1) := by omega
    rw [split, climbed, topOf?, top, wellFormed.rootless]

/-- The attached nodes are those with the root above them. -/
theorem isAttached_iff_ancestor? (wellFormed : document.WellFormed) (node : NodeId) :
    document.isAttached node = true ↔ ∃ levels, document.ancestor? node levels = some root := by
  obtain ⟨tree, top, holds⟩ := wellFormed.grounded wellFormed.rooted
  rw [wellFormed.isAttached_iff holds top, ← top]
  constructor
  · exact holds.ancestor?
  · rintro ⟨levels, found⟩
    exact wellFormed.mem_numbers_of_ancestor? holds levels node found

theorem isAttached_of_parent? (wellFormed : document.WellFormed) {node parent : NodeId}
    (link : document.parent? node = some parent) (attached : document.isAttached parent = true) :
    document.isAttached node = true := by
  obtain ⟨levels, found⟩ := (wellFormed.isAttached_iff_ancestor? parent).mp attached
  refine (wellFormed.isAttached_iff_ancestor? node).mpr ⟨levels + 1, ?_⟩
  rw [ancestor?, link]
  exact found

end WellFormed

end Document

end TemplateFill
