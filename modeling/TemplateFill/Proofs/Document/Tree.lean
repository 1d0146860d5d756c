import TemplateFill.Document.Basic

/-!
Trees whose nodes carry the numbers that a document gives them.

A tree is what a document holds below one node: the value there, together with the number of every
node of it. The definitions of this module look at trees alone; which trees a document holds is
settled in the next module.
-/

namespace TemplateFill

/-- A value whose nodes carry numbers. -/
inductive Tree where
  | scalar (number : NodeId) (value : Scalar)
  | array (number : NodeId) (elements : List Tree)
  | object (number : NodeId) (members : List (String × Tree))

namespace Tree

/-! ### The node on top -/

def number : Tree → NodeId
  | .scalar number _ => number
  | .array number _ => number
  | .object number _ => number

def children : Tree → List Tree
  | .scalar _ _ => []
  | .array _ elements => elements
  | .object _ members => members.map Prod.snd

def content : Tree → Content
  | .scalar _ value => .scalar value
  | .array _ elements => .array (elements.map number)
  | .object _ members => .object (members.map fun member => (member.1, member.2.number))

def member? (key : String) : Tree → Option Tree
  | .object _ members => memberOf? key members
  | _ => none

def element? (position : Nat) : Tree → Option Tree
  | .array _ elements => elements[position]?
  | _ => none

def scalar? : Tree → Option Scalar
  | .scalar _ value => some value
  | _ => none

def mapChildren (change : Tree → Tree) : Tree → Tree
  | .scalar number value => .scalar number value
  | .array number elements => .array number (elements.map change)
  | .object number members =>
      .object number (members.map fun member => (member.1, change member.2))

def filterChildren (keep : Tree → Bool) : Tree → Tree
  | .scalar number value => .scalar number value
  | .array number elements => .array number (elements.filter keep)
  | .object number members => .object number (members.filter fun member => keep member.2)

theorem content_children (tree : Tree) :
    tree.content.children = tree.children.map number := by
  cases tree with
  | scalar number value => rfl
  | array number elements => rfl
  | object number members =>
      simp only [content, Content.children, children, List.map_map, Function.comp_def]

theorem mem_children_of_member? {tree member : Tree} {key : String}
    (found : tree.member? key = some member) : member ∈ tree.children := by
  cases tree with
  | scalar number value => cases found
  | array number elements => cases found
  | object number members => exact List.mem_map_of_mem (mem_of_memberOf? found)

theorem mem_children_of_element? {tree element : Tree} {position : Nat}
    (found : tree.element? position = some element) : element ∈ tree.children := by
  cases tree with
  | scalar number value => cases found
  | array number elements => exact List.mem_of_getElem? found
  | object number members => cases found

@[simp] theorem number_mapChildren (change : Tree → Tree) (tree : Tree) :
    (tree.mapChildren change).number = tree.number := by
  cases tree <;> rfl

@[simp] theorem children_mapChildren (change : Tree → Tree) (tree : Tree) :
    (tree.mapChildren change).children = tree.children.map change := by
  cases tree with
  | scalar number value => rfl
  | array number elements => rfl
  | object number members =>
      simp only [mapChildren, children, List.map_map, Function.comp_def]

theorem content_mapChildren (change : Tree → Tree) (tree : Tree)
    (same : ∀ child ∈ tree.children, (change child).number = child.number) :
    (tree.mapChildren change).content = tree.content := by
  cases tree with
  | scalar number value => rfl
  | array number elements =>
      simp only [mapChildren, content, List.map_map, Content.array.injEq]
      exact List.map_congr_left same
  | object number members =>
      simp only [mapChildren, content, List.map_map, Content.object.injEq]
      refine List.map_congr_left fun member inside => ?_
      exact congrArg (Prod.mk member.1) (same member.2 (List.mem_map_of_mem inside))

theorem mapChildren_eq_self (change : Tree → Tree) (tree : Tree)
    (same : ∀ child ∈ tree.children, change child = child) : tree.mapChildren change = tree := by
  cases tree with
  | scalar number value => rfl
  | array number elements =>
      simp only [mapChildren, array.injEq, true_and]
      exact (List.map_congr_left same).trans (List.map_id _)
  | object number members =>
      simp only [mapChildren, object.injEq, true_and]
      refine (List.map_congr_left fun member inside => ?_).trans (List.map_id _)
      exact congrArg (Prod.mk member.1) (same member.2 (List.mem_map_of_mem inside))

theorem mapChildren_congr (change other : Tree → Tree) (tree : Tree)
    (same : ∀ child ∈ tree.children, change child = other child) :
    tree.mapChildren change = tree.mapChildren other := by
  cases tree with
  | scalar number value => rfl
  | array number elements =>
      simp only [mapChildren, array.injEq, true_and]
      exact List.map_congr_left same
  | object number members =>
      simp only [mapChildren, object.injEq, true_and]
      refine List.map_congr_left fun member inside => ?_
      exact congrArg (Prod.mk member.1) (same member.2 (List.mem_map_of_mem inside))

theorem mapChildren_mapChildren (change other : Tree → Tree) (tree : Tree) :
    (tree.mapChildren change).mapChildren other =
      tree.mapChildren fun child => other (change child) := by
  cases tree <;> simp only [mapChildren, List.map_map, Function.comp_def]

@[simp] theorem number_filterChildren (keep : Tree → Bool) (tree : Tree) :
    (tree.filterChildren keep).number = tree.number := by
  cases tree <;> rfl

@[simp] theorem children_filterChildren (keep : Tree → Bool) (tree : Tree) :
    (tree.filterChildren keep).children = tree.children.filter keep := by
  cases tree with
  | scalar number value => rfl
  | array number elements => rfl
  | object number members =>
      simp only [filterChildren, children, List.filter_map, Function.comp_def]

/-! ### All nodes -/

theorem sizeOf_children_lt {tree child : Tree} (inside : child ∈ tree.children) :
    sizeOf child < sizeOf tree := by
  cases tree with
  | scalar number value => cases inside
  | array number elements =>
      have smaller := List.sizeOf_lt_of_mem (show child ∈ elements from inside)
      simp only [array.sizeOf_spec]
      omega
  | object number members =>
      obtain ⟨member, present, rfl⟩ := List.mem_map.mp inside
      have smaller := List.sizeOf_lt_of_mem present
      cases member with
      | mk key value =>
          simp only [object.sizeOf_spec, Prod.mk.sizeOf_spec] at smaller ⊢
          omega

/-- To show something of all trees, show it of a tree whose children have it. -/
theorem induction {motive : Tree → Prop}
    (step : ∀ tree, (∀ child ∈ tree.children, motive child) → motive tree) (tree : Tree) :
    motive tree :=
  step tree fun child _ => induction step child
termination_by tree
decreasing_by exact sizeOf_children_lt (by assumption)

def preorder (tree : Tree) : List Tree :=
  tree :: tree.children.attach.flatMap fun child => child.1.preorder
termination_by tree
decreasing_by exact sizeOf_children_lt child.2

theorem preorder_eq (tree : Tree) :
    tree.preorder = tree :: tree.children.flatMap preorder := by
  rw [preorder]
  simp only [List.flatMap_subtype, List.unattach_attach]

def numbers (tree : Tree) : List NodeId := tree.preorder.map number

theorem numbers_eq (tree : Tree) :
    tree.numbers = tree.number :: tree.children.flatMap numbers := by
  simp only [numbers, preorder_eq tree, List.map_cons, List.map_flatMap]
  rfl

theorem mem_preorder_iff {tree below : Tree} :
    below ∈ tree.preorder ↔ below = tree ∨ ∃ child ∈ tree.children, below ∈ child.preorder := by
  rw [preorder_eq, List.mem_cons, List.mem_flatMap]

theorem mem_numbers_iff {tree : Tree} {number : NodeId} :
    number ∈ tree.numbers ↔
      number = tree.number ∨ ∃ child ∈ tree.children, number ∈ child.numbers := by
  rw [numbers_eq, List.mem_cons, List.mem_flatMap]

theorem length_numbers_lt {tree child : Tree} (inside : child ∈ tree.children) :
    child.numbers.length < tree.numbers.length := by
  have part : child.numbers.Sublist (tree.children.flatMap numbers) :=
    List.sublist_flatten_of_mem (List.mem_map_of_mem inside)
  rw [numbers_eq tree, List.length_cons]
  exact Nat.lt_succ_of_le part.length_le

theorem self_mem_preorder (tree : Tree) : tree ∈ tree.preorder :=
  mem_preorder_iff.mpr (Or.inl rfl)

theorem number_mem_numbers (tree : Tree) : tree.number ∈ tree.numbers :=
  mem_numbers_iff.mpr (Or.inl rfl)

theorem child_mem_preorder {tree child : Tree} (inside : child ∈ tree.children) :
    child ∈ tree.preorder :=
  mem_preorder_iff.mpr (Or.inr ⟨child, inside, child.self_mem_preorder⟩)

theorem mem_numbers_of_mem_preorder {tree below : Tree} (inside : below ∈ tree.preorder) :
    below.number ∈ tree.numbers :=
  List.mem_map_of_mem inside

theorem exists_of_mem_numbers {tree : Tree} {number : NodeId} (inside : number ∈ tree.numbers) :
    ∃ below ∈ tree.preorder, below.number = number :=
  List.mem_map.mp inside

theorem preorder_trans {tree middle below : Tree} (outer : middle ∈ tree.preorder)
    (inner : below ∈ middle.preorder) : below ∈ tree.preorder := by
  induction tree using induction with
  | step tree ih =>
      rcases mem_preorder_iff.mp outer with same | ⟨child, inside, deeper⟩
      · subst same
        exact inner
      · exact mem_preorder_iff.mpr (Or.inr ⟨child, inside, ih child inside deeper⟩)

theorem numbers_subset {tree below : Tree} (inside : below ∈ tree.preorder) :
    below.numbers ⊆ tree.numbers := by
  intro number present
  obtain ⟨deeper, within, rfl⟩ := exists_of_mem_numbers present
  exact mem_numbers_of_mem_preorder (preorder_trans inside within)

theorem sizeOf_preorder_le {tree below : Tree} (inside : below ∈ tree.preorder) :
    sizeOf below ≤ sizeOf tree := by
  induction tree using induction with
  | step tree ih =>
      rcases mem_preorder_iff.mp inside with same | ⟨child, present, deeper⟩
      · subst same
        exact Nat.le_refl _
      · exact Nat.le_trans (ih child present deeper) (Nat.le_of_lt (sizeOf_children_lt present))

theorem exists_parent {tree below : Tree} (inside : below ∈ tree.preorder) :
    below = tree ∨ ∃ parent ∈ tree.preorder, below ∈ parent.children := by
  induction tree using induction with
  | step tree ih =>
      rcases mem_preorder_iff.mp inside with same | ⟨child, present, deeper⟩
      · exact Or.inl same
      · rcases ih child present deeper with same | ⟨parent, within, directly⟩
        · subst same
          exact Or.inr ⟨tree, tree.self_mem_preorder, present⟩
        · exact Or.inr
            ⟨parent, preorder_trans (child_mem_preorder present) within, directly⟩

/-! ### The value of a tree -/

def toJson : Tree → Json
  | .scalar _ value => .scalar value
  | .array _ elements => .array (elements.map fun element => element.toJson)
  | .object _ members => .object (members.map fun member => (member.1, member.2.toJson))
decreasing_by
  · exact @sizeOf_children_lt (.array _ elements) _ (by assumption)
  · exact @sizeOf_children_lt (.object _ members) _ (List.mem_map_of_mem (by assumption))

theorem children_toJson (tree : Tree) : tree.toJson.children = tree.children.map toJson := by
  cases tree with
  | scalar number value => rw [toJson]; rfl
  | array number elements => rw [toJson]; rfl
  | object number members =>
      rw [toJson]
      simp only [Json.children, children, List.map_map, Function.comp_def]

theorem scalar?_toJson (tree : Tree) : tree.toJson.scalar? = tree.scalar? := by
  cases tree <;> rw [toJson] <;> rfl

theorem element?_toJson (position : Nat) (tree : Tree) :
    tree.toJson.element? position = (tree.element? position).map toJson := by
  cases tree with
  | scalar number value => rw [toJson]; rfl
  | array number elements =>
      rw [toJson]
      simp only [Json.element?, element?, List.getElem?_map]
  | object number members => rw [toJson]; rfl

theorem member?_toJson (key : String) (tree : Tree) :
    tree.toJson.member? key = (tree.member? key).map toJson := by
  cases tree with
  | scalar number value => rw [toJson]; rfl
  | array number elements => rw [toJson]; rfl
  | object number members =>
      rw [toJson]
      exact memberOf?_map key toJson members

/-! ### Putting a tree in the place of another -/

/-- The tree with another one in the place of the node that has its number. -/
def graft (tree subtree : Tree) : Tree :=
  match tree with
  | .scalar number value => if number = subtree.number then subtree else .scalar number value
  | .array number elements =>
      if number = subtree.number then subtree
      else .array number (elements.map fun element => element.graft subtree)
  | .object number members =>
      if number = subtree.number then subtree
      else .object number (members.map fun member => (member.1, member.2.graft subtree))
termination_by tree
decreasing_by
  · exact @sizeOf_children_lt (.array _ elements) _ (by assumption)
  · exact @sizeOf_children_lt (.object _ members) _ (List.mem_map_of_mem (by assumption))

theorem graft_of_eq {tree subtree : Tree} (same : tree.number = subtree.number) :
    tree.graft subtree = subtree := by
  cases tree <;> rw [graft] <;> exact if_pos same

theorem graft_of_ne {tree subtree : Tree} (different : tree.number ≠ subtree.number) :
    tree.graft subtree = tree.mapChildren fun child => child.graft subtree := by
  cases tree with
  | scalar number value => rw [graft]; exact if_neg different
  | array number elements => rw [graft]; exact if_neg different
  | object number members => rw [graft]; exact if_neg different

@[simp] theorem number_graft (tree subtree : Tree) :
    (tree.graft subtree).number = tree.number := by
  by_cases same : tree.number = subtree.number
  · rw [graft_of_eq same, same]
  · rw [graft_of_ne same, number_mapChildren]

theorem graft_of_not_mem {tree subtree : Tree} (absent : subtree.number ∉ tree.numbers) :
    tree.graft subtree = tree := by
  induction tree using induction with
  | step tree ih =>
      have outside := fun inside => absent (mem_numbers_iff.mpr inside)
      have different : tree.number ≠ subtree.number := fun same => outside (Or.inl same.symm)
      rw [graft_of_ne different]
      refine mapChildren_eq_self _ _ fun child inside => ih child inside ?_
      exact fun present => outside (Or.inr ⟨child, inside, present⟩)

theorem graft_graft {tree first second : Tree} (same : first.number = second.number) :
    (tree.graft first).graft second = tree.graft second := by
  induction tree using induction with
  | step tree ih =>
      by_cases here : tree.number = first.number
      · rw [graft_of_eq here, graft_of_eq same, graft_of_eq (here.trans same)]
      · have elsewhere : tree.number ≠ second.number := fun equal => here (equal.trans same.symm)
        rw [graft_of_ne here, graft_of_ne elsewhere, graft_of_ne (by simpa using elsewhere),
          mapChildren_mapChildren]
        exact mapChildren_congr _ _ _ ih

end Tree

end TemplateFill
