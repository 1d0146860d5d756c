import TemplateFill.Proofs.Document.Layout

/-!
What the structural edits do to held trees.

Every edit but inserting a detached value changes one node: it gives the node new children, takes the
link to it from those that it drops, and leaves all else as it was. `EditAt` says so once. An edit of
this kind keeps a document well-formed, and every held tree stays held with the edited node's new
tree in place of the old one.
-/

namespace TemplateFill

namespace Document

variable {document : Document}

/-! ### Single links -/

theorem nodes_setContent (document : Document) (node : NodeId) (content : Content) (other : NodeId) :
    (document.setContent node content).nodes[other]? =
      if node = other then document.nodes[other]?.map fun old => { old with content }
      else document.nodes[other]? :=
  Array.getElem?_modify ..

theorem nodes_setParent (document : Document) (node : NodeId) (parent? : Option NodeId)
    (other : NodeId) :
    (document.setParent node parent?).nodes[other]? =
      if node = other then document.nodes[other]?.map fun old => { old with parent? }
      else document.nodes[other]? :=
  Array.getElem?_modify ..

@[simp] theorem size_setContent (document : Document) (node : NodeId) (content : Content) :
    (document.setContent node content).size = document.size :=
  Array.size_modify

@[simp] theorem size_setParent (document : Document) (node : NodeId) (parent? : Option NodeId) :
    (document.setParent node parent?).size = document.size :=
  Array.size_modify

theorem content_setContent_self {node : NodeId} (present : node < document.size)
    (content : Content) : (document.setContent node content).content node = content := by
  have there : document.nodes[node]? = some document.nodes[node] :=
    Array.getElem?_eq_getElem present
  rw [Document.content, nodes_setContent, if_pos rfl, there]
  rfl

theorem content_setContent_of_ne {node other : NodeId} (different : node ≠ other)
    (content : Content) :
    (document.setContent node content).content other = document.content other := by
  rw [Document.content, nodes_setContent, if_neg different, ← Document.content]

@[simp] theorem parent?_setContent (node other : NodeId) (content : Content) :
    (document.setContent node content).parent? other = document.parent? other := by
  rw [parent?, nodes_setContent, parent?]
  by_cases same : node = other
  · rw [if_pos same]
    cases document.nodes[other]? <;> rfl
  · rw [if_neg same]

@[simp] theorem content_setParent (node other : NodeId) (parent? : Option NodeId) :
    (document.setParent node parent?).content other = document.content other := by
  rw [content, nodes_setParent, content]
  by_cases same : node = other
  · rw [if_pos same]
    cases document.nodes[other]? <;> rfl
  · rw [if_neg same]

theorem parent?_setParent_self {node : NodeId} (present : node < document.size)
    (parent? : Option NodeId) : (document.setParent node parent?).parent? node = parent? := by
  have there : document.nodes[node]? = some document.nodes[node] :=
    Array.getElem?_eq_getElem present
  rw [Document.parent?, nodes_setParent, if_pos rfl, there]
  rfl

theorem parent?_setParent_of_ne {node other : NodeId} (different : node ≠ other)
    (parent? : Option NodeId) :
    (document.setParent node parent?).parent? other = document.parent? other := by
  rw [Document.parent?, nodes_setParent, if_neg different, ← Document.parent?]

/-- The document with the links from some nodes to their parents taken away. -/
def release (document : Document) (nodes : List NodeId) : Document :=
  nodes.foldl (fun doc child => doc.setParent child none) document

@[simp] theorem size_release (nodes : List NodeId) :
    (document.release nodes).size = document.size := by
  induction nodes generalizing document with
  | nil => rfl
  | cons node rest ih => exact (@ih (document.setParent node none)).trans (size_setParent ..)

@[simp] theorem content_release (nodes : List NodeId) (other : NodeId) :
    (document.release nodes).content other = document.content other := by
  induction nodes generalizing document with
  | nil => rfl
  | cons node rest ih =>
      exact (@ih (document.setParent node none)).trans (content_setParent ..)

theorem parent?_release_of_not_mem {nodes : List NodeId} {other : NodeId}
    (outside : other ∉ nodes) :
    (document.release nodes).parent? other = document.parent? other := by
  induction nodes generalizing document with
  | nil => rfl
  | cons node rest ih =>
      rw [List.mem_cons, not_or] at outside
      exact (@ih (document.setParent node none) outside.2).trans
        (parent?_setParent_of_ne (Ne.symm outside.1) none)

theorem parent?_release_of_mem {nodes : List NodeId} {other : NodeId} (inside : other ∈ nodes) :
    (document.release nodes).parent? other = none := by
  induction nodes generalizing document with
  | nil => cases inside
  | cons node rest ih =>
      by_cases later : other ∈ rest
      · exact @ih (document.setParent node none) later
      · obtain rfl : other = node := (List.mem_cons.mp inside).resolve_right later
        apply (parent?_release_of_not_mem later).trans
        by_cases present : other < document.size
        · exact parent?_setParent_self present none
        · exact parent?_of_size_le (by rw [size_setParent]; exact Nat.le_of_not_lt present)

/-! ### Trees that an edit leaves alone -/

/-- A tree stays held if its nodes keep their contents and their children keep their links. -/
theorem Holds.transfer {edited : Document} {tree : Tree} (holds : document.Holds tree)
    (grows : document.size ≤ edited.size)
    (contents : ∀ node ∈ tree.numbers, edited.content node = document.content node)
    (links : ∀ node parent, document.parent? node = some parent → parent ∈ tree.numbers →
      edited.parent? node = some parent) : edited.Holds tree := by
  induction holds with
  | @intro tree present content linked below ih =>
      refine .intro (Nat.lt_of_lt_of_le present grows) ?_ ?_ ?_
      · rw [contents tree.number tree.number_mem_numbers, content]
      · exact fun child inside => links _ _ (linked child inside) tree.number_mem_numbers
      · intro child inside
        have part : child.numbers ⊆ tree.numbers :=
          Tree.numbers_subset (Tree.child_mem_preorder inside)
        exact ih child inside (fun node within => contents node (part within))
          fun node parent link within => links node parent link (part within)

theorem Holds.transfer_of_not_mem {edited : Document} {tree : Tree} (holds : document.Holds tree)
    (grows : document.size ≤ edited.size) {node : NodeId} (outside : node ∉ tree.numbers)
    (contents : ∀ other < document.size, other ≠ node →
      edited.content other = document.content other)
    (links : ∀ other parent, document.parent? other = some parent → parent ≠ node →
      edited.parent? other = some parent) : edited.Holds tree := by
  refine holds.transfer grows ?_ ?_
  · intro other inside
    apply contents other (holds.lt_size_of_mem_numbers inside)
    rintro rfl
    exact outside inside
  · intro other parent link inside
    refine links other parent link ?_
    rintro rfl
    exact outside inside

theorem Holds.listed {tree : Tree} (holds : document.Holds tree) {node parent : NodeId}
    (inside : node ∈ tree.numbers) (below : node ≠ tree.number)
    (link : document.parent? node = some parent) : node ∈ document.children parent := by
  obtain ⟨found, within, rfl⟩ := Tree.exists_of_mem_numbers inside
  rcases Tree.exists_parent within with same | ⟨above, present, directly⟩
  · exact absurd (congrArg Tree.number same) below
  · have held := holds.of_mem_preorder present
    rw [held.linked directly] at link
    rw [← Option.some.inj link, held.children]
    exact List.mem_map_of_mem directly

theorem Holds.nodup_children {tree : Tree} (holds : document.Holds tree)
    (nodup : tree.numbers.Nodup) {node : NodeId} (inside : node ∈ tree.numbers) :
    (document.children node).Nodup := by
  obtain ⟨below, within, rfl⟩ := Tree.exists_of_mem_numbers inside
  rw [(holds.of_mem_preorder within).children]
  exact Tree.nodup_children (Tree.nodup_of_mem_preorder nodup within)

/-! ### New detached values -/

theorem size_insert (parent? : Option NodeId) (value : Json) :
    (document.insert parent? value).1.size = document.size + value.size := by
  rw [insert, size_extend, length_layOut]

theorem Holds.extend {tree : Tree} (holds : document.Holds tree) (nodes : List Node) :
    (document.extend nodes).Holds tree := by
  refine holds.transfer ?_ ?_ ?_
  · rw [size_extend]
    exact Nat.le_add_right _ _
  · exact fun node inside => content_extend (holds.lt_size_of_mem_numbers inside)
  · intro node parent link inside
    rw [parent?_extend (lt_size_of_parent? link), link]

theorem Holds.insert {tree : Tree} (holds : document.Holds tree) (parent? : Option NodeId)
    (value : Json) : (document.insert parent? value).1.Holds tree :=
  holds.extend _

theorem holds_insert (document : Document) (parent? : Option NodeId) (value : Json) :
    (document.insert parent? value).1.Holds (Tree.ofJson document.size value) ∧
      (document.insert parent? value).1.parent? document.size = parent? :=
  holds_ofJson (lays_extend document _)

theorem WellFormed.insert (wellFormed : document.WellFormed) (value : Json) :
    (document.insert none value).1.WellFormed := by
  obtain ⟨held, detached⟩ := holds_insert document none value
  have size := @size_insert document none value
  have fresh : ∀ node, document.size ≤ node → node < document.size + value.size →
      node ∈ (Tree.ofJson document.size value).numbers := fun node low high =>
    Tree.mem_numbers_ofJson.mpr ⟨low, high⟩
  have old : ∀ node, node < document.size →
      (document.insert none value).1.parent? node = document.parent? node ∧
        (document.insert none value).1.children node = document.children node := by
    intro node low
    refine ⟨parent?_extend low, ?_⟩
    rw [children, Document.insert, content_extend low, ← children]
  refine
    { rooted := ?_
      rootless := ?_
      listed := ?_
      distinct := ?_
      grounded := ?_ }
  · rw [size]
    exact Nat.lt_of_lt_of_le wellFormed.rooted (Nat.le_add_right _ _)
  · rw [(old root wellFormed.rooted).1, wellFormed.rootless]
  · intro node parent link
    by_cases low : node < document.size
    · rw [(old node low).1] at link
      rw [(old parent (wellFormed.parent_present link)).2]
      exact wellFormed.listed link
    · have high := lt_size_of_parent? link
      rw [size] at high
      have inside := fresh node (Nat.le_of_not_lt low) high
      refine held.listed inside ?_ link
      intro same
      rw [same, Tree.number_ofJson, detached] at link
      cases link
  · intro node
    by_cases low : node < document.size
    · rw [(old node low).2]
      exact wellFormed.distinct node
    · by_cases high : node < document.size + value.size
      · exact held.nodup_children (Tree.nodup_numbers_ofJson _ value)
          (fresh node (Nat.le_of_not_lt low) high)
      · rw [children_of_size_le (by rw [size]; exact Nat.le_of_not_lt high)]
        exact List.nodup_nil
  · intro node present
    by_cases low : node < document.size
    · obtain ⟨tree, same, holds⟩ := wellFormed.grounded low
      exact ⟨tree, same, holds.insert none value⟩
    · rw [size] at present
      obtain ⟨below, within, same⟩ :=
        Tree.exists_of_mem_numbers (fresh node (Nat.le_of_not_lt low) present)
      exact ⟨below, same, held.of_mem_preorder within⟩

/-! ### Edits of one node -/

/-- The second document is the first with one node changed, which gets the given tree. Its new
children are new nodes, or were its children, or had no parent; those that it loses have none. -/
structure EditAt (document edited : Document) (subtree : Tree) : Prop where
  present : subtree.number < document.size
  grows : document.size ≤ edited.size
  held : edited.Holds subtree
  contents : ∀ node < document.size, node ≠ subtree.number →
    edited.content node = document.content node
  links : ∀ node < document.size, node ∉ subtree.children.map Tree.number →
    edited.parent? node =
      if document.parent? node = some subtree.number then none else document.parent? node
  taken : ∀ child ∈ subtree.children, document.size ≤ child.number ∨
    child.number ≠ root ∧ (document.parent? child.number = some subtree.number ∨
      document.parent? child.number = none)
  apart : (subtree.children.map Tree.number).Nodup
  fresh : ∀ node, document.size ≤ node → node < edited.size →
    node ∈ subtree.numbers ∧ (edited.children node).Nodup

namespace EditAt

variable {edited : Document} {subtree tree : Tree}

theorem parent?_of_ne (edit : EditAt document edited subtree) {node parent : NodeId}
    (link : document.parent? node = some parent) (different : parent ≠ subtree.number) :
    edited.parent? node = some parent := by
  have old := lt_size_of_parent? link
  have outside : node ∉ subtree.children.map Tree.number := by
    intro inside
    obtain ⟨child, directly, rfl⟩ := List.mem_map.mp inside
    rcases edit.taken child directly with new | ⟨_, kept | free⟩
    · exact Nat.not_lt.mpr new old
    · rw [link] at kept
      exact different (Option.some.inj kept)
    · rw [link] at free
      cases free
  rw [edit.links node old outside, link, if_neg (fun same => different (Option.some.inj same))]

theorem holds_of_not_mem (edit : EditAt document edited subtree) (holds : document.Holds tree)
    (outside : subtree.number ∉ tree.numbers) : edited.Holds tree :=
  holds.transfer_of_not_mem edit.grows outside edit.contents fun _ _ link different =>
    edit.parent?_of_ne link different

/-- Every held tree stays held, with the edited node's new tree in its place. -/
theorem holds_graft (edit : EditAt document edited subtree) (holds : document.Holds tree) :
    edited.Holds (tree.graft subtree) := by
  induction holds with
  | @intro tree present content linked below ih =>
      by_cases here : tree.number = subtree.number
      · rw [Tree.graft_of_eq here]
        exact edit.held
      · rw [Tree.graft_of_ne here]
        refine .intro ?_ ?_ ?_ ?_
        · rw [Tree.number_mapChildren]
          exact Nat.lt_of_lt_of_le present edit.grows
        · rw [Tree.number_mapChildren, edit.contents _ present here, content,
            Tree.content_mapChildren _ _ fun child _ => child.number_graft subtree]
        · intro child inside
          rw [Tree.children_mapChildren] at inside
          obtain ⟨old, directly, rfl⟩ := List.mem_map.mp inside
          rw [Tree.number_graft, Tree.number_mapChildren]
          exact edit.parent?_of_ne (linked old directly) here
        · intro child inside
          rw [Tree.children_mapChildren] at inside
          obtain ⟨old, directly, rfl⟩ := List.mem_map.mp inside
          exact ih old directly

theorem wellFormed (edit : EditAt document edited subtree) (before : document.WellFormed) :
    edited.WellFormed := by
  have isChild : ∀ node ∈ subtree.children.map Tree.number,
      edited.parent? node = some subtree.number := by
    intro node inside
    obtain ⟨child, directly, rfl⟩ := List.mem_map.mp inside
    exact edit.held.linked directly
  refine
    { rooted := Nat.lt_of_lt_of_le before.rooted edit.grows
      rootless := ?_
      listed := ?_
      distinct := ?_
      grounded := ?_ }
  · have outside : root ∉ subtree.children.map Tree.number := by
      intro inside
      obtain ⟨child, directly, same⟩ := List.mem_map.mp inside
      rcases edit.taken child directly with new | ⟨other, _⟩
      · rw [same] at new
        exact Nat.not_lt.mpr new before.rooted
      · exact other same
    rw [edit.links root before.rooted outside, before.rootless]
    rfl
  · intro node parent link
    by_cases inside : node ∈ subtree.children.map Tree.number
    · rw [isChild node inside] at link
      rw [← Option.some.inj link, edit.held.children]
      exact inside
    · by_cases old : node < document.size
      · rw [edit.links node old inside] at link
        by_cases lost : document.parent? node = some subtree.number
        · rw [if_pos lost] at link
          cases link
        · rw [if_neg lost] at link
          have different : parent ≠ subtree.number := by
            rintro rfl
            exact lost link
          rw [children, edit.contents parent (before.parent_present link) different, ← children]
          exact before.listed link
      · have beyond := Nat.le_of_not_lt old
        have within := (edit.fresh node beyond (lt_size_of_parent? link)).1
        refine edit.held.listed within ?_ link
        rintro rfl
        exact old edit.present
  · intro node
    by_cases here : node = subtree.number
    · rw [here, edit.held.children]
      exact edit.apart
    · by_cases old : node < document.size
      · rw [children, edit.contents node old here, ← children]
        exact before.distinct node
      · by_cases present : node < edited.size
        · exact (edit.fresh node (Nat.le_of_not_lt old) present).2
        · rw [children_of_size_le (Nat.le_of_not_lt present)]
          exact List.nodup_nil
  · intro node present
    by_cases old : node < document.size
    · obtain ⟨tree, rfl, holds⟩ := before.grounded old
      exact ⟨tree.graft subtree, Tree.number_graft .., edit.holds_graft holds⟩
    · have within := (edit.fresh node (Nat.le_of_not_lt old) present).1
      obtain ⟨below, inside, same⟩ := Tree.exists_of_mem_numbers within
      exact ⟨below, same, edit.held.of_mem_preorder inside⟩

end EditAt

end Document

end TemplateFill
