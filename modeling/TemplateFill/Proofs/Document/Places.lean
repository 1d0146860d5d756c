import TemplateFill.Proofs.Document.Edits

/-!
Places: child positions that lead from a node to one below it.

A place means the same in a document and in its value. Putting a tree into a held one changes the
value at one place, the place that leads to the node where the two trees differ.
-/

namespace TemplateFill

/-- The value with a change made at the place that child positions lead to. -/
def Json.editAt (change : Json → Json) : List Nat → Json → Json
  | [], value => change value
  | _ :: _, .scalar value => .scalar value
  | position :: rest, .array elements => .array (elements.modify position (editAt change rest))
  | position :: rest, .object members =>
      .object (members.modify position fun member => (member.1, editAt change rest member.2))

def Json.at? : List Nat → Json → Option Json
  | [], value => some value
  | position :: rest, value => value.children[position]?.bind (at? rest)

def Document.follow? (document : Document) (node : NodeId) : List Nat → Option NodeId
  | [] => some node
  | position :: rest =>
      (document.children node)[position]?.bind fun child => document.follow? child rest

namespace Tree

variable {document : Document} {tree below subtree : Tree} {change : Json → Json}

theorem mem_preorder_of_follow? {steps : List Nat} {number : NodeId}
    (holds : document.Holds tree) (leads : document.follow? tree.number steps = some number) :
    ∃ below ∈ tree.preorder, below.number = number := by
  induction steps generalizing tree with
  | nil =>
      cases leads
      exact ⟨tree, tree.self_mem_preorder, rfl⟩
  | cons position rest ih =>
      rw [Document.follow?, holds.children, List.getElem?_map, Option.bind_eq_some_iff] at leads
      obtain ⟨_, numbered, leads⟩ := leads
      obtain ⟨child, found, rfl⟩ := Option.map_eq_some_iff.mp numbered
      have inside := List.mem_of_getElem? found
      obtain ⟨below, within, same⟩ := ih (holds.of_mem_children inside) leads
      exact ⟨below, preorder_trans (child_mem_preorder inside) within, same⟩

/-- Child positions lead to a node and to its value alike. -/
theorem at?_toJson {steps : List Nat} (holds : document.Holds tree)
    (belowHolds : document.Holds below)
    (leads : document.follow? tree.number steps = some below.number) :
    tree.toJson.at? steps = some below.toJson := by
  induction steps generalizing tree with
  | nil =>
      obtain rfl := holds.unique belowHolds (Option.some.inj leads)
      rfl
  | cons position rest ih =>
      rw [Document.follow?, holds.children, List.getElem?_map, Option.bind_eq_some_iff] at leads
      obtain ⟨_, numbered, leads⟩ := leads
      obtain ⟨child, found, rfl⟩ := Option.map_eq_some_iff.mp numbered
      rw [Json.at?, children_toJson, List.getElem?_map, found, Option.map_some, Option.bind_some]
      exact ih (holds.of_mem_children (List.mem_of_getElem? found)) leads

theorem exists_follow? (holds : document.Holds tree) (within : below ∈ tree.preorder) :
    ∃ steps, document.follow? tree.number steps = some below.number := by
  induction tree using induction with
  | step tree ih =>
      rcases mem_preorder_iff.mp within with rfl | ⟨child, inside, deeper⟩
      · exact ⟨[], rfl⟩
      · obtain ⟨rest, leads⟩ := ih child inside (holds.of_mem_children inside) deeper
        obtain ⟨position, found⟩ := List.mem_iff_getElem?.mp inside
        refine ⟨position :: rest, ?_⟩
        rw [Document.follow?, holds.children, List.getElem?_map, found]
        exact leads

private theorem map_eq_modify {α β : Type} {values : List α} {position : Nat} {read other : α → β}
    {change : β → β}
    (same : ∀ (index : Nat) (value : α), values[index]? = some value →
      other value = if position = index then change (read value) else read value) :
    values.map other = (values.map read).modify position change := by
  apply List.ext_getElem?
  intro index
  rw [List.getElem?_modify, List.getElem?_map, List.getElem?_map]
  cases found : values[index]? with
  | none => rfl
  | some value => exact congrArg some (same index value found)

/-- Of all children only the one with the node that a tree is put in at changes. -/
theorem toJson_graft_child (wellFormed : document.WellFormed) (holds : document.Holds tree)
    {position index : Nat} {child other : Tree} (found : tree.children[position]? = some child)
    (within : subtree.number ∈ child.numbers) (present : tree.children[index]? = some other) :
    (other.graft subtree).toJson =
      if position = index then (child.graft subtree).toJson else other.toJson := by
  by_cases here : position = index
  · subst here
    rw [found] at present
    cases present
    rw [if_pos rfl]
  · have apart : other.number ≠ child.number := by
      intro equal
      have positions : (tree.children.map number)[position]? =
          (tree.children.map number)[index]? := by
        rw [List.getElem?_map, List.getElem?_map, found, present, Option.map_some,
          Option.map_some, equal]
      have distinct := wellFormed.nodup_children holds
      have bounded := (List.getElem?_eq_some_iff.mp found).1
      rw [← List.length_map (f := number)] at bounded
      exact here ((List.getElem?_inj bounded distinct).mp positions)
    have absent : subtree.number ∉ other.numbers := fun shared =>
      holds.disjoint_children (List.mem_of_getElem? present) (List.mem_of_getElem? found) apart
        shared within
    rw [if_neg here, graft_of_not_mem absent]

/-- A tree that is put in at or below a node changes the value where that node is. -/
theorem toJson_graft_of_follow? (wellFormed : document.WellFormed) (holds : document.Holds tree)
    {steps : List Nat} (leads : document.follow? tree.number steps = some below.number)
    (belowHolds : document.Holds below) (lower : subtree.number ∈ below.numbers)
    (changed : change below.toJson = (below.graft subtree).toJson) :
    (tree.graft subtree).toJson = tree.toJson.editAt change steps := by
  induction steps generalizing tree with
  | nil =>
      obtain rfl := holds.unique belowHolds (Option.some.inj leads)
      rw [Json.editAt, changed]
  | cons position rest ih =>
      rw [Document.follow?, holds.children, List.getElem?_map, Option.bind_eq_some_iff] at leads
      obtain ⟨_, numbered, leads⟩ := leads
      obtain ⟨child, found, rfl⟩ := Option.map_eq_some_iff.mp numbered
      have inside := List.mem_of_getElem? found
      have childHolds := holds.of_mem_children inside
      have within : subtree.number ∈ child.numbers := by
        obtain ⟨other, deeper, same⟩ := mem_preorder_of_follow? childHolds leads
        rw [(childHolds.of_mem_preorder deeper).unique belowHolds same] at deeper
        exact numbers_subset deeper lower
      have different : tree.number ≠ subtree.number := by
        intro equal
        exact holds.number_not_mem_child inside (equal ▸ within)
      have each : ∀ (index : Nat) (other : Tree), tree.children[index]? = some other →
          (other.graft subtree).toJson =
            if position = index then other.toJson.editAt change rest else other.toJson := by
        intro index other present
        rw [toJson_graft_child wellFormed holds found within present]
        split
        · rename_i here
          subst here
          rw [found] at present
          cases present
          exact ih childHolds leads
        · rfl
      rw [graft_of_ne different]
      cases tree with
      | scalar number value => cases inside
      | array number elements =>
          rw [mapChildren, toJson, toJson, Json.editAt, List.map_map]
          exact congrArg Json.array (map_eq_modify each)
      | object number members =>
          rw [mapChildren, toJson, toJson, Json.editAt, List.map_map]
          refine congrArg Json.object (map_eq_modify fun index member present => ?_)
          have child := each index member.2 (by
            rw [children, List.getElem?_map, present]
            rfl)
          simp only [Function.comp_apply, child]
          split <;> rfl

/-! ### Leaving out a child -/

theorem filter_eq_eraseIdx {α : Type} {values : List α} {position : Nat} {value : α}
    (name : α → NodeId) (distinct : (values.map name).Nodup)
    (found : values[position]? = some value) :
    (values.filter fun other => name other != name value) = values.eraseIdx position := by
  induction values generalizing position with
  | nil => cases found
  | cons first rest ih =>
      rw [List.map_cons, List.nodup_cons] at distinct
      cases position with
      | zero =>
          cases found
          rw [List.filter_cons_of_neg (by simp), List.eraseIdx_cons_zero, List.filter_eq_self]
          intro other inside
          refine bne_iff_ne.mpr fun same => ?_
          exact distinct.1 (same ▸ List.mem_map_of_mem inside)
      | succ position =>
          rw [List.getElem?_cons_succ] at found
          have different : name first ≠ name value := by
            intro same
            exact distinct.1 (same ▸ List.mem_map_of_mem (List.mem_of_getElem? found))
          rw [List.filter_cons_of_pos (by simpa using different), List.eraseIdx_cons_succ,
            ih distinct.2 found]

end Tree

end TemplateFill
