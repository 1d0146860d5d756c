import TemplateFill.Proofs.Document.Selection

/-!
Trees with other numbers.

A value laid out again is the tree that it was read from, with its nodes numbered in the order in
which they stand. So a node of a copy and the node that it copies have the same place in that order.
-/

namespace TemplateFill

namespace Tree

def renumber (rename : NodeId → NodeId) (tree : Tree) : Tree :=
  match tree with
  | .scalar number value => .scalar (rename number) value
  | .array number elements =>
      .array (rename number) (elements.map fun element => element.renumber rename)
  | .object number members =>
      .object (rename number) (members.map fun member => (member.1, member.2.renumber rename))
termination_by tree
decreasing_by
  · exact @sizeOf_children_lt (.array _ elements) _ (by assumption)
  · exact @sizeOf_children_lt (.object _ members) _ (List.mem_map_of_mem (by assumption))

variable {rename : NodeId → NodeId} {tree : Tree}

@[simp] theorem number_renumber (rename : NodeId → NodeId) (tree : Tree) :
    (tree.renumber rename).number = rename tree.number := by
  cases tree <;> rw [renumber] <;> rfl

@[simp] theorem children_renumber (rename : NodeId → NodeId) (tree : Tree) :
    (tree.renumber rename).children = tree.children.map (renumber rename) := by
  cases tree with
  | scalar number value => rw [renumber]; rfl
  | array number elements => rw [renumber]; rfl
  | object number members =>
      rw [renumber]
      simp only [children, List.map_map, Function.comp_def]

theorem member?_renumber (rename : NodeId → NodeId) (tree : Tree) (key : String) :
    (tree.renumber rename).member? key = (tree.member? key).map (renumber rename) := by
  cases tree with
  | scalar number value => rw [renumber]; rfl
  | array number elements => rw [renumber]; rfl
  | object number members =>
      rw [renumber]
      exact memberOf?_map key (renumber rename) members

theorem preorder_renumber (rename : NodeId → NodeId) (tree : Tree) :
    (tree.renumber rename).preorder = tree.preorder.map (renumber rename) := by
  induction tree using induction with
  | step tree ih =>
      rw [preorder_eq, preorder_eq tree, children_renumber, List.map_cons, List.flatMap_map,
        List.map_flatMap]
      exact congrArg _ (List.flatMap_congr ih)

theorem numbers_renumber (rename : NodeId → NodeId) (tree : Tree) :
    (tree.renumber rename).numbers = tree.numbers.map rename := by
  rw [numbers, numbers, preorder_renumber, List.map_map, List.map_map]
  exact List.map_congr_left fun below _ => number_renumber rename below

theorem toJson_renumber (rename : NodeId → NodeId) (tree : Tree) :
    (tree.renumber rename).toJson = tree.toJson := by
  induction tree using induction with
  | step tree ih =>
      cases tree with
      | scalar number value => rw [renumber, toJson, toJson]
      | array number elements =>
          rw [renumber, toJson, toJson, List.map_map]
          exact congrArg Json.array (List.map_congr_left ih)
      | object number members =>
          rw [renumber, toJson, toJson, List.map_map]
          refine congrArg Json.object (List.map_congr_left fun member inside => ?_)
          exact congrArg (Prod.mk member.1) (ih member.2 (List.mem_map_of_mem inside))

/-! ### Values and numbers -/

private theorem eq_of_numbers {left right : List Tree}
    (same : ∀ tree ∈ left, ∀ other : Tree, tree.toJson = other.toJson →
      tree.numbers = other.numbers → tree = other)
    (values : left.map toJson = right.map toJson)
    (numbered : left.flatMap numbers = right.flatMap numbers) : left = right := by
  induction left generalizing right with
  | nil => simpa using values.symm
  | cons tree left ih =>
      cases right with
      | nil => cases values
      | cons other right =>
          obtain ⟨value, values⟩ := List.cons.inj values
          have length : tree.numbers.length = other.numbers.length := by
            rw [← size_toJson, ← size_toJson, value]
          obtain ⟨first, later⟩ := List.append_inj numbered length
          rw [same tree (List.mem_cons_self ..) other value first,
            ih (fun next inside => same next (List.mem_cons_of_mem _ inside)) values later]

/-- A tree is given by its value and its numbers in order. -/
theorem eq_of_toJson_of_numbers {left right : Tree} (value : left.toJson = right.toJson)
    (numbered : left.numbers = right.numbers) : left = right := by
  induction left using induction generalizing right with
  | step left ih =>
      rw [numbers_eq, numbers_eq right] at numbered
      obtain ⟨top, below⟩ := List.cons.inj numbered
      cases left with
      | scalar number value =>
          cases right with
          | scalar other found =>
              rw [toJson, toJson] at value
              cases value
              exact congrArg (scalar · _) top
          | array other elements => simp [toJson] at value
          | object other members => simp [toJson] at value
      | array number elements =>
          cases right with
          | scalar other found => simp [toJson] at value
          | array other others =>
              rw [toJson, toJson, Json.array.injEq] at value
              have same : elements = others :=
                eq_of_numbers (fun child inside _ => ih child inside) value below
              rw [same]
              exact congrArg (array · others) top
          | object other members => simp [toJson] at value
      | object number members =>
          cases right with
          | scalar other found => simp [toJson] at value
          | array other elements => simp [toJson] at value
          | object other others =>
              rw [toJson, toJson, Json.object.injEq] at value
              have keys : members.map Prod.fst = others.map Prod.fst := by
                have firsts := congrArg (List.map Prod.fst) value
                rwa [List.map_map, List.map_map] at firsts
              have values :
                  (members.map Prod.snd).map toJson = (others.map Prod.snd).map toJson := by
                have seconds := congrArg (List.map Prod.snd) value
                rw [List.map_map, List.map_map] at seconds
                rwa [List.map_map, List.map_map]
              have trees : members.map Prod.snd = others.map Prod.snd :=
                eq_of_numbers (fun child inside _ => ih child inside) values below
              have same : members = others :=
                (List.zip_of_prod keys trees).trans (List.zip_of_prod rfl rfl).symm
              rw [same]
              exact congrArg (object · others) top

/-- A value laid out again is the tree that it was read from, numbered in order. -/
theorem ofJson_toJson (first : NodeId) (distinct : tree.numbers.Nodup) :
    ofJson first tree.toJson = tree.renumber fun number => first + tree.numbers.idxOf number := by
  apply eq_of_toJson_of_numbers
  · rw [toJson_renumber]
    exact toJson_place ..
  · rw [numbers_renumber, numbers_ofJson, size_toJson]
    apply List.ext_getElem
    · rw [List.length_map, List.length_range']
    · intro place inRange inNumbers
      rw [List.getElem_range', List.getElem_map, distinct.idxOf_getElem]
      omega

end Tree

end TemplateFill
