import TemplateFill.Proofs.Mapping.Bindings
import TemplateFill.Proofs.Mapping.Mappings

/-!
Chains of nested collections.

Each collection of a chain repeats for the entries of one list and holds the next collection; the
innermost holds a property that takes one member of an entry. Besides these the chain has no mappings.
A chain is a matter of values; `Tree.Repeats` names the nodes of one collection of it.
-/

namespace TemplateFill

/-- An element that is a chain: its collections run over the lists with the given names, each below the
entries of the one before, and its property takes the field. The steps lead to the first list's owner. -/
inductive Chain (field : String) : List Step → List String → Json → Prop
  | property {front : List Step} {element qualifier : Json}
      (mappings : element.mappings = [qualifier])
      (tagged : Json.view.hasTag QualifierType.mappingInfo.tag qualifier = true)
      (path : qualifier.stringMember? Key.value = some (Step.path (front ++ [.name field]))) :
      Chain field front [] element
  | collection {front : List Step} {name : String} {names : List String}
      {element inner qualifier : Json} {list : List Json}
      (kind : element.stringMember? Key.modelType = some ModelType.collection.name)
      (container : element.member? Key.qualifiers = some (.array list))
      (only : list.filter Json.view.isIndexed = [qualifier])
      (tagged : Json.view.hasTag QualifierType.collectionMappingInfo.tag qualifier = true)
      (path : qualifier.stringMember? Key.value =
        some (Step.path (front ++ [.name name, .every])))
      (optional : ∀ sibling ∈ list, Json.view.hasTag QualifierType.cardinality.tag sibling = true →
        ∀ stated, sibling.stringMember? Key.value = some stated →
          Cardinality.ofValue (some stated) = .optional)
      (content : element.member? Key.value = some (.array [inner]))
      (mappings : element.mappings = qualifier :: inner.mappings)
      (rest : Chain field (front ++ [.name name, .every]) names inner) :
      Chain field front (name :: names) element

/-! ### The paths of a chain -/

/-- A path tells which steps it consists of, as far as they stand behind others. -/
theorem Step.path_ne_of_append {steps later : List Step} (some : later ≠ []) :
    path (steps ++ later) ≠ path steps := by
  intro same
  have texts := congrArg String.toList same
  rw [toList_path, toList_path, chars_append, List.cons.injEq] at texts
  have none : chars later = [] := List.append_right_eq_self.mp texts.2
  obtain ⟨step, rest, rfl⟩ := List.exists_cons_of_ne_nil some
  rw [chars_cons, List.append_eq_nil_iff] at none
  exact step.text_ne_nil none.1

/-- Every mapping of a chain has a path behind the first steps, and those of collections a step to every
entry. -/
theorem Chain.exists_path {field : String} {front : List Step} {names : List String} {element : Json}
    (chain : Chain field front names element) (plainField : PlainName field)
    (plain : ∀ name ∈ names, PlainName name) :
    ∀ qualifier ∈ element.mappings, ∃ later, later ≠ [] ∧ (∀ step ∈ later, step.Plain) ∧
      qualifier.stringMember? Key.value = some (Step.path (front ++ later)) ∧
      (Json.view.hasTag QualifierType.collectionMappingInfo.tag qualifier = true →
        .every ∈ later) := by
  induction chain with
  | @property front element qualifier mappings tagged path =>
      intro found inside
      rw [mappings, List.mem_singleton] at inside
      subst inside
      refine ⟨[.name field], List.cons_ne_nil _ _, ?_, path, ?_⟩
      · intro step single
        rw [List.mem_singleton.mp single]
        exact plainField
      · intro also
        unfold View.hasTag at tagged also
        rw [beq_iff_eq] at tagged also
        rw [tagged] at also
        exact absurd also (by decide)
  | @collection front name names element inner qualifier list kind container only tagged path
      optional content mappings rest ih =>
      have first : (Step.name name).Plain := plain name (List.mem_cons_self ..)
      intro found inside
      rw [mappings] at inside
      rcases List.mem_cons.mp inside with rfl | inside
      · refine ⟨[.name name, .every], List.cons_ne_nil _ _, ?_, path, fun _ => by simp⟩
        intro step known
        rcases List.mem_pair.mp known with rfl | rfl
        · exact first
        · trivial
      · obtain ⟨later, _, each, value, _⟩ :=
          ih (fun other known => plain other (List.mem_cons_of_mem _ known)) found inside
        refine ⟨.name name :: .every :: later, List.cons_ne_nil _ _, ?_, ?_, fun _ => by simp⟩
        · intro step known
          rcases List.mem_cons.mp known with rfl | known
          · exact first
          · rcases List.mem_cons.mp known with rfl | known
            · trivial
            · exact each step known
        · rw [value, List.append_assoc]
          rfl

/-! ### Collections as trees -/

namespace Tree

/-- A tree that is one collection of a chain, with its nodes: the qualifier that repeats it stands in a
container, and the rest of the chain is the only element of its value. -/
structure Repeats (path : String) (element : Tree) (container : NodeId) (list : List Tree)
    (qualifier : Tree) (content : NodeId) (inner : Tree) : Prop where
  kind : element.stringMember? Key.modelType = some ModelType.collection.name
  qualifiers : element.member? Key.qualifiers = some (.array container list)
  only : list.filter view.isIndexed = [qualifier]
  tagged : view.hasTag QualifierType.collectionMappingInfo.tag qualifier = true
  value : qualifier.stringMember? Key.value = some path
  optional : ∀ sibling ∈ list, view.hasTag QualifierType.cardinality.tag sibling = true →
    ∀ stated, sibling.stringMember? Key.value = some stated →
      Cardinality.ofValue (some stated) = .optional
  member : element.member? Key.value = some (.array content [inner])
  mappings : element.mappings = qualifier :: inner.mappings

theorem Repeats.qualifier_mem {path : String} {element : Tree} {container : NodeId}
    {list : List Tree} {qualifier : Tree} {content : NodeId} {inner : Tree}
    (repeats : element.Repeats path container list qualifier content inner) : qualifier ∈ list := by
  have single : qualifier ∈ list.filter view.isIndexed := by
    rw [repeats.only]
    exact List.mem_singleton.mpr rfl
  exact (List.mem_filter.mp single).1

theorem Repeats.inner_mem_preorder {path : String} {element : Tree} {container : NodeId}
    {list : List Tree} {qualifier : Tree} {content : NodeId} {inner : Tree}
    (repeats : element.Repeats path container list qualifier content inner) :
    inner ∈ element.preorder :=
  preorder_trans (child_mem_preorder (mem_children_of_member? repeats.member))
    (child_mem_preorder (List.mem_singleton.mpr rfl))

/-- If one element of a list has as many mappings as the list, the elements around it have none. -/
theorem flatMap_mappings_eq_nil {before after : List Tree} {tree : Tree}
    (whole : ((before ++ tree :: after).flatMap Tree.mappings).length = tree.mappings.length) :
    before.flatMap Tree.mappings = [] ∧ after.flatMap Tree.mappings = [] := by
  rw [List.flatMap_append, List.flatMap_cons, List.length_append, List.length_append] at whole
  exact ⟨List.length_eq_zero_iff.mp (by omega), List.length_eq_zero_iff.mp (by omega)⟩

theorem mappings_eq_nil {list : List Tree} {tree : Tree} (inside : tree ∈ list)
    (whole : list.flatMap Tree.mappings = tree.mappings) {other : Tree} (listed : other ∈ list)
    (different : other ≠ tree) : other.mappings = [] := by
  obtain ⟨before, after, rfl⟩ := List.append_of_mem inside
  obtain ⟨first, last⟩ := flatMap_mappings_eq_nil (congrArg List.length whole)
  rcases List.mem_append.mp listed with left | right
  · exact List.flatMap_eq_nil_iff.mp first other left
  · rcases List.mem_cons.mp right with same | right
    · exact absurd same different
    · exact List.flatMap_eq_nil_iff.mp last other right

theorem exists_array_of_toJson {tree : Tree} {elements : List Json}
    (same : tree.toJson = .array elements) :
    ∃ number list, tree = .array number list ∧ elements = list.map toJson := by
  cases tree with
  | scalar number value => rw [toJson] at same; cases same
  | array number list =>
      rw [toJson] at same
      cases same
      exact ⟨number, list, rfl, rfl⟩
  | object number members => rw [toJson] at same; cases same

theorem exists_member?_of_toJson {tree : Tree} {key : String} {value : Json}
    (found : tree.toJson.member? key = some value) :
    ∃ member, tree.member? key = some member ∧ member.toJson = value := by
  rw [member?_toJson] at found
  exact Option.map_eq_some_iff.mp found

theorem hasTag_toJson (tag : String) (tree : Tree) :
    Json.view.hasTag tag tree.toJson = view.hasTag tag tree :=
  toJson_carries.hasTag trivial tag

theorem filter_isIndexed_toJson (list : List Tree) :
    (list.map toJson).filter Json.view.isIndexed = (list.filter view.isIndexed).map toJson := by
  rw [List.filter_map]
  refine congrArg _ (List.filter_congr fun tree _ => ?_)
  exact toJson_carries.isIndexed trivial

end Tree

/-- The nodes of the first collection of a chain. -/
theorem Chain.exists_repeats {field : String} {front : List Step} {name : String}
    {names : List String} {element : Tree} (chain : Chain field front (name :: names) element.toJson) :
    ∃ container list qualifier content inner,
      element.Repeats (Step.path (front ++ [.name name, .every])) container list qualifier content
        inner ∧
      Chain field (front ++ [.name name, .every]) names inner.toJson := by
  generalize valueEq : element.toJson = value at chain
  cases chain with
  | collection kind container only tagged path optional content mappings rest =>
      subst valueEq
      obtain ⟨holder, holderMember, holderValue⟩ := Tree.exists_member?_of_toJson container
      obtain ⟨holderNumber, list, rfl, rfl⟩ := Tree.exists_array_of_toJson holderValue
      obtain ⟨array, arrayMember, arrayValue⟩ := Tree.exists_member?_of_toJson content
      obtain ⟨arrayNumber, inside, rfl, split⟩ := Tree.exists_array_of_toJson arrayValue
      obtain ⟨inner, rfl, rfl⟩ := List.map_eq_singleton_iff.mp split.symm
      rw [Tree.filter_isIndexed_toJson] at only
      obtain ⟨qualifier, listed, rfl⟩ := List.map_eq_singleton_iff.mp only
      have owned : Tree.view.owned Tree.view.isIndexed element = [qualifier] := by
        rw [View.owned_of_some _ holderMember]
        exact listed
      refine ⟨holderNumber, list, qualifier, arrayNumber, inner, ?_, rest⟩
      refine
        { kind := (Tree.stringMember?_toJson ..).symm.trans kind
          qualifiers := holderMember
          only := listed
          tagged := (Tree.hasTag_toJson ..).symm.trans tagged
          value := (Tree.stringMember?_toJson ..).symm.trans path
          optional := ?_
          member := arrayMember
          mappings := ?_ }
      · intro sibling known isCardinality stated found
        refine optional sibling.toJson (List.mem_map_of_mem known) ?_ stated ?_
        · rwa [Tree.hasTag_toJson]
        · rwa [Tree.stringMember?_toJson]
      · have whole : (Tree.array arrayNumber [inner]).mappings = inner.mappings := by
          rw [Tree.mappings_array, List.flatMap_singleton]
        have lengths := congrArg List.length mappings
        rw [Tree.mappings_toJson, Tree.mappings_toJson, List.length_map, List.length_cons,
          List.length_map, Tree.mappings_eq, owned, List.length_append, List.length_singleton,
          Nat.add_comm, Nat.add_right_cancel_iff, ← whole] at lengths
        obtain ⟨before, after, children⟩ :=
          List.append_of_mem (Tree.mem_children_of_member? arrayMember)
        rw [children] at lengths
        obtain ⟨first, last⟩ := Tree.flatMap_mappings_eq_nil lengths
        rw [Tree.mappings_eq, owned, children, List.flatMap_append, List.flatMap_cons, whole, first,
          last, List.append_nil]
        rfl

theorem Tree.Repeats.chain {field : String} {front : List Step} {name : String}
    {names : List String} {element : Tree} {container : NodeId} {list : List Tree} {qualifier : Tree}
    {content : NodeId} {inner : Tree}
    (repeats : element.Repeats (Step.path (front ++ [.name name, .every])) container list qualifier
      content inner)
    (rest : Chain field (front ++ [.name name, .every]) names inner.toJson) :
    Chain field front (name :: names) element.toJson := by
  refine @Chain.collection field front name names element.toJson inner.toJson qualifier.toJson
    (list.map Tree.toJson) ?_ ?_ ?_ ?_ ?_ ?_ ?_ ?_ rest
  · rw [Tree.stringMember?_toJson, repeats.kind]
  · rw [Tree.member?_toJson, repeats.qualifiers, Option.map_some, Tree.toJson]
  · rw [Tree.filter_isIndexed_toJson, repeats.only, List.map_singleton]
  · rw [Tree.hasTag_toJson, repeats.tagged]
  · rw [Tree.stringMember?_toJson, repeats.value]
  · intro sibling known isCardinality stated found
    obtain ⟨tree, listed, rfl⟩ := List.mem_map.mp known
    rw [Tree.hasTag_toJson] at isCardinality
    rw [Tree.stringMember?_toJson] at found
    exact repeats.optional tree listed isCardinality stated found
  · rw [Tree.member?_toJson, repeats.member, Option.map_some, Tree.toJson, List.map_singleton]
  · rw [Tree.mappings_toJson, repeats.mappings, List.map_cons, Tree.mappings_toJson]

end TemplateFill
