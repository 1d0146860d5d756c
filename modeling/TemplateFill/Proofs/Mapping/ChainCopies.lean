import TemplateFill.Proofs.Mapping.Chain
import TemplateFill.Proofs.Mapping.Copies

/-!
Copies of a collection of a chain.

A copy loses the one qualifier that caused it. What is left of its mappings is the rest of the chain with
its paths bound to one entry, and this is a chain again. The texts that a copy gets are those of its short
name and of the paths of its mappings, so types and kinds stay as they are.
-/

namespace TemplateFill

namespace Tree

theorem mappings_retext {texts : NodeId → Option String} {tree : Tree}
    (types : ∀ node ∈ tree.preorder,
      (node.retext texts).stringMember? Key.type = node.stringMember? Key.type) :
    (tree.retext texts).mappings = tree.mappings.map (retext texts) := by
  have changed := @qualifiersBelow_change view.isIndexed (fun _ => true) (retext texts) tree
    (fun node _ => by rw [children_retext, List.filter_true])
    (fun node _ => member?_retext texts node Key.qualifiers)
    (fun node within => isIndexed_congr (types node within)) nofun
  rw [List.filter_true] at changed
  exact changed

/-- Texts that keep all types and kinds of a tree, and all cardinalities that it states. -/
structure Keeps (texts : NodeId → Option String) (tree : Tree) : Prop where
  types : ∀ node ∈ tree.preorder,
    (node.retext texts).stringMember? Key.type = node.stringMember? Key.type
  kinds : ∀ node ∈ tree.preorder,
    (node.retext texts).stringMember? Key.modelType = node.stringMember? Key.modelType
  stated : ∀ node ∈ tree.preorder, view.hasTag QualifierType.cardinality.tag node = true →
    (node.retext texts).stringMember? Key.value = node.stringMember? Key.value

theorem Keeps.below {texts : NodeId → Option String} {tree node : Tree} (keeps : Keeps texts tree)
    (within : node ∈ tree.preorder) : Keeps texts node :=
  { types := fun lower deeper => keeps.types lower (preorder_trans within deeper)
    kinds := fun lower deeper => keeps.kinds lower (preorder_trans within deeper)
    stated := fun lower deeper => keeps.stated lower (preorder_trans within deeper) }

theorem Repeats.retext {path bound : String} {element : Tree} {container : NodeId} {list : List Tree}
    {qualifier : Tree} {content : NodeId} {inner : Tree}
    (repeats : element.Repeats path container list qualifier content inner)
    {texts : NodeId → Option String} (keeps : Keeps texts element)
    (value : (qualifier.retext texts).stringMember? Key.value = some bound) :
    (element.retext texts).Repeats bound container (list.map (Tree.retext texts))
      (qualifier.retext texts) content (inner.retext texts) := by
  have inList : ∀ sibling ∈ list, sibling ∈ element.preorder := fun sibling inside =>
    preorder_trans (child_mem_preorder (mem_children_of_member? repeats.qualifiers))
      (child_mem_preorder inside)
  refine
    { kind := (keeps.kinds element element.self_mem_preorder).trans repeats.kind
      qualifiers := ?_
      only := ?_
      tagged := ?_
      value := value
      optional := ?_
      member := ?_
      mappings := ?_ }
  · rw [member?_retext, repeats.qualifiers, Option.map_some, Tree.retext]
  · rw [List.filter_map, ← List.map_singleton, ← repeats.only]
    refine congrArg _ (List.filter_congr fun sibling inside => ?_)
    exact isIndexed_congr (keeps.types sibling (inList sibling inside))
  · rw [hasTag_congr (keeps.types qualifier (inList qualifier repeats.qualifier_mem)), repeats.tagged]
  · intro sibling inside isCardinality text found
    obtain ⟨old, listed, rfl⟩ := List.mem_map.mp inside
    have within := inList old listed
    rw [hasTag_congr (keeps.types old within)] at isCardinality
    rw [keeps.stated old within isCardinality] at found
    exact repeats.optional old listed isCardinality text found
  · rw [member?_retext, repeats.member, Option.map_some, Tree.retext, List.map_singleton]
  · rw [mappings_retext keeps.types, repeats.mappings, List.map_cons,
      mappings_retext (keeps.below repeats.inner_mem_preorder).types]

end Tree

/-- Texts that bind the paths of a chain to an entry, and keep what else it says, make it the chain of
the entry. -/
theorem Chain.retext {field : String} {steps : List Step} {position : Nat} {names : List String}
    (plainField : PlainName field) (plain : ∀ name ∈ names, PlainName name)
    {texts : NodeId → Option String} {middle : List Step} {tree : Tree}
    (chain : Chain field (steps ++ .every :: middle) names tree.toJson)
    (plainMiddle : ∀ step ∈ middle, step.Plain) (keeps : Tree.Keeps texts tree)
    (bound : ∀ qualifier ∈ tree.mappings, ∀ later, (∀ step ∈ later, step.Plain) →
      qualifier.stringMember? Key.value = some (Step.path (steps ++ .every :: later)) →
        (qualifier.retext texts).stringMember? Key.value =
          some (Step.path (steps ++ .entry position :: later))) :
    Chain field (steps ++ .entry position :: middle) names (tree.retext texts).toJson := by
  induction names generalizing middle tree with
  | nil =>
      generalize valueEq : tree.toJson = value at chain
      cases chain with
      | @property _ _ qualifier mappings tagged path =>
          subst valueEq
          rw [Tree.mappings_toJson] at mappings
          obtain ⟨found, single, rfl⟩ := List.map_eq_singleton_iff.mp mappings
          rw [Tree.hasTag_toJson] at tagged
          rw [Tree.stringMember?_toJson, List.append_assoc] at path
          have inside : found ∈ tree.mappings := by
            rw [single]
            exact List.mem_singleton.mpr rfl
          have within := Tree.mem_preorder_of_qualifier inside
          refine @Chain.property field _ _ (found.retext texts).toJson ?_ ?_ ?_
          · rw [Tree.mappings_toJson, Tree.mappings_retext keeps.types, single]
            rfl
          · rw [Tree.hasTag_toJson, Tree.hasTag_congr (keeps.types found within), tagged]
          · rw [Tree.stringMember?_toJson, List.append_assoc]
            refine bound found inside (middle ++ [Step.name field]) ?_ path
            exact List.forall_mem_append.mpr ⟨plainMiddle, List.forall_mem_singleton.mpr plainField⟩
  | cons name names ih =>
      obtain ⟨container, list, qualifier, content, inner, repeats, rest⟩ := chain.exists_repeats
      have plainNext : ∀ step ∈ middle ++ [.name name, .every], step.Plain :=
        List.forall_mem_append.mpr ⟨plainMiddle, List.forall_mem_cons.mpr
          ⟨plain name (List.mem_cons_self ..), List.forall_mem_singleton.mpr trivial⟩⟩
      have value : (qualifier.retext texts).stringMember? Key.value =
          some (Step.path ((steps ++ .entry position :: middle) ++ [.name name, .every])) := by
        rw [List.append_assoc]
        refine bound qualifier ?_ (middle ++ [.name name, .every]) plainNext ?_
        · rw [repeats.mappings]
          exact List.mem_cons_self ..
        · rw [repeats.value, List.append_assoc]
          rfl
      apply (repeats.retext keeps value).chain
      rw [List.append_assoc] at rest ⊢
      refine ih (fun other known => plain other (List.mem_cons_of_mem _ known)) rest plainNext
        (keeps.below repeats.inner_mem_preorder) ?_
      intro found inside
      apply bound found
      rw [repeats.mappings]
      exact List.mem_cons_of_mem _ inside

/-! ### What a copy loses -/

namespace Tree

variable {document : Document} {path : String} {copy : Tree} {container : NodeId}
  {list : List Tree} {qualifier : Tree} {content : NodeId} {inner : Tree}

namespace Repeats

theorem apart (repeats : copy.Repeats path container list qualifier content inner)
    (wellFormed : document.WellFormed) (holds : document.Holds copy) :
    container ≠ content := by
  intro same
  have keys := (wellFormed.member_inj holds holds repeats.qualifiers repeats.member same).2
  exact absurd keys (by decide)

theorem disjoint (repeats : copy.Repeats path container list qualifier content inner)
    (wellFormed : document.WellFormed) (holds : document.Holds copy) :
    List.Disjoint qualifier.numbers inner.numbers := by
  have separate := holds.disjoint_children (mem_children_of_member? repeats.qualifiers)
    (mem_children_of_member? repeats.member) (repeats.apart wellFormed holds)
  intro number left right
  apply separate (numbers_subset (child_mem_preorder repeats.qualifier_mem) left)
  exact numbers_subset (child_mem_preorder (List.mem_singleton.mpr rfl)) right

theorem bare (repeats : copy.Repeats path container list qualifier content inner)
    (wellFormed : document.WellFormed) (holds : document.Holds copy) :
    qualifier.mappings = [] := by
  have owned : view.owned view.isIndexed copy = [qualifier] := by
    rw [View.owned_of_some _ repeats.qualifiers]
    exact repeats.only
  have whole : copy.children.flatMap Tree.mappings = (Tree.array content [inner]).mappings := by
    have split := copy.mappings_eq
    rw [owned, repeats.mappings] at split
    rw [mappings_array, List.flatMap_singleton]
    exact (List.cons.inj split).2.symm
  have none := mappings_eq_nil (mem_children_of_member? repeats.member) whole
    (mem_children_of_member? repeats.qualifiers) fun same =>
      repeats.apart wellFormed holds (congrArg number same)
  rw [mappings_array] at none
  exact List.flatMap_eq_nil_iff.mp none qualifier repeats.qualifier_mem

theorem not_member (repeats : copy.Repeats path container list qualifier content inner)
    (holds : document.Holds copy) {node : Tree} (within : node ∈ copy.preorder) (number : NodeId)
    (members : List (String × Tree)) (isObject : node = .object number members) :
    ∀ member ∈ members, [qualifier.number].contains member.2.number = false := by
  intro member inside
  rw [Bool.eq_false_iff]
  intro listed
  have same := List.mem_singleton.mp (List.contains_iff_mem.mp listed)
  have held := holds.of_mem_preorder within
  have listHolds := holds.of_mem_children (mem_children_of_member? repeats.qualifiers)
  subst isObject
  have link := held.linked (List.mem_map_of_mem inside)
  rw [same, listHolds.linked repeats.qualifier_mem] at link
  cases held.unique listHolds (Option.some.inj link).symm

theorem triggers_eq (repeats : copy.Repeats path container list qualifier content inner)
    (others : ∀ found ∈ inner.mappings, found.stringMember? Key.value ≠ some path) :
    copy.triggers path = [qualifier.number] := by
  unfold triggers
  have dropped : (inner.mappings.filter
      (view.hasTag QualifierType.collectionMappingInfo.tag)).filter (fun found =>
        found.stringMember? Key.value == some path) = [] := by
    rw [List.filter_eq_nil_iff]
    intro found inside passes
    exact others found (List.mem_filter.mp inside).1 (beq_iff_eq.mp passes)
  rw [qualifiersBelow_collection, repeats.mappings, List.filter_cons_of_pos repeats.tagged,
    List.filter_cons, dropped]
  simp [repeats.value]

theorem isIndexed_pruned (repeats : copy.Repeats path container list qualifier content inner)
    (holds : document.Holds copy) {texts : NodeId → Option String} {node : Tree}
    (within : node ∈ copy.preorder) (types : ∀ member, node.member? Key.type = some member →
      texts member.number = none) :
    view.isIndexed ((node.without [qualifier.number].contains).retext texts) =
      view.isIndexed node := by
  apply isIndexed_congr
  rw [stringMember?, stringMember?, member?_retext,
    member?_without _ (repeats.not_member holds within)]
  cases found : node.member? Key.type with
  | none => rfl
  | some member =>
      rw [Option.map_some, Option.map_some, Option.bind_some, Option.bind_some,
        string?_retext (by rw [number_without]; exact types member found), string?_without]

theorem mappings_pruned (repeats : copy.Repeats path container list qualifier content inner)
    (wellFormed : document.WellFormed) (holds : document.Holds copy)
    {texts : NodeId → Option String}
    (types : ∀ node ∈ copy.preorder, ∀ member, node.member? Key.type = some member →
      texts member.number = none) :
    ((copy.without [qualifier.number].contains).retext texts).mappings =
      inner.mappings.map (Tree.retext texts) := by
  have changed := @qualifiersBelow_change view.isIndexed
    (fun node => !([qualifier.number].contains node.number))
    (fun node => (node.without [qualifier.number].contains).retext texts) copy ?_ ?_ ?_ ?_
  · apply changed.trans
    have kept : ∀ found ∈ inner.mappings, [qualifier.number].contains found.number = false := by
      intro found inside
      rw [Bool.eq_false_iff]
      intro listed
      have same := List.mem_singleton.mp (List.contains_iff_mem.mp listed)
      apply repeats.disjoint wellFormed holds qualifier.number_mem_numbers
      rw [← same]
      exact mem_numbers_of_mem_preorder (mem_preorder_of_qualifier inside)
    change (List.filter _ copy.mappings).map _ = _
    rw [repeats.mappings, List.filter_cons_of_neg (by simp),
      List.filter_eq_self.mpr fun found inside => by rw [kept found inside]; rfl]
    refine List.map_congr_left fun found inside => congrArg (Tree.retext texts) ?_
    refine without_of_disjoint fun number listed shared => ?_
    rw [List.mem_singleton.mp listed] at shared
    exact repeats.disjoint wellFormed holds qualifier.number_mem_numbers
      (numbers_subset (mem_preorder_of_qualifier inside) shared)
  · intro node _
    rw [children_retext, children_without, List.map_map]
    rfl
  · intro node within
    rw [member?_retext, member?_without _ (repeats.not_member holds within), Option.map_map]
    rfl
  · exact fun node within => repeats.isIndexed_pruned holds within (types node within)
  · intro node within dropped
    rw [Bool.not_eq_false'] at dropped
    have same := List.mem_singleton.mp (List.contains_iff_mem.mp dropped)
    have qualifierHolds := (holds.of_mem_children
      (mem_children_of_member? repeats.qualifiers)).of_mem_children repeats.qualifier_mem
    rw [(holds.of_mem_preorder within).unique qualifierHolds same]
    exact repeats.bare wellFormed holds

end Repeats

/-! ### What a copy gets -/

def copyTexts (path : String) (binding : Binding) (position : Nat) (copy : Tree) (number : NodeId) :
    Option String :=
  (textsOf ((((copy.pruned path).numbered position).boundTexts binding position).map Prod.snd)
    number).orElse fun _ => textsOf ((copy.pruned path).shortNames position) number

theorem prepared_eq (path : String) (binding : Binding) (position : Nat) (copy : Tree) :
    copy.prepared path binding position =
      (copy.pruned path).retext (copy.copyTexts path binding position) :=
  retext_retext ..

namespace Repeats

variable {binding : Binding} {position : Nat}

/-- If no other mapping has the path of the qualifier, the copy loses its qualifier alone. -/
theorem pruned_eq (repeats : copy.Repeats path container list qualifier content inner)
    (others : ∀ found ∈ inner.mappings, found.stringMember? Key.value ≠ some path) :
    copy.pruned path = copy.without [qualifier.number].contains := by
  rw [pruned, repeats.triggers_eq others]

theorem exists_of_shortNames (repeats : copy.Repeats path container list qualifier content inner)
    (holds : document.Holds copy)
    (others : ∀ found ∈ inner.mappings, found.stringMember? Key.value ≠ some path)
    {number : NodeId} {text : String}
    (given : textsOf ((copy.pruned path).shortNames position) number = some text) :
    ∃ member, copy.member? Key.idShort = some member ∧ member.number = number := by
  obtain ⟨name, found⟩ := mem_shortNames (mem_of_textsOf given)
  rw [repeats.pruned_eq others,
    member?_without _ (repeats.not_member holds copy.self_mem_preorder)] at found
  obtain ⟨member, present, same⟩ := Option.map_eq_some_iff.mp found
  refine ⟨member, present, ?_⟩
  rw [← number_without [qualifier.number].contains member, same]
  rfl

theorem mappings_numbered (repeats : copy.Repeats path container list qualifier content inner)
    (wellFormed : document.WellFormed) (holds : document.Holds copy)
    (others : ∀ found ∈ inner.mappings, found.stringMember? Key.value ≠ some path) :
    ((copy.pruned path).numbered position).mappings = inner.mappings := by
  have types : ∀ node ∈ copy.preorder, ∀ member, node.member? Key.type = some member →
      textsOf ((copy.pruned path).shortNames position) member.number = none := by
    intro node within member found
    rw [Option.eq_none_iff_forall_ne_some]
    intro text given
    obtain ⟨name, present, same⟩ := repeats.exists_of_shortNames holds others given
    have keys := (wellFormed.member_inj holds (holds.of_mem_preorder within) present found same).2
    exact absurd keys (by decide)
  rw [numbered]
  conv => lhs; arg 1; arg 2; rw [repeats.pruned_eq others]
  rw [repeats.mappings_pruned wellFormed holds types]
  refine (List.map_congr_left fun found inside => ?_).trans (List.map_id _)
  refine retext_of_not_mem fun number shared => ?_
  rw [Option.eq_none_iff_forall_ne_some]
  intro text given
  obtain ⟨name, present, rfl⟩ := repeats.exists_of_shortNames holds others given
  have apart : name.number ≠ (array content [inner]).number := by
    intro same
    have keys := (wellFormed.member_inj holds holds present repeats.member same).2
    exact absurd keys (by decide)
  refine holds.disjoint_children (mem_children_of_member? present)
    (mem_children_of_member? repeats.member) apart name.number_mem_numbers ?_
  apply numbers_subset (child_mem_preorder (List.mem_singleton.mpr rfl))
  exact numbers_subset (mem_preorder_of_qualifier inside) shared

/-- The texts of a copy go to its short name and to the paths of the rest of the chain. -/
theorem exists_of_copyTexts (repeats : copy.Repeats path container list qualifier content inner)
    (wellFormed : document.WellFormed) (holds : document.Holds copy)
    (others : ∀ found ∈ inner.mappings, found.stringMember? Key.value ≠ some path)
    {number : NodeId} {text : String}
    (given : copy.copyTexts path binding position number = some text) :
    (∃ member, copy.member? Key.idShort = some member ∧ member.number = number) ∨
      ∃ found ∈ inner.mappings, ∃ old, found.member? Key.value = some (.scalar number (.string old)) ∧
        text = binding.bind old position := by
  rw [copyTexts] at given
  cases bound : textsOf ((((copy.pruned path).numbered position).boundTexts binding position).map
      Prod.snd) number with
  | none =>
      rw [bound] at given
      exact Or.inl (repeats.exists_of_shortNames holds others given)
  | some last =>
      rw [bound] at given
      cases given
      obtain ⟨entry, listed, same⟩ := List.mem_map.mp (mem_of_textsOf bound)
      obtain ⟨found, inside, old, member, _, shape⟩ := mem_boundTexts listed
      have inside : found ∈ ((copy.pruned path).numbered position).mappings := inside
      rw [repeats.mappings_numbered wellFormed holds others] at inside
      rw [same] at member
      refine Or.inr ⟨found, inside, old, member, ?_⟩
      rw [shape] at same
      exact (congrArg Prod.snd same).symm

/-- Every path of the rest of the chain that starts with the list gets bound. -/
theorem copyTexts_eq (repeats : copy.Repeats path container list qualifier content inner)
    (wellFormed : document.WellFormed) (holds : document.Holds copy)
    (others : ∀ found ∈ inner.mappings, found.stringMember? Key.value ≠ some path)
    {found : Tree} (inside : found ∈ inner.mappings) {number : NodeId} {old : String}
    (member : found.member? Key.value = some (.scalar number (.string old)))
    (applies : binding.appliesTo old = true) :
    copy.copyTexts path binding position number = some (binding.bind old position) := by
  have listed : (found.number, number, binding.bind old position) ∈
      ((copy.pruned path).numbered position).boundTexts binding position := by
    refine List.mem_filterMap.mpr ⟨found, ?_, ?_⟩
    · change found ∈ ((copy.pruned path).numbered position).mappings
      rw [repeats.mappings_numbered wellFormed holds others]
      exact inside
    · rw [boundText, member]
      exact if_pos applies
  have some : ∃ text, textsOf ((((copy.pruned path).numbered position).boundTexts binding
      position).map Prod.snd) number = some text :=
    exists_textsOf (List.mem_map_of_mem (List.mem_map_of_mem listed))
  obtain ⟨text, bound⟩ := some
  have given : copy.copyTexts path binding position number = Option.some text := by
    rw [copyTexts, bound]
    rfl
  obtain ⟨entry, known, same⟩ := List.mem_map.mp (mem_of_textsOf bound)
  obtain ⟨other, otherInside, otherOld, otherMember, _, shape⟩ := mem_boundTexts known
  have otherInside : other ∈ ((copy.pruned path).numbered position).mappings := otherInside
  rw [repeats.mappings_numbered wellFormed holds others] at otherInside
  have within := fun {node : Tree} (known : node ∈ inner.mappings) =>
    holds.of_mem_preorder (preorder_trans repeats.inner_mem_preorder
      (mem_preorder_of_qualifier known))
  rw [same] at otherMember
  have equal := (wellFormed.member_inj (within inside) (within otherInside) member otherMember
    rfl).1
  subst equal
  rw [member] at otherMember
  cases otherMember
  rw [shape] at same
  rw [given]
  exact congrArg Option.some (congrArg Prod.snd same).symm

theorem copyTexts_eq_none (repeats : copy.Repeats path container list qualifier content inner)
    (wellFormed : document.WellFormed) (holds : document.Holds copy)
    (others : ∀ found ∈ inner.mappings, found.stringMember? Key.value ≠ some path)
    {node : Tree} (within : node ∈ copy.preorder) {key : String} (named : key ≠ Key.idShort)
    (notPath : key = Key.value → node ∉ inner.mappings) {member : Tree}
    (found : node.member? key = some member) :
    copy.copyTexts path binding position member.number = none := by
  rw [Option.eq_none_iff_forall_ne_some]
  intro text given
  have nodeHolds := holds.of_mem_preorder within
  rcases repeats.exists_of_copyTexts wellFormed holds others given with
    ⟨name, present, same⟩ | ⟨mapping, inside, old, present, _⟩
  · exact named (wellFormed.member_inj nodeHolds holds found present same.symm).2
  · have mappingHolds := holds.of_mem_preorder
      (preorder_trans repeats.inner_mem_preorder (mem_preorder_of_qualifier inside))
    obtain ⟨equal, keys⟩ := wellFormed.member_inj nodeHolds mappingHolds found present rfl
    exact notPath keys (equal ▸ inside)

theorem keeps_copyTexts (repeats : copy.Repeats path container list qualifier content inner)
    (wellFormed : document.WellFormed) (holds : document.Holds copy)
    (others : ∀ found ∈ inner.mappings, found.stringMember? Key.value ≠ some path) :
    Keeps (copy.copyTexts path binding position) inner := by
  have innerIn : ∀ node ∈ inner.preorder, node ∈ copy.preorder := fun node within =>
    preorder_trans repeats.inner_mem_preorder within
  refine { types := ?_, kinds := ?_, stated := ?_ }
  · exact fun node within => stringMember?_retext fun member => repeats.copyTexts_eq_none wellFormed
      holds others (innerIn node within) (by decide) fun same => absurd same (by decide)
  · exact fun node within => stringMember?_retext fun member => repeats.copyTexts_eq_none wellFormed
      holds others (innerIn node within) (by decide) fun same => absurd same (by decide)
  · intro node within isCardinality
    refine stringMember?_retext fun member => repeats.copyTexts_eq_none wellFormed holds others
      (innerIn node within) (by decide) fun _ inside => ?_
    have indexed : view.isIndexed node = true := by
      obtain ⟨_, _, _, _, _, passes⟩ := mem_qualifiersBelow_iff.mp inside
      exact passes
    rw [View.isIndexed, hasTag_unique isCardinality (by decide),
      hasTag_unique isCardinality (by decide)] at indexed
    cases indexed

/-- The copy still has the rest of the chain when its qualifier is gone. -/
theorem member?_without_value (repeats : copy.Repeats path container list qualifier content inner)
    (wellFormed : document.WellFormed) (holds : document.Holds copy) :
    (copy.without [qualifier.number].contains).member? Key.value = some (.array content [inner]) := by
  have whole : (Tree.array content [inner]).without [qualifier.number].contains =
      .array content [inner] := by
    refine without_of_disjoint fun number listed shared => ?_
    rw [List.mem_singleton.mp listed] at shared
    have separate := holds.disjoint_children (mem_children_of_member? repeats.qualifiers)
      (mem_children_of_member? repeats.member) (repeats.apart wellFormed holds)
    refine separate ?_ shared
    exact mem_numbers_of_mem_preorder (child_mem_preorder repeats.qualifier_mem)
  rw [member?_without _ (repeats.not_member holds copy.self_mem_preorder), repeats.member,
    Option.map_some, whole]

/-- The rest of the chain has longer paths than its first collection. -/
theorem stringMember?_ne {field : String} {steps : List Step} {names : List String}
    (plainField : PlainName field) (plain : ∀ name ∈ names, PlainName name)
    (rest : Chain field steps names inner.toJson) :
    ∀ found ∈ inner.mappings, found.stringMember? Key.value ≠ some (Step.path steps) := by
  intro found inside same
  obtain ⟨later, some, _, value, _⟩ := rest.exists_path plainField plain found.toJson (by
    rw [mappings_toJson]
    exact List.mem_map_of_mem inside)
  rw [stringMember?_toJson, same] at value
  exact Step.path_ne_of_append some (Option.some.inj value).symm

/-- A prepared copy holds the rest of the chain, bound to its entry, and no other mappings. -/
theorem prepared {field : String} {steps : List Step} {names : List String}
    (plainField : PlainName field) (plain : ∀ name ∈ names, PlainName name)
    (repeats : copy.Repeats (Step.path (steps ++ [.every])) container list qualifier content inner)
    (rest : Chain field (steps ++ [.every]) names inner.toJson) (wellFormed : document.WellFormed)
    (holds : document.Holds copy) (position : Nat) :
    ∃ next, (copy.prepared (Step.path (steps ++ [.every])) (Step.binding steps) position).member?
        Key.value = some (.array content [next]) ∧
      (copy.prepared (Step.path (steps ++ [.every])) (Step.binding steps) position).mappings =
        next.mappings ∧
      Chain field (steps ++ [.entry position]) names next.toJson ∧
      view.isIndexed (copy.prepared (Step.path (steps ++ [.every])) (Step.binding steps) position) =
        view.isIndexed copy := by
  have others := stringMember?_ne plainField plain rest
  have keeps : Keeps (copy.copyTexts (Step.path (steps ++ [.every])) (Step.binding steps) position)
      inner := repeats.keeps_copyTexts wellFormed holds others
  have types : ∀ node ∈ copy.preorder, ∀ member, node.member? Key.type = some member →
      copy.copyTexts (Step.path (steps ++ [.every])) (Step.binding steps) position member.number =
        none := fun node within member =>
    repeats.copyTexts_eq_none wellFormed holds others within (by decide)
      fun same => absurd same (by decide)
  rw [prepared_eq, repeats.pruned_eq others]
  refine ⟨inner.retext (copy.copyTexts (Step.path (steps ++ [.every])) (Step.binding steps) position),
    ?_, ?_, ?_, ?_⟩
  · rw [member?_retext, repeats.member?_without_value wellFormed holds, Option.map_some, Tree.retext,
      List.map_singleton]
  · rw [repeats.mappings_pruned wellFormed holds types, mappings_retext keeps.types]
  · have rest : Chain field (steps ++ .every :: []) names inner.toJson := rest
    refine rest.retext plainField plain (fun _ none => absurd none List.not_mem_nil) keeps ?_
    intro found inside later plainLater value
    obtain ⟨number, member⟩ := exists_scalar_of_stringMember? value
    have applies := Step.appliesTo_path steps (.every :: later)
    rw [stringMember?, member?_retext, member, Option.map_some, Option.bind_some, Tree.retext,
      repeats.copyTexts_eq wellFormed holds others inside member applies,
      Step.bind_path steps plainLater]
    rfl
  · exact repeats.isIndexed_pruned holds copy.self_mem_preorder (types copy copy.self_mem_preorder)

end Repeats

/-- A copy of a chain holds, as the only element of its value, the chain of its entry. -/
theorem IsCopy.chain {limit : NodeId} {field : String} {front : List Step} {name : String}
    {names : List String} {position : Nat} {owner : Tree} (plainField : PlainName field)
    (plain : ∀ name ∈ names, PlainName name)
    (isCopy : IsCopy limit (Step.path (front ++ [.name name, .every]))
      (Step.binding (front ++ [.name name])) position owner copy)
    (chain : Chain field front (name :: names) owner.toJson) :
    ∃ content next, copy.member? Key.value = some (.array content [next]) ∧
      copy.mappings = next.mappings ∧
      Chain field (front ++ [.name name, .entry position]) names next.toJson ∧
      view.isIndexed copy = view.isIndexed owner := by
  obtain ⟨first, _, rfl⟩ := isCopy
  obtain ⟨document, wellFormed, holds⟩ := Document.exists_holds_ofJson first owner.toJson
  have value : (ofJson first owner.toJson).toJson = owner.toJson := toJson_place ..
  generalize ofJson first owner.toJson = copy at holds value
  rw [← value] at chain
  obtain ⟨container, list, qualifier, content, inner, repeats, rest⟩ := chain.exists_repeats
  have split : front ++ [.name name, .every] = (front ++ [.name name]) ++ [Step.every] := by simp
  have entry : front ++ [.name name, .entry position] =
      (front ++ [.name name]) ++ [Step.entry position] := by simp
  rw [split] at repeats rest ⊢
  obtain ⟨next, member, mappings, further, indexed⟩ :=
    repeats.prepared plainField plain rest wellFormed holds position
  rw [entry]
  refine ⟨content, next, member, mappings, further, indexed.trans ?_⟩
  rw [← toJson_carries.isIndexed trivial, ← toJson_carries.isIndexed trivial, value]

end Tree

end TemplateFill
