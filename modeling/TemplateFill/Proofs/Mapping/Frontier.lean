import TemplateFill.Proofs.Mapping.ChainCopies
import TemplateFill.Proofs.Mapping.Round
import TemplateFill.Proofs.Path.IndexVectors

/-!
The chains that a partly expanded template consists of.

In the course of expansion the mappings of the working document are those of chains that stand one after
the other, each for one entry of the data. A round takes the first chain that still has a collection and
puts in its place the chains of the entries of its list.
-/

namespace TemplateFill

namespace Expansion

/-! ### Sites -/

/-- A chain in the working document. Its element stands in an array; the steps lead to its entry of the
data, and the names are those of the lists that it still runs over. -/
structure Site where
  front : List Step
  names : List String
  array : NodeId
  elements : List Tree
  element : Tree
  entry : Json

namespace Site

def list (site : Site) : Tree := .array site.array site.elements

def paths (field : String) (site : Site) : List String :=
  (Json.indexVectors site.names site.entry).map fun vector =>
    Step.path (site.front ++ Step.entries site.names vector ++ [.name field])

structure Stands (field : String) (data : Json) (tree : Tree) (site : Site) : Prop where
  within : site.list ∈ tree.preorder
  inside : site.element ∈ site.elements
  whole : site.list.mappings = site.element.mappings
  chain : Chain field site.front site.names site.element.toJson
  plainFront : ∀ step ∈ site.front, step.Plain
  pinned : .every ∉ site.front
  plainNames : ∀ name ∈ site.names, PlainName name
  reached : Step.follow site.front data = [site.entry]
  listed : Json.Listed site.names site.entry

end Site

/-- The mappings of a tree are those of sites that stand in it, in order. -/
structure Frontier (field : String) (data : Json) (tree : Tree) (sites : List Site) : Prop where
  mappings : tree.mappings = sites.flatMap fun site => site.element.mappings
  stands : ∀ site ∈ sites, site.Stands field data tree

variable {field : String} {data : Json} {document : Document} {tree : Tree}
  {before after : List Site} {site : Site}

/-! ### Sites do not overlap -/

theorem mappings_ne_nil {front : List Step} {names : List String} {element : Tree}
    (chain : Chain field front names element.toJson) : element.mappings ≠ [] := by
  intro none
  have value := element.mappings_toJson
  rw [none] at value
  cases chain with
  | property mappings tagged path => rw [mappings] at value; cases value
  | collection kind container only tagged path optional content mappings rest =>
      rw [mappings] at value
      cases value

theorem Frontier.here (frontier : Frontier field data tree (before ++ site :: after)) :
    site.Stands field data tree :=
  frontier.stands site List.mem_append_cons_self

theorem Frontier.there (frontier : Frontier field data tree (before ++ site :: after)) {other : Site}
    (listed : other ∈ before ++ after) : other.Stands field data tree := by
  apply frontier.stands other
  rcases List.mem_append.mp listed with first | last
  · exact List.mem_append_left _ first
  · exact List.mem_append_right _ (List.mem_cons_of_mem _ last)

theorem Frontier.disjoint (frontier : Frontier field data tree (before ++ site :: after))
    (wellFormed : document.WellFormed) (holds : document.Holds tree) {other : Site}
    (listed : other ∈ before ++ after) :
    List.Disjoint site.element.mappings other.element.mappings := by
  have distinct := wellFormed.nodup_mappings holds
  rw [frontier.mappings, List.flatMap_append, List.flatMap_cons, List.nodup_append',
    List.nodup_append'] at distinct
  obtain ⟨_, ⟨_, _, behind⟩, front⟩ := distinct
  intro found here there
  rcases List.mem_append.mp listed with first | last
  · exact front (List.mem_flatMap.mpr ⟨other, first, there⟩) (List.mem_append_left _ here)
  · exact behind here (List.mem_flatMap.mpr ⟨other, last, there⟩)

theorem Frontier.apart (frontier : Frontier field data tree (before ++ site :: after))
    (wellFormed : document.WellFormed) (holds : document.Holds tree) {other : Site}
    (listed : other ∈ before ++ after) :
    site.list ∉ other.list.preorder ∧ other.list ∉ site.list.preorder := by
  have disjoint := frontier.disjoint wellFormed holds listed
  have here := frontier.here
  have there := frontier.there listed
  constructor
  · intro deeper
    obtain ⟨found, inside⟩ := List.exists_mem_of_ne_nil _ (mappings_ne_nil here.chain)
    have shared := (Tree.mappings_isInfix deeper).subset
    rw [here.whole, there.whole] at shared
    exact disjoint inside (shared inside)
  · intro deeper
    obtain ⟨found, inside⟩ := List.exists_mem_of_ne_nil _ (mappings_ne_nil there.chain)
    have shared := (Tree.mappings_isInfix deeper).subset
    rw [here.whole, there.whole] at shared
    exact disjoint (shared inside) inside

theorem Frontier.not_mem_numbers (frontier : Frontier field data tree (before ++ site :: after))
    (wellFormed : document.WellFormed) (holds : document.Holds tree) {other : Site}
    (listed : other ∈ before ++ after) : site.array ∉ other.list.numbers := by
  have here := frontier.here
  have there := frontier.there listed
  intro shared
  obtain ⟨below, within, same⟩ := Tree.exists_of_mem_numbers shared
  have belowHolds := (holds.of_mem_preorder there.within).of_mem_preorder within
  rw [belowHolds.unique (holds.of_mem_preorder here.within) same] at within
  exact (frontier.apart wellFormed holds listed).1 within

theorem Frontier.quiet (frontier : Frontier field data tree (before ++ site :: after))
    (wellFormed : document.WellFormed) (holds : document.Holds tree) {child : Tree}
    (directly : child ∈ site.elements) : child ∉ tree.mappings := by
  have here := frontier.here
  have listHolds := holds.of_mem_preorder here.within
  intro found
  rw [frontier.mappings] at found
  obtain ⟨other, listed, inside⟩ := List.mem_flatMap.mp found
  have there := frontier.stands other listed
  have otherHolds := (holds.of_mem_preorder there.within).of_mem_children there.inside
  have deeper : site.list ∈ other.element.preorder := by
    obtain ⟨top, topIn, within⟩ := Tree.exists_child_of_qualifier inside
    rcases Tree.exists_parent (Tree.mem_preorder_of_qualifier inside) with same | ⟨parent, below, link⟩
    · rw [same] at within
      exact absurd (Tree.mem_numbers_of_mem_preorder within)
        (otherHolds.number_not_mem_child topIn)
    · have parentHolds := otherHolds.of_mem_preorder below
      have linked := parentHolds.linked link
      rw [listHolds.linked directly] at linked
      rwa [listHolds.unique parentHolds (Option.some.inj linked)]
  rcases List.mem_append.mp listed with first | last
  · exact (frontier.apart wellFormed holds (List.mem_append_left _ first)).1
      (Tree.preorder_trans (Tree.child_mem_preorder there.inside) deeper)
  · rcases List.mem_cons.mp last with same | last
    · subst same
      exact listHolds.number_not_mem_child here.inside (Tree.mem_numbers_of_mem_preorder deeper)
    · exact (frontier.apart wellFormed holds (List.mem_append_right _ last)).1
        (Tree.preorder_trans (Tree.child_mem_preorder there.inside) deeper)

/-! ### The next collection -/

theorem leastBy_cons {measure : NodeId → Nat} {node : NodeId} {rest : List NodeId}
    (least : ∀ other ∈ rest, measure node ≤ measure other) :
    leastBy measure (node :: rest) = some node := by
  rw [leastBy]
  cases found : leastBy measure rest with
  | none => rfl
  | some other => exact if_neg (Nat.not_lt.mpr (least other (mem_of_leastBy found)))

theorem Site.Stands.one_le_wildcards (stands : site.Stands field data tree)
    (plainField : PlainName field) {found : Tree} (inside : found ∈ site.element.mappings)
    (tagged : Tree.view.hasTag QualifierType.collectionMappingInfo.tag found = true) :
    1 ≤ Binding.wildcards (found.stringMember? Key.value) := by
  obtain ⟨later, _, plain, value, repeating⟩ :=
    stands.chain.exists_path plainField stands.plainNames found.toJson (by
      rw [Tree.mappings_toJson]
      exact List.mem_map_of_mem inside)
  rw [Tree.hasTag_toJson] at repeating
  rw [Tree.stringMember?_toJson] at value
  rw [value, Step.wildcards_path]
  · exact List.count_pos_iff.mpr (List.mem_append_right _ (repeating tagged))
  · exact List.forall_mem_append.mpr ⟨stands.plainFront, plain⟩

theorem Site.Stands.filter_eq_nil (stands : site.Stands field data tree) (done : site.names = []) :
    site.element.mappings.filter
      (Tree.view.hasTag QualifierType.collectionMappingInfo.tag) = [] := by
  have chain := stands.chain
  rw [done] at chain
  generalize valueEq : site.element.toJson = value at chain
  cases chain with
  | property mappings tagged path =>
      subst valueEq
      rw [Tree.mappings_toJson] at mappings
      obtain ⟨found, single, rfl⟩ := List.map_eq_singleton_iff.mp mappings
      rw [Tree.hasTag_toJson] at tagged
      rw [single, List.filter_cons_of_neg (by rw [Tree.hasTag_unique tagged (by decide)]; decide)]
      rfl

/-- The next qualifier is that of the first site that has a list left. -/
theorem Frontier.nextQualifier?_eq (frontier : Frontier field data tree (before ++ site :: after))
    (plainField : PlainName field) (wellFormed : document.WellFormed) (holds : document.Holds tree)
    (top : tree.number = Document.root) (done : ∀ other ∈ before, other.names = [])
    {qualifier inner : Tree}
    (mappings : site.element.mappings = qualifier :: inner.mappings)
    (tagged : Tree.view.hasTag QualifierType.collectionMappingInfo.tag qualifier = true)
    {steps : List Step} (plain : ∀ step ∈ steps, step.Plain) (pinned : .every ∉ steps)
    (value : qualifier.stringMember? Key.value = some (Step.path (steps ++ [.every]))) :
    nextQualifier? document = some qualifier.number := by
  have listed : (tree.mappings.filter
      (Tree.view.hasTag QualifierType.collectionMappingInfo.tag)) =
        qualifier :: ((inner.mappings ++ after.flatMap fun other => other.element.mappings).filter
          (Tree.view.hasTag QualifierType.collectionMappingInfo.tag)) := by
    have none : (before.flatMap fun other => other.element.mappings).filter
        (Tree.view.hasTag QualifierType.collectionMappingInfo.tag) = [] := by
      rw [List.filter_flatMap, List.flatMap_eq_nil_iff]
      exact fun other known => (frontier.stands other (List.mem_append_left _ known)).filter_eq_nil
        (done other known)
    rw [frontier.mappings, List.flatMap_append, List.filter_append, none, List.nil_append,
      List.flatMap_cons, mappings, List.cons_append, List.filter_cons_of_pos tagged]
  have stated : ∀ found ∈ tree.mappings,
      document.qualifierValue? found.number = found.stringMember? Key.value := fun found inside =>
    (holds.of_mem_preorder (Tree.mem_preorder_of_qualifier inside)).stringMember? Key.value
  have kept : ∀ found ∈ qualifier :: ((inner.mappings ++ after.flatMap fun other =>
      other.element.mappings).filter (Tree.view.hasTag QualifierType.collectionMappingInfo.tag)),
        found ∈ tree.mappings ∧
          Tree.view.hasTag QualifierType.collectionMappingInfo.tag found = true := by
    intro found inside
    rw [← listed] at inside
    exact List.mem_filter.mp inside
  unfold nextQualifier?
  rw [← top, wellFormed.qualifiers_eq holds, Tree.qualifiersBelow_collection, listed, List.map_cons]
  apply leastBy_cons
  intro number inside
  obtain ⟨found, known, rfl⟩ := List.mem_map.mp inside
  obtain ⟨isMapping, repeating⟩ := kept found (List.mem_cons_of_mem _ known)
  have single : Binding.wildcards (document.qualifierValue? qualifier.number) = 1 := by
    rw [stated qualifier (kept qualifier (List.mem_cons_self ..)).1, value, Step.wildcards_path,
      List.count_append, List.count_eq_zero.mpr pinned, List.count_singleton_self]
    exact List.forall_mem_append.mpr ⟨plain, List.forall_mem_singleton.mpr trivial⟩
  rw [single, stated found isMapping]
  rw [frontier.mappings] at isMapping
  obtain ⟨other, present, mapping⟩ := List.mem_flatMap.mp isMapping
  exact (frontier.stands other present).one_le_wildcards plainField mapping repeating

theorem isMandatory_eq_false (wellFormed : document.WellFormed) {element : Tree}
    (holds : document.Holds element) {path : String} {container : NodeId} {list : List Tree}
    {qualifier : Tree} {content : NodeId} {inner : Tree}
    (repeats : element.Repeats path container list qualifier content inner) :
    (document.qualifierCardinality qualifier.number).isMandatory = false := by
  have listHolds := holds.of_mem_children (Tree.mem_children_of_member? repeats.qualifiers)
  rw [wellFormed.qualifierCardinality_eq listHolds repeats.qualifier_mem]
  change (Cardinality.ofValue ((list.filter _).findSome? _)).isMandatory = false
  cases stated : (list.filter (Tree.view.hasTag QualifierType.cardinality.tag)).findSome?
      (Tree.stringMember? Key.value) with
  | none => rfl
  | some value =>
      obtain ⟨sibling, known, found⟩ := List.exists_of_findSome?_eq_some stated
      obtain ⟨inside, isCardinality⟩ := List.mem_filter.mp known
      rw [repeats.optional sibling inside isCardinality value found]
      rfl

/-! ### The tree after a round -/

private theorem split_unique {α : Type} {left right first last middle : List α}
    (some : middle ≠ []) (distinct : (left ++ middle ++ right).Nodup)
    (same : left ++ middle ++ right = first ++ middle ++ last) : left = first ∧ right = last := by
  obtain ⟨item, rest, rfl⟩ := List.exists_cons_of_ne_nil some
  have again : (first ++ item :: rest ++ last).Nodup := same ▸ distinct
  simp only [List.append_assoc, List.cons_append] at same distinct again
  rcases List.append_eq_append_iff.mp same with ⟨more, firstEq, tailEq⟩ | ⟨more, leftEq, tailEq⟩
  · cases more with
    | nil =>
        rw [List.append_nil] at firstEq
        exact ⟨firstEq.symm, List.append_cancel_left (List.cons.inj tailEq).2⟩
    | cons other more =>
        cases (List.cons.inj tailEq).1
        rw [firstEq, List.nodup_append'] at again
        exact absurd (List.mem_cons_self ..)
          (again.2.2 List.mem_append_cons_self)
  · cases more with
    | nil =>
        rw [List.append_nil] at leftEq
        exact ⟨leftEq, (List.append_cancel_left (List.cons.inj tailEq).2).symm⟩
    | cons other more =>
        cases (List.cons.inj tailEq).1
        rw [leftEq, List.nodup_append'] at distinct
        exact absurd (List.mem_cons_self ..)
          (distinct.2.2 List.mem_append_cons_self)

/-- The mappings of an array without the element of its site are those of the copies that it gets. -/
theorem Site.Stands.mappings_exchange (stands : site.Stands field data tree) (copies : List Tree) :
    (site.list.exchange site.element.number copies).mappings = copies.flatMap Tree.mappings := by
  have whole := stands.whole
  rw [Site.list, Tree.mappings_array] at whole
  rw [Site.list, Tree.exchange, Tree.mappings_array, List.flatMap_append]
  refine (congrArg (· ++ copies.flatMap Tree.mappings) ?_).trans (List.nil_append _)
  refine List.flatMap_eq_nil_iff.mpr fun other listed => ?_
  obtain ⟨inside, different⟩ := List.mem_filter.mp listed
  apply Tree.mappings_eq_nil stands.inside whole inside
  rintro rfl
  exact bne_iff_ne.mp different rfl

section Exchange

variable (frontier : Frontier field data tree (before ++ site :: after))
  (wellFormed : document.WellFormed) (holds : document.Holds tree) {copies : List Tree}
include frontier wellFormed holds

/-- If the array of a site is one of qualifiers, none of its elements is a mapping, before and behind
the exchange. -/
theorem Frontier.filter_isIndexed
    (alike : ∀ copy ∈ copies, Tree.view.isIndexed copy = Tree.view.isIndexed site.element)
    {owner : Tree} (within : owner ∈ tree.preorder)
    (member : owner.member? Key.qualifiers = some site.list) :
    site.elements.filter Tree.view.isIndexed = [] ∧
      ((site.elements.filter fun element => element.number != site.element.number) ++
        copies).filter Tree.view.isIndexed = [] := by
  have none : ∀ child ∈ site.elements, Tree.view.isIndexed child = false := by
    intro child directly
    rw [Bool.eq_false_iff]
    intro indexed
    apply frontier.quiet wellFormed holds directly
    exact Tree.mem_qualifiersBelow_iff.mpr ⟨owner, within, site.list, member, directly, indexed⟩
  constructor
  · exact List.filter_eq_nil_iff.mpr fun child directly => Bool.eq_false_iff.mp (none child directly)
  · refine List.filter_eq_nil_iff.mpr fun child listed => Bool.eq_false_iff.mp ?_
    rcases List.mem_append.mp listed with old | new
    · exact none child (List.mem_filter.mp old).1
    · rw [alike child new]
      exact none site.element frontier.here.inside

theorem Frontier.graft_eq {other : Site} (listed : other ∈ before ++ after) {below : Tree}
    (within : below ∈ other.list.preorder) :
    below.graft (site.list.exchange site.element.number copies) = below := by
  refine Tree.graft_of_not_mem fun shared => ?_
  rw [Tree.number_exchange] at shared
  exact frontier.not_mem_numbers wellFormed holds listed (Tree.numbers_subset within shared)

theorem Frontier.map_graft {part : List Site} (included : ∀ other ∈ part, other ∈ before ++ after) :
    ((part.flatMap fun other => other.element.mappings).map fun found =>
      found.graft (site.list.exchange site.element.number copies)) =
        part.flatMap fun other => other.element.mappings := by
  refine (List.map_congr_left fun found inside => ?_).trans (List.map_id _)
  obtain ⟨other, known, mapping⟩ := List.mem_flatMap.mp inside
  have there := frontier.there (included other known)
  apply frontier.graft_eq wellFormed holds (included other known)
  exact Tree.preorder_trans (Tree.child_mem_preorder there.inside)
    (Tree.mem_preorder_of_qualifier mapping)

theorem Frontier.mappings_graft
    (alike : ∀ copy ∈ copies, Tree.view.isIndexed copy = Tree.view.isIndexed site.element) :
    (tree.graft (site.list.exchange site.element.number copies)).mappings =
      (before.flatMap fun other => other.element.mappings) ++ copies.flatMap Tree.mappings ++
        after.flatMap (fun other => other.element.mappings) := by
  have here := frontier.here
  obtain ⟨left, right, split, grafted⟩ := wellFormed.mappings_graft holds here.within
    fun owner => frontier.filter_isIndexed wellFormed holds alike
  have distinct := wellFormed.nodup_mappings holds
  rw [show (Tree.array site.array site.elements).mappings = _ from here.whole] at split
  have parts := split
  rw [frontier.mappings, List.flatMap_append, List.flatMap_cons, ← List.append_assoc] at split
  rw [parts] at distinct
  obtain ⟨leftEq, rightEq⟩ := split_unique (mappings_ne_nil here.chain) distinct split.symm
  refine grafted.trans ?_
  rw [leftEq, rightEq]
  exact congrArg₂ (· ++ ·) (congrArg₂ (· ++ ·)
    (frontier.map_graft wellFormed holds fun _ => List.mem_append_left _)
    (here.mappings_exchange copies)) (frontier.map_graft wellFormed holds fun _ =>
      List.mem_append_right _)

/-- Putting copies in the place of the element of a site puts their mappings in the place of those of the
site, and moves no other site. -/
theorem Frontier.exchange
    (alike : ∀ copy ∈ copies, Tree.view.isIndexed copy = Tree.view.isIndexed site.element) :
    (tree.graft (site.list.exchange site.element.number copies)).mappings =
        (before.flatMap fun other => other.element.mappings) ++ copies.flatMap Tree.mappings ++
          after.flatMap (fun other => other.element.mappings) ∧
      (∀ other ∈ before ++ after,
        other.list ∈ (tree.graft (site.list.exchange site.element.number copies)).preorder) ∧
      ∀ copy ∈ copies,
        copy ∈ (tree.graft (site.list.exchange site.element.number copies)).preorder := by
  have here := frontier.here
  refine ⟨frontier.mappings_graft wellFormed holds alike, fun other listed => ?_, fun copy listed => ?_⟩
  · have there := frontier.there listed
    refine Tree.mem_preorder_graft_of_apart there.within ?_ ?_
    · rw [Tree.number_exchange]
      exact frontier.not_mem_numbers wellFormed holds listed
    · intro node within same deeper
      rw [Tree.number_exchange] at same
      have equal := (holds.of_mem_preorder within).unique (holds.of_mem_preorder here.within) same
      exact (frontier.apart wellFormed holds listed).2 (equal ▸ deeper)
  · refine Tree.preorder_trans (Tree.mem_preorder_graft ?_) (Tree.child_mem_preorder ?_)
    · rw [Tree.number_exchange]
      exact Tree.mem_numbers_of_mem_preorder here.within
    · exact List.mem_append_right _ listed

end Exchange

end Expansion

end TemplateFill
