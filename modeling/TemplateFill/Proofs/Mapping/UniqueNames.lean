import TemplateFill.Proofs.Mapping.Marks
import TemplateFill.Proofs.Mapping.RoundRewrite
import TemplateFill.Proofs.Mapping.Rounds
import TemplateFill.Proofs.Mapping.ShortNames

/-!
Short names that stay distinct.

Numbers tell the copies of one collection apart, but not a copy from another element whose name ends
in numbers already. An array is clear of such clashes if its names are distinct and none is that of
a collection in it with as many numbers behind as its copies can get. It stays clear whatever
collection is repeated, in it or below it, so at the end of the rounds the names in every array are
distinct.
-/

namespace TemplateFill

namespace Json

variable {value element : Json}

/-! ### Repeating an element -/

variable {elements : List Json} {path : String} {count position : Nat}

def copies (path : String) (count : Nat) (element : Json) : List Json :=
  (List.range count).map fun entry => copyFor path (Binding.ofPath path) entry element

theorem exists_number_of_mem_copies {name : String} (inside : value ∈ copies path count element)
    (named : value.shortName? = some name) :
    ∃ (old : String) (number : Nat), element.shortName? = some old ∧
      name = old ++ "_" ++ toString number := by
  obtain ⟨number, _, rfl⟩ := List.mem_map.mp inside
  rw [shortName?_copyFor] at named
  obtain ⟨old, same, rfl⟩ := Option.map_eq_some_iff.mp named
  exact ⟨old, number, same, rfl⟩

theorem namesDistinct_copies (path : String) (count : Nat) (element : Json) :
    NamesDistinct (copies path count element) := by
  rw [NamesDistinct, copies, List.filterMap_map]
  cases named : element.shortName? with
  | none =>
      have nameless : ∀ entry ∈ List.range count, (shortName? ∘ fun entry =>
          copyFor path (Binding.ofPath path) entry element) entry = none := by
        intro entry _
        rw [Function.comp_apply, shortName?_copyFor, named]
        rfl
      rw [List.filterMap_eq_nil_iff.mpr nameless]
      exact List.nodup_nil
  | some name =>
      have numbered : (shortName? ∘ fun entry => copyFor path (Binding.ofPath path) entry element) =
          fun entry => some (name ++ "_" ++ toString entry) := by
        funext entry
        rw [Function.comp_apply, shortName?_copyFor, named]
        rfl
      rw [numbered, List.filterMap_eq_map']
      exact List.nodup_range.map fun first second same => (number_inj same).2

/-- An array stays free of clashes if copies of an element that is repeated take its place. -/
theorem NamesClear.exchange (clear : NamesClear elements)
    (found : elements[position]? = some element) (distinct : element.KeysDistinct)
    (triggered : element.IsTriggered path) :
    NamesClear (elements.eraseIdx position ++ copies path count element) := by
  have inside := List.mem_of_getElem? found
  have others : ∀ other ∈ elements.eraseIdx position, other ∈ elements :=
    fun other listed => (List.eraseIdx_sublist ..).subset listed
  have unlike : ∀ other ∈ elements.eraseIdx position, ∀ name, element.shortName? = some name →
      other.shortName? ≠ some name := by
    intro other listed name named same
    have moved := (List.getElem_cons_eraseIdx_perm (List.getElem?_eq_some_iff.mp found).1).filterMap
      shortName?
    rw [(List.getElem?_eq_some_iff.mp found).2, List.filterMap_cons_some named] at moved
    have apart := moved.nodup_iff.mpr clear.distinct
    exact (List.nodup_cons.mp apart).1 (List.mem_filterMap.mpr ⟨other, listed, same⟩)
  constructor
  · rw [NamesDistinct, List.filterMap_append, List.nodup_append]
    refine ⟨clear.distinct.sublist ((List.eraseIdx_sublist ..).filterMap _),
      namesDistinct_copies path count element, ?_⟩
    rintro name old _ copied rfl
    obtain ⟨other, listed, named⟩ := List.mem_filterMap.mp old
    obtain ⟨copy, copyIn, copyNamed⟩ := List.mem_filterMap.mp copied
    obtain ⟨source, number, sourceNamed, rfl⟩ := exists_number_of_mem_copies copyIn copyNamed
    exact clear.free element inside 1 triggered.takesNumbers_one other (others other listed) _ _
      sourceNamed named (.once number)
  · intro first firstIn numbers takes second secondIn name taken named namedSecond numbered
    rcases List.mem_append.mp firstIn with old | copied
    · rcases List.mem_append.mp secondIn with oldToo | copiedToo
      · exact clear.free first (others first old) numbers takes second (others second oldToo) name
          taken named namedSecond numbered
      · obtain ⟨source, number, sourceNamed, rfl⟩ :=
          exists_number_of_mem_copies copiedToo namedSecond
        rcases Numbered.of_number_eq numbered with rfl | ⟨fewer, rfl, before⟩
        · exact unlike first old _ sourceNamed named
        · exact clear.free first (others first old) fewer (takes.mono (Nat.le_succ fewer)) element
            inside name source named sourceNamed before
    · obtain ⟨source, number, sourceNamed, rfl⟩ := exists_number_of_mem_copies copied named
      rcases List.mem_append.mp secondIn with oldToo | copiedToo
      · obtain ⟨entry, _, rfl⟩ := List.mem_map.mp copied
        exact clear.free element inside (numbers + 1) (takesNumbers_copyFor distinct triggered takes)
          second (others second oldToo) source taken sourceNamed namedSecond numbered.of_number
      · obtain ⟨same, other, sameNamed, rfl⟩ := exists_number_of_mem_copies copiedToo namedSecond
        rw [sourceNamed] at sameNamed
        cases sameNamed
        exact Numbered.not_number number other numbered

/-! ### Edits at a place -/

variable {site : Json} {change : Json → Json} {steps : List Nat}

theorem EveryArray.of_at? {holds : List Json → Prop} (every : value.EveryArray holds)
    (leads : value.at? steps = some site) : site.EveryArray holds := by
  induction steps generalizing value with
  | nil =>
      cases leads
      exact every
  | cons position rest ih =>
      obtain ⟨child, found, leads⟩ := Option.bind_eq_some_iff.mp leads
      exact ih (every.of_mem_children (List.mem_of_getElem? found)) leads

theorem allowNumbers_repeat {numbers : Nat} (listed : elements[position]? = some element)
    (triggered : element.IsTriggered path)
    (allow : AllowNumbers (elements.eraseIdx position ++ copies path count element) numbers) :
    AllowNumbers elements numbers := by
  have kept := List.eraseIdx_sublist elements position
  cases tagged : element.isCollectionQualifier with
  | true =>
      exact Or.inr ⟨element, List.mem_of_getElem? listed, tagged,
        isRepeated_iff.mpr triggered.takesNumbers_one⟩
  | false =>
      have plain : ∀ copy ∈ copies path count element, ¬copy.isCollectionQualifier = true := by
        intro copy inside taggedToo
        obtain ⟨entry, _, rfl⟩ := List.mem_map.mp inside
        rw [isCollectionQualifier_copyFor.mp taggedToo] at tagged
        cases tagged
      rcases allow with few | ⟨qualifier, inside, taggedToo, repeated⟩
      · rw [List.countP_append, List.countP_eq_zero.mpr plain] at few
        exact Or.inl (Nat.le_trans few kept.countP_le)
      · rcases List.mem_append.mp inside with old | copied
        · exact Or.inr ⟨qualifier, kept.subset old, taggedToo, repeated⟩
        · exact absurd taggedToo (plain qualifier copied)

theorem echoes_repeatChild (count : Nat) (distinct : site.KeysDistinct)
    (found : site.children[position]? = some element) (triggered : element.IsTriggered path) :
    Echoes (site.repeatChild path count position) site := by
  cases distinct with
  | scalar value => cases found
  | @array elements each =>
      have listed : elements[position]? = some element := found
      rw [repeatChild, listed]
      exact .array fun numbers => allowNumbers_repeat listed triggered
  | @object members apart each =>
      have fewer := (List.eraseIdx_sublist members position).map Prod.snd
      rw [repeatChild]
      refine .object (fun key child _ given => ⟨child, ?_, .refl child⟩) fun numbers =>
        AllowNumbers.of_counts (List.forall₂_same.mpr fun child _ tagged => ⟨tagged, id⟩) fewer
      exact Document.memberOf?_of_mem apart
        ((List.eraseIdx_sublist ..).subset (mem_of_memberOf? given))

theorem everyArray_repeatChild (count : Nat) (distinct : site.KeysDistinct)
    (clear : site.EveryArray NamesClear) (found : site.children[position]? = some element)
    (triggered : element.IsTriggered path) :
    (site.repeatChild path count position).EveryArray NamesClear := by
  have elementClear := clear.of_mem_children (List.mem_of_getElem? found)
  have elementDistinct := distinct.of_mem_children (List.mem_of_getElem? found)
  cases clear with
  | scalar value => cases found
  | @array elements here each =>
      have listed : elements[position]? = some element := found
      rw [repeatChild, listed]
      refine .array (here.exchange listed elementDistinct triggered) fun child inside => ?_
      rcases List.mem_append.mp inside with kept | copied
      · exact each child ((List.eraseIdx_sublist ..).subset kept)
      · obtain ⟨entry, _, rfl⟩ := List.mem_map.mp copied
        exact everyArray_copyFor path _ entry elementDistinct elementClear
  | @object members each =>
      rw [repeatChild]
      exact .object fun member kept => each member ((List.eraseIdx_sublist ..).subset kept)

theorem mem_modify {α : Type} {values : List α} {value : α} {change : α → α}
    (inside : value ∈ values.modify position change) :
    value ∈ values ∨ ∃ old, values[position]? = some old ∧ value = change old := by
  obtain ⟨index, found⟩ := List.mem_iff_getElem?.mp inside
  rw [List.getElem?_modify] at found
  obtain ⟨old, listed, rfl⟩ := Option.map_eq_some_iff.mp found
  by_cases same : position = index
  · subst same
    exact Or.inr ⟨old, listed, if_pos rfl⟩
  · rw [if_neg same]
    exact Or.inl (List.mem_of_getElem? listed)

theorem forall₂_modify {values : List Json} {change : Json → Json}
    (changes : ∀ old, values[position]? = some old → Echoes (change old) old) :
    List.Forall₂ Echoes (values.modify position change) values := by
  induction values generalizing position with
  | nil =>
      rw [List.modify_nil]
      exact .nil
  | cons first rest ih =>
      cases position with
      | zero => exact .cons (changes first rfl) (List.forall₂_same.mpr fun other _ => .refl other)
      | succ position => exact .cons (.refl first) (ih changes)

theorem map_snd_modify (edit : Json → Json) (members : List (String × Json)) :
    (members.modify position fun member => (member.1, edit member.2)).map Prod.snd =
      (members.map Prod.snd).modify position edit := by
  apply List.ext_getElem?
  intro index
  rw [List.getElem?_map, List.getElem?_modify, List.getElem?_modify, List.getElem?_map]
  cases members[index]? with
  | none => rfl
  | some member => by_cases same : position = index <;> simp [same]

theorem clear_modify_array {edit : Json → Json} (clear : NamesClear elements)
    (each : ∀ element ∈ elements, element.EveryArray NamesClear)
    (listed : elements[position]? = some element) (echoes : Echoes (edit element) element)
    (clearThere : (edit element).EveryArray NamesClear) :
    Echoes (.array (elements.modify position edit)) (.array elements) ∧
      (Json.array (elements.modify position edit)).EveryArray NamesClear := by
  have pairs : List.Forall₂ Echoes (elements.modify position edit) elements :=
    forall₂_modify fun old present => by
      rw [listed] at present
      cases present
      exact echoes
  refine ⟨.array fun count => AllowNumbers.of_counts (pairs.imp fun _ _ echo => echo.counts)
      (.refl _), .array (clear.of_echoes (.refl _) pairs) fun other present => ?_⟩
  rcases mem_modify present with old | ⟨old, same, rfl⟩
  · exact each other old
  · rw [listed] at same
    cases same
    exact clearThere

theorem clear_modify_object {edit : Json → Json} {members : List (String × Json)}
    {member : String × Json} (apart : (members.map Prod.fst).Nodup)
    (each : ∀ member ∈ members, member.2.EveryArray NamesClear)
    (listed : members[position]? = some member) (echoes : Echoes (edit member.2) member.2)
    (clearThere : (edit member.2).EveryArray NamesClear) :
    let changed := members.modify position fun member => (member.1, edit member.2)
    Echoes (.object changed) (.object members) ∧ (Json.object changed).EveryArray NamesClear := by
  intro changed
  have old : ∀ other ∈ changed, other ∈ members ∨ other = (member.1, edit member.2) := by
    intro other present
    rcases mem_modify present with kept | ⟨source, same, rfl⟩
    · exact Or.inl kept
    · rw [listed] at same
      cases same
      exact Or.inr rfl
  have inside := List.mem_of_getElem? listed
  refine ⟨.object (fun key source _ given => ?_) fun count => ?_, .object fun other present => ?_⟩
  · rcases old _ (mem_of_memberOf? given) with kept | pair
    · exact ⟨source, Document.memberOf?_of_mem apart kept, .refl source⟩
    · cases pair
      exact ⟨member.2, Document.memberOf?_of_mem apart inside, echoes⟩
  · have pairs : List.Forall₂ Echoes (changed.map Prod.snd) (members.map Prod.snd) := by
      rw [map_snd_modify]
      refine forall₂_modify fun old present => ?_
      rw [List.getElem?_map, listed] at present
      cases present
      exact echoes
    exact AllowNumbers.of_counts (pairs.imp fun _ _ echo => echo.counts) (.refl _)
  · rcases old other present with kept | rfl
    · exact each other kept
    · exact clearThere

/-- A change at a place that leaves the value there without clashes, and lets it say no more, does
the same to the whole value. -/
theorem editAt_clear (leads : value.at? steps = some site) (distinct : value.KeysDistinct)
    (clear : value.EveryArray NamesClear) (echoes : Echoes (change site) site)
    (clearThere : (change site).EveryArray NamesClear) :
    Echoes (value.editAt change steps) value ∧
      (value.editAt change steps).EveryArray NamesClear := by
  induction steps generalizing value with
  | nil =>
      cases leads
      exact ⟨echoes, clearThere⟩
  | cons position rest ih =>
      obtain ⟨child, found, leads⟩ := Option.bind_eq_some_iff.mp leads
      have inside := List.mem_of_getElem? found
      obtain ⟨childEchoes, childClear⟩ :=
        ih leads (distinct.of_mem_children inside) (clear.of_mem_children inside)
      cases clear with
      | scalar value => cases found
      | @array elements here each =>
          rw [editAt]
          exact clear_modify_array here each found childEchoes childClear
      | @object members each =>
          have apart : (members.map Prod.fst).Nodup := by
            cases distinct
            assumption
          have listed : (members.map Prod.snd)[position]? = some child := found
          rw [List.getElem?_map, Option.map_eq_some_iff] at listed
          obtain ⟨member, listed, rfl⟩ := listed
          rw [editAt]
          exact clear_modify_object apart each listed childEchoes childClear

end Json

/-! ### Rounds -/

namespace Tree

variable {tree : Tree}

theorem isTriggered_toJson {list qualifier : Tree} {path : String}
    (member : tree.member? Key.qualifiers = some list) (inside : qualifier ∈ list.children)
    (tagged : view.hasTag QualifierType.collectionMappingInfo.tag qualifier = true)
    (hasPath : qualifier.stringMember? Key.value = some path) :
    tree.toJson.IsTriggered path := by
  refine ⟨list.toJson, ?_, qualifier.toJson, ?_, ?_⟩
  · rw [member?_toJson, member]
    rfl
  · rw [children_toJson]
    exact List.mem_map_of_mem inside
  · rw [Json.isTrigger, stringMember?_toJson, hasPath, toJson_carries.hasTag trivial, tagged]
    exact beq_self_eq_true _

end Tree

namespace Expansion

variable {context after : Context}

theorem namesClear_of_round (sound : context.working.Sound)
    (clear : context.working.toJson.EveryArray Json.NamesClear)
    (done : round context = .ok (some after)) :
    after.working.toJson.EveryArray Json.NamesClear := by
  obtain ⟨tree, top, holds⟩ := sound.wellFormed.grounded sound.wellFormed.rooted
  obtain ⟨container, owner, list, qualifier, path, entries, copies, expands⟩ :=
    exists_expands sound.wellFormed holds top done
  have distinct := (Document.attachedKeysDistinct_iff sound.wellFormed holds top).mp sound.keys
  have containerHolds := holds.of_mem_preorder expands.within
  have containerDistinct : container.KeysDistinct := fun below within =>
    distinct below (Tree.preorder_trans expands.within within)
  have ownerDistinct := (Tree.keysDistinct_iff.mp containerDistinct).2 owner expands.directly
  obtain ⟨steps, position, leads, listed, rewritten⟩ :=
    expands.value sound.wellFormed holds top ownerDistinct
  have read : context.working.toJson = tree.toJson := by
    rw [Document.toJson, ← top, sound.wellFormed.nodeToJson_eq holds]
  rw [← top] at leads
  have leadsTo := Tree.at?_toJson holds containerHolds leads
  have found : container.toJson.children[position]? = some owner.toJson := by
    rw [containerHolds.children, List.getElem?_map, Option.map_eq_some_iff] at listed
    obtain ⟨child, present, same⟩ := listed
    have childHolds := containerHolds.of_mem_children (List.mem_of_getElem? present)
    obtain rfl := childHolds.unique (containerHolds.of_mem_children expands.directly) same
    rw [Tree.children_toJson, List.getElem?_map, present]
    rfl
  have triggered :=
    Tree.isTriggered_toJson expands.member expands.inside expands.tagged expands.hasPath
  have clearThere : container.toJson.EveryArray Json.NamesClear := by
    rw [read] at clear
    exact clear.of_at? leadsTo
  rw [rewritten, read]
  rw [read] at clear
  have siteDistinct := Tree.keysDistinct_toJson.mpr containerDistinct
  exact (Json.editAt_clear leadsTo (Tree.keysDistinct_toJson.mpr distinct) clear
    (Json.echoes_repeatChild copies.length siteDistinct found triggered)
    (Json.everyArray_repeatChild copies.length siteDistinct clearThere found triggered)).2

theorem Rounds.namesClear {last : Context} (rounds : Rounds context last)
    (sound : context.working.Sound) (clear : context.working.toJson.EveryArray Json.NamesClear) :
    last.working.toJson.EveryArray Json.NamesClear := by
  induction rounds with
  | refl => exact clear
  | tail before next ih => exact namesClear_of_round (Rounds.sound before sound) ih next

/-! ### Restored tags -/

theorem everyArray_retext {tree : Tree} {texts : NodeId → Option String}
    (names : ∀ below ∈ tree.preorder,
      (below.retext texts).toJson.shortName? = below.toJson.shortName?)
    (distinct : tree.toJson.EveryArray Json.NamesDistinct) :
    (tree.retext texts).toJson.EveryArray Json.NamesDistinct := by
  induction tree using Tree.induction with
  | step tree ih =>
      have deeper : ∀ child ∈ tree.children,
          (child.retext texts).toJson.EveryArray Json.NamesDistinct := by
        intro child inside
        refine ih child inside (fun below within => ?_) (distinct.of_mem_children ?_)
        · exact names below (Tree.preorder_trans (Tree.child_mem_preorder inside) within)
        · rw [Tree.children_toJson]
          exact List.mem_map_of_mem inside
      cases tree with
      | scalar number value =>
          rw [Tree.retext, Tree.toJson]
          exact .scalar _
      | array number elements =>
          rw [Tree.toJson] at distinct
          rw [Tree.retext, Tree.toJson, List.map_map]
          have same : (elements.map (Tree.toJson ∘ Tree.retext texts)).filterMap Json.shortName? =
              (elements.map Tree.toJson).filterMap Json.shortName? := by
            rw [List.filterMap_map, List.filterMap_map]
            exact List.filterMap_congr fun element inside =>
              names element (Tree.child_mem_preorder inside)
          cases distinct with
          | array here each =>
              refine .array ?_ fun element inside => ?_
              · rw [Json.NamesDistinct] at here ⊢
                rwa [same]
              · obtain ⟨old, listed, rfl⟩ := List.mem_map.mp inside
                exact deeper old listed
      | object number members =>
          rw [Tree.retext, Tree.toJson]
          refine .object fun member inside => ?_
          rw [List.map_map] at inside
          obtain ⟨old, listed, rfl⟩ := List.mem_map.mp inside
          exact deeper old.2 (List.mem_map_of_mem listed)

theorem namesDistinct_restoreTags {document : Document} (wellFormed : document.WellFormed)
    (distinct : document.toJson.EveryArray Json.NamesDistinct) :
    (restoreTags document).toJson.EveryArray Json.NamesDistinct := by
  obtain ⟨tree, top, holds⟩ := wellFormed.grounded wellFormed.rooted
  obtain ⟨texts, restoredWF, restoredHolds, restores⟩ := restoreTags_holds wellFormed holds top
  have before := wellFormed.nodeToJson_eq holds
  have after := restoredWF.nodeToJson_eq restoredHolds
  rw [Tree.number_retext, top] at after
  rw [top] at before
  rw [Document.toJson, before] at distinct
  rw [Document.toJson, after]
  refine everyArray_retext (fun below within => ?_) distinct
  rw [Json.shortName?, Tree.stringMember?_toJson, Tree.stringMember?_toJson]
  exact restores.others below within Key.idShort fun same => absurd same (by decide)

/-- Expansion keeps the short names of the elements in every array distinct, if no array has an
element whose name is that of a collection in the array with as many numbers behind it as the copies
of the collection can get. -/
theorem expandCollections_namesDistinct (reachable : context.working.Reachable)
    (keys : context.working.KeysDistinct)
    (distinct : context.working.toJson.EveryArray Json.NamesDistinct)
    (free : context.working.toJson.EveryArray Json.NamesFree)
    (done : context.expandCollections = .ok after) :
    after.working.toJson.EveryArray Json.NamesDistinct := by
  have sound : context.working.Sound := ⟨reachable.wellFormed, keys.attached⟩
  have clear : context.working.toJson.EveryArray Json.NamesClear :=
    distinct.combine (fun _ apart unnumbered => ⟨apart, unnumbered⟩) free
  obtain ⟨last, rounds, ⟨ran, _⟩ | ⟨failure, failed, _⟩⟩ := exists_last sound.wellFormed
  · rw [Context.expandCollections, ran] at done
    cases done
    exact namesDistinct_restoreTags (rounds.sound sound).wellFormed
      ((rounds.namesClear sound clear).imp fun _ here => here.distinct)
  · rw [Context.expandCollections, failed] at done
    cases done

/-! ### A collection beside another element -/

/-- A collection of the given number of items beside an element of the given name. -/
def besideCollection (name : String) (items : Nat) : Context :=
  let template : Json := .object [("submodelElements", .array [
    .object [(Key.idShort, .text "a"), (Key.modelType, .text "SubmodelElementCollection"),
      (Key.qualifiers, .array [.object
        [(Key.type, .text "SMT/CollectionMappingInfo"), (Key.value, .text "$.items[*]")]])],
    .object [(Key.idShort, .text name)]])]
  let data : Json := .object [("items", .array (List.replicate items .null))]
  { Context.start template data "en" "id" "now" with working := Document.ofJson template }

theorem everyArray_besideCollection {holds : List Json → Prop} {name : String} {items : Nat}
    (outer : ∀ collection other : Json, collection.shortName? = some "a" →
      (∀ count, collection.TakesNumbers count → count ≤ 1) → other.shortName? = some name →
      (∀ count, ¬other.TakesNumbers count) → holds [collection, other])
    (inner : ∀ qualifier, qualifier.shortName? = none → holds [qualifier]) :
    (besideCollection name items).working.toJson.EveryArray holds := by
  rw [besideCollection, Document.toJson_ofJson]
  refine .object fun member inside => ?_
  cases List.mem_singleton.mp inside
  refine .array (outer _ _ rfl ?_ rfl ?_) fun element inside => ?_
  · rintro count ⟨list, ⟨⟩, few | ⟨qualifier, inside, _, qualifiers, present, _⟩⟩
    · exact few
    · cases List.mem_singleton.mp inside
      cases present
  · rintro count ⟨list, present, _⟩
    cases present
  rcases List.mem_cons.mp inside with rfl | inside
  · refine .object fun member inside => ?_
    simp only [List.mem_cons, List.not_mem_nil, or_false] at inside
    rcases inside with rfl | rfl | rfl
    · exact .scalar _
    · exact .scalar _
    · refine .array (inner _ rfl) fun qualifier inside => ?_
      cases List.mem_singleton.mp inside
      refine .object fun member inside => ?_
      simp only [List.mem_cons, List.not_mem_nil, or_false] at inside
      rcases inside with rfl | rfl <;> exact .scalar _
  · cases List.mem_singleton.mp inside
    refine .object fun member inside => ?_
    cases List.mem_singleton.mp inside
    exact .scalar _

theorem namesDistinct_besideCollection {name : String} (different : "a" ≠ name) (items : Nat) :
    (besideCollection name items).working.toJson.EveryArray Json.NamesDistinct := by
  refine everyArray_besideCollection (fun collection other first _ second _ => ?_)
    fun _ nameless => ?_
  · rw [Json.NamesDistinct, List.filterMap_cons_some first, List.filterMap_cons_some second]
    simpa using different
  · rw [Json.NamesDistinct, List.filterMap_cons_none nameless]
    exact List.nodup_nil

/-- The collection has one qualifier, so its name with one number behind it is not to be met. -/
theorem namesFree_besideCollection {name : String} (free : ¬Numbered "a" 1 name) (items : Nat) :
    (besideCollection name items).working.toJson.EveryArray Json.NamesFree := by
  refine everyArray_besideCollection (fun collection other first few second none => ?_)
    fun qualifier nameless => ?_
  · intro element inside count takes another listed stem taken named namedOther numbered
    rcases List.mem_cons.mp inside with rfl | inside
    · obtain rfl := Option.some.inj (first.symm.trans named)
      obtain rfl : count = 1 := Nat.le_antisymm (few count takes) numbered.pos
      rcases List.mem_cons.mp listed with rfl | listed
      · obtain rfl := Option.some.inj (first.symm.trans namedOther)
        exact Nat.lt_irrefl _ numbered.length_lt
      · rw [List.mem_singleton.mp listed, second] at namedOther
        cases namedOther
        exact free numbered
    · rw [List.mem_singleton.mp inside] at takes
      exact none count takes
  · intro element inside count _ another _ stem _ named
    rw [List.mem_singleton.mp inside, nameless] at named
    cases named

theorem expandCollections_of_round {last : Context} (first : round context = .ok (some last))
    (finished : last.working.qualifiers Document.root .collectionMappingInfo = []) :
    context.expandCollections = .ok
      { last with qualifier? := none, working := restoreTags last.working } := by
  have ran := (Run.next first (.done (round_eq_none_iff.mpr finished))).expandAll_eq
  rw [Context.expandCollections, ran]
  rfl

/-- The short names in the array that expansion leaves at a place, if one round is enough. -/
def namesAfterRound? (context : Context) (steps : List Nat) : Option (List String) :=
  (round context).toOption.join.bind fun last =>
    if (last.working.qualifiers Document.root .collectionMappingInfo).isEmpty then
      match (restoreTags last.working).toJson.at? steps with
      | some (.array elements) => some (elements.filterMap Json.shortName?)
      | _ => none
    else none

theorem exists_of_namesAfterRound? {steps : List Nat} {names : List String}
    (found : namesAfterRound? context steps = some names) :
    ∃ after elements, context.expandCollections = .ok after ∧
      after.working.toJson.at? steps = some (.array elements) ∧
      elements.filterMap Json.shortName? = names := by
  obtain ⟨last, ran, found⟩ := Option.bind_eq_some_iff.mp found
  have first : round context = .ok (some last) := eq_ok_of_toOption_join ran
  split at found
  · rename_i finished
    split at found
    · rename_i elements leads
      exact ⟨_, elements, expandCollections_of_round first (List.isEmpty_iff.mp finished), leads,
        Option.some.inj found⟩
    · cases found
  · cases found

/-- Two copies beside an element whose name is that of the collection with two numbers behind it. -/
theorem expandCollections_namesDistinct_two :
    let context := besideCollection "a_0_0" 2
    context.working.Reachable ∧ context.working.KeysDistinct ∧
      context.working.toJson.EveryArray Json.NamesDistinct ∧
      context.working.toJson.EveryArray Json.NamesFree ∧
      ∃ after elements, context.expandCollections = .ok after ∧
        after.working.toJson.at? [0] = some (.array elements) ∧
        elements.filterMap Json.shortName? = ["a_0_0", "a_0", "a_1"] ∧
        after.working.toJson.EveryArray Json.NamesDistinct := by
  intro context
  have reachable : context.working.Reachable := .ofJson _
  have keys : context.working.KeysDistinct := by decide +kernel
  have distinct := namesDistinct_besideCollection (show "a" ≠ "a_0_0" by decide) 2
  have unmet : ¬Numbered "a" 1 "a_0_0" := by
    intro numbered
    have read : "a_0_0" = "a_0" ++ "_" ++ toString 0 := by decide +kernel
    rw [read] at numbered
    rcases numbered.of_number_eq with same | ⟨fewer, none, before⟩
    · exact absurd same (by decide)
    · cases none
      exact absurd before.pos (Nat.lt_irrefl 0)
  have free := namesFree_besideCollection unmet 2
  obtain ⟨after, elements, done, leads, names⟩ := exists_of_namesAfterRound?
    (show namesAfterRound? context [0] = some ["a_0_0", "a_0", "a_1"] by decide +kernel)
  exact ⟨reachable, keys, distinct, free, after, elements, done, leads, names,
    expandCollections_namesDistinct reachable keys distinct free done⟩

/-- A copy meets an element whose name is that of the collection with a number behind it. -/
theorem expandCollections_names_meet :
    let context := besideCollection "a_0" 1
    context.working.Reachable ∧ context.working.KeysDistinct ∧
      context.working.toJson.EveryArray Json.NamesDistinct ∧
      ∃ after, context.expandCollections = .ok after ∧
        ¬after.working.toJson.EveryArray Json.NamesDistinct := by
  intro context
  have distinct := namesDistinct_besideCollection (show "a" ≠ "a_0" by decide) 1
  obtain ⟨after, elements, done, leads, names⟩ := exists_of_namesAfterRound?
    (show namesAfterRound? context [0] = some ["a_0", "a_0"] by decide +kernel)
  refine ⟨.ofJson _, by decide +kernel, distinct, after, done, fun every => ?_⟩
  cases every.of_at? leads with
  | array here _ =>
      rw [Json.NamesDistinct, names] at here
      exact absurd here (by decide)

end Expansion

end TemplateFill
