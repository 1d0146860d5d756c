import TemplateFill.Proofs.Mapping.Frontier
import TemplateFill.Proofs.Mapping.Marks
import TemplateFill.Proofs.Mapping.Termination

/-!
Expanding nested collections.

Each round of expansion replaces the first chain that has a collection by the chains of the entries of its
list, in order. The paths that the properties will have stay the same, so at the end there is one property
for every vector of positions in the data.
-/

namespace TemplateFill

namespace Expansion

variable {field : String} {data : Json} {tree larger : Tree} {before after : List Site} {site : Site}
  {context : Context}

/-! ### The sites that a round makes -/

def Site.next (site : Site) (name : String) (names : List String) (copy : Tree) (position : Nat)
    (entry : Json) : Site :=
  match copy.member? Key.value with
  | some (.array number [element]) =>
      { front := site.front ++ [.name name, .entry position]
        names
        array := number
        elements := [element]
        element
        entry }
  | _ => site

theorem Site.next_eq {name : String} {names : List String} {copy : Tree} {position : Nat}
    {entry : Json} {content : NodeId} {element : Tree}
    (member : copy.member? Key.value = some (.array content [element])) :
    site.next name names copy position entry =
      { front := site.front ++ [.name name, .entry position]
        names
        array := content
        elements := [element]
        element
        entry } := by
  rw [Site.next, member]

theorem Site.paths_next {name : String} {names : List String} {copy : Tree} {position : Nat}
    {entry : Json} {content : NodeId} {element : Tree}
    (member : copy.member? Key.value = some (.array content [element])) :
    (site.next name names copy position entry).paths field =
      (Json.indexVectors names entry).map fun vector =>
        Step.path (site.front ++ Step.entries (name :: names) (position :: vector) ++
          [.name field]) := by
  rw [Site.next_eq member, Site.paths]
  refine List.map_congr_left fun vector _ => congrArg Step.path ?_
  simp [Step.entries]

theorem Site.Stands.next (stands : site.Stands field data tree) {name : String}
    {names : List String} (split : site.names = name :: names) {copy : Tree} {position : Nat}
    {entry : Json} {content : NodeId} {element : Tree}
    (member : copy.member? Key.value = some (.array content [element]))
    (within : copy ∈ larger.preorder)
    (chain : Chain field (site.front ++ [.name name, .entry position]) names element.toJson)
    (bounded : (position : Int) ≤ Lexer.greatestInteger)
    (reached : Step.follow [.name name, .entry position] site.entry = [entry])
    (listed : Json.Listed names entry) :
    (site.next name names copy position entry).Stands field data larger := by
  have plainNames := stands.plainNames
  rw [split] at plainNames
  rw [Site.next_eq member]
  refine
    { within := ?_
      inside := List.mem_singleton.mpr rfl
      whole := ?_
      chain := chain
      plainFront := ?_
      pinned := ?_
      plainNames := fun other known => plainNames other (List.mem_cons_of_mem _ known)
      reached := ?_
      listed := listed }
  · exact Tree.preorder_trans within (Tree.child_mem_preorder (Tree.mem_children_of_member? member))
  · rw [Site.list, Tree.mappings_array, List.flatMap_singleton]
  · exact List.forall_mem_append.mpr ⟨stands.plainFront, List.forall_mem_cons.mpr
      ⟨plainNames name (List.mem_cons_self ..), List.forall_mem_singleton.mpr bounded⟩⟩
  · simp [stands.pinned]
  · rw [Step.follow_append, stands.reached, List.flatMap_singleton, reached]

theorem Site.Stands.moved (stands : site.Stands field data tree)
    (within : site.list ∈ larger.preorder) : site.Stands field data larger :=
  { stands with within }

def Site.successors (site : Site) (name : String) (names : List String) (copies : List Tree)
    (entries : List Json) : List Site :=
  (copies.zip entries).zipIdx.map fun made => site.next name names made.1.1 made.2 made.1.2

theorem Site.exists_of_mem_successors {name : String} {names : List String} {copies : List Tree}
    {entries : List Json} {other : Site} (known : other ∈ site.successors name names copies entries) :
    ∃ position copy entry, copies[position]? = some copy ∧ entries[position]? = some entry ∧
      other = site.next name names copy position entry := by
  obtain ⟨⟨⟨copy, entry⟩, position⟩, inside, rfl⟩ := List.mem_map.mp known
  have found := List.mk_mem_zipIdx_iff_getElem?.mp inside
  obtain ⟨isCopy, isEntry⟩ := List.getElem?_zip_eq_some.mp found
  exact ⟨position, copy, entry, isCopy, isEntry, rfl⟩

theorem Site.mappings_successors {name : String} {names : List String} {copies : List Tree}
    {entries : List Json} (length : copies.length = entries.length)
    (holding : ∀ copy ∈ copies, ∃ content element,
      copy.member? Key.value = some (.array content [element]) ∧
        copy.mappings = element.mappings) :
    ((site.successors name names copies entries).flatMap fun other => other.element.mappings) =
      copies.flatMap Tree.mappings := by
  have numbered : copies.flatMap Tree.mappings =
      (copies.zip entries).zipIdx.flatMap fun made => made.1.1.mappings :=
    calc
      copies.flatMap Tree.mappings =
          (((copies.zip entries).zipIdx.map Prod.fst).map Prod.fst).flatMap Tree.mappings := by
        rw [List.zipIdx_map_fst, List.map_fst_zip (Nat.le_of_eq length)]
      _ = _ := by rw [List.map_map, List.flatMap_map]; rfl
  rw [numbered, successors, List.flatMap_map]
  refine List.flatMap_congr fun made inside => ?_
  have paired := List.mem_of_getElem? (List.mk_mem_zipIdx_iff_getElem?.mp inside)
  obtain ⟨content, element, member, same⟩ := holding made.1.1 (List.of_mem_zip paired).1
  rw [Site.next_eq member, same]

theorem Site.paths_successors {name : String} {names : List String}
    (split : site.names = name :: names) {copies : List Tree} {entries : List Json}
    (length : copies.length = entries.length)
    (vectors : Json.indexVectors (name :: names) site.entry = (entries.zipIdx.flatMap fun entry =>
      (Json.indexVectors names entry.1).map (entry.2 :: ·)))
    (holding : ∀ copy ∈ copies, ∃ content element,
      copy.member? Key.value = some (.array content [element]) ∧
        copy.mappings = element.mappings) :
    (site.successors name names copies entries).flatMap (Site.paths field) = site.paths field := by
  have numbered : entries.zipIdx = (copies.zip entries).zipIdx.map (Prod.map Prod.snd id) := by
    rw [← List.zipIdx_map, List.map_snd_zip (Nat.le_of_eq length.symm)]
  rw [Site.paths, split, vectors, numbered, List.flatMap_map, List.map_flatMap, successors,
    List.flatMap_map]
  refine List.flatMap_congr fun made inside => ?_
  have paired := List.mem_of_getElem? (List.mk_mem_zipIdx_iff_getElem?.mp inside)
  obtain ⟨content, element, member, _⟩ := holding made.1.1 (List.of_mem_zip paired).1
  rw [Site.paths_next member, List.map_map]
  rfl

/-! ### The list of a site -/

theorem Site.Stands.plainList (stands : site.Stands field data tree) {name : String}
    {names : List String} (split : site.names = name :: names) :
    ∀ step ∈ site.front ++ [.name name], step.Plain := by
  have plainNames := stands.plainNames
  rw [split] at plainNames
  exact List.forall_mem_append.mpr ⟨stands.plainFront,
    List.forall_mem_singleton.mpr (plainNames name (List.mem_cons_self ..))⟩

theorem Site.Stands.not_mem_list (stands : site.Stands field data tree) (name : String) :
    Step.every ∉ site.front ++ [.name name] := by
  simp [stands.pinned]

theorem Site.Stands.ofPath_list (stands : site.Stands field data tree) {name : String}
    {names : List String} (split : site.names = name :: names) :
    Binding.ofPath (Step.path (site.front ++ [.name name, .every])) =
      Step.binding (site.front ++ [.name name]) := by
  have grouped : site.front ++ [.name name, .every] =
      (site.front ++ [.name name]) ++ [Step.every] := by simp
  rw [grouped, Step.ofPath_path (stands.plainList split) (stands.not_mem_list name)]
  rfl

/-- The path of the next collection counts the entries of its list. -/
theorem Site.Stands.selectManyIn (stands : site.Stands field data tree) {name : String}
    {names : List String} (split : site.names = name :: names) :
    Query.selectManyIn data
        (Binding.ofPath (Step.path (site.front ++ [.name name, .every]))).countPath false =
      .ok (Step.follow [.name name, .every] site.entry) := by
  rw [stands.ofPath_list split, Step.binding, Step.selectManyIn_path, List.append_assoc,
    Step.follow_append, stands.reached, List.flatMap_singleton]
  · rfl
  · exact List.forall_mem_append.mpr
      ⟨stands.plainList split, List.forall_mem_singleton.mpr trivial⟩

/-- With the chains of the entries in the place of a chain, the mappings are those of sites again. -/
theorem Frontier.successors (frontier : Frontier field data tree (before ++ site :: after))
    {name : String} {names : List String} (split : site.names = name :: names) {copies : List Tree}
    {entries : List Json} (length : copies.length = entries.length)
    (bounded : (entries.length : Int) ≤ Lexer.greatestInteger + 1)
    (listed : ∀ entry ∈ entries, Json.Listed names entry)
    (reached : ∀ position entry, entries[position]? = some entry →
      Step.follow [.name name, .entry position] site.entry = [entry])
    (copied : ∀ position copy, copies[position]? = some copy → ∃ content element,
      copy.member? Key.value = some (.array content [element]) ∧
        copy.mappings = element.mappings ∧
        Chain field (site.front ++ [.name name, .entry position]) names element.toJson)
    (mappings : larger.mappings = (before.flatMap fun other => other.element.mappings) ++
      copies.flatMap Tree.mappings ++ after.flatMap fun other => other.element.mappings)
    (others : ∀ other ∈ before ++ after, other.list ∈ larger.preorder)
    (news : ∀ copy ∈ copies, copy ∈ larger.preorder) :
    Frontier field data larger (before ++ site.successors name names copies entries ++ after) := by
  refine { mappings := ?_, stands := ?_ }
  · rw [mappings, List.flatMap_append, List.flatMap_append, Site.mappings_successors length]
    intro copy inside
    obtain ⟨position, found⟩ := List.mem_iff_getElem?.mp inside
    obtain ⟨content, element, member, same, _⟩ := copied position copy found
    exact ⟨content, element, member, same⟩
  · intro other known
    rcases List.mem_append.mp known with known | last
    · rcases List.mem_append.mp known with first | new
      · have kept : other ∈ before ++ after := List.mem_append_left _ first
        exact (frontier.there kept).moved (others other kept)
      · obtain ⟨position, copy, entry, isCopy, isEntry, rfl⟩ := Site.exists_of_mem_successors new
        obtain ⟨content, element, member, _, further⟩ := copied position copy isCopy
        obtain ⟨low, _⟩ := List.getElem?_eq_some_iff.mp isEntry
        exact frontier.here.next split member (news copy (List.mem_of_getElem? isCopy)) further
          (by omega) (reached position entry isEntry) (listed entry (List.mem_of_getElem? isEntry))
    · have kept : other ∈ before ++ after := List.mem_append_right _ last
      exact (frontier.there kept).moved (others other kept)

/-! ### Rounds -/

/-- What rounds keep: below its root the working document holds a tree, and the mappings of the tree are
those of sites. -/
structure Invariant (field : String) (data : Json) (context : Context) (tree : Tree)
    (sites : List Site) : Prop where
  sameData : context.data = data
  wellFormed : context.working.WellFormed
  holds : context.working.Holds tree
  top : tree.number = Document.root
  frontier : Frontier field data tree sites

/-- A round puts the chains of the entries of its list in the place of the first chain that has one. -/
theorem Invariant.round (invariant : Invariant field data context tree (before ++ site :: after))
    (plainField : PlainName field) (done : ∀ other ∈ before, other.names = [])
    (left : site.names ≠ []) :
    ∃ next larger sites, Expansion.round context = .ok (some next) ∧
      Invariant field data next larger (before ++ sites ++ after) ∧
      sites.flatMap (Site.paths field) = site.paths field := by
  obtain ⟨sameData, wellFormed, holds, top, frontier⟩ := invariant
  obtain ⟨name, names, split⟩ := List.exists_cons_of_ne_nil left
  have here := frontier.here
  have chain := here.chain
  have listed := here.listed
  have plainNames := here.plainNames
  rw [split] at chain listed plainNames
  obtain ⟨container, list, qualifier, content, inner, repeats, _⟩ := chain.exists_repeats
  obtain ⟨entries, every, bounded, each, vectors, single⟩ := listed.exists_entries
  have elementHolds := (holds.of_mem_preorder here.within).of_mem_children here.inside
  have selects : Query.selectManyIn context.data
      (Binding.ofPath (Step.path (site.front ++ [.name name, .every]))).countPath
      (context.working.qualifierCardinality qualifier.number).isMandatory = .ok entries := by
    rw [isMandatory_eq_false wellFormed elementHolds repeats, sameData, here.selectManyIn split, every]
  have next := frontier.nextQualifier?_eq plainField wellFormed holds top done repeats.mappings
    repeats.tagged (here.plainList split) (here.not_mem_list name) (by
      rw [repeats.value, List.append_assoc]
      rfl)
  have isKind : context.working.modelType? site.element.number = some .collection := by
    rw [Document.modelType?, elementHolds.stringMember?, repeats.kind]
    rfl
  obtain ⟨result, copies, ran, keptData, length, areCopies, resultWF, _, resultHolds⟩ :=
    @expandQualifier_ok { context with qualifier? := some qualifier.number } tree site.list
      site.element (.array container list) qualifier wellFormed holds here.within here.inside
      repeats.qualifiers repeats.qualifier_mem repeats.tagged isKind _ repeats.value entries selects
      (Or.inl ⟨site.array, site.elements, rfl⟩)
  rw [here.ofPath_list split] at areCopies
  have copied := fun (position : Nat) (copy : Tree) (found : copies[position]? = some copy) =>
    (areCopies position copy found).chain plainField
      (fun other known => plainNames other (List.mem_cons_of_mem _ known)) chain
  have alike : ∀ copy ∈ copies,
      Tree.view.isIndexed copy = Tree.view.isIndexed site.element := by
    intro copy inside
    obtain ⟨position, found⟩ := List.mem_iff_getElem?.mp inside
    obtain ⟨_, _, _, _, _, indexed⟩ := copied position copy found
    exact indexed
  obtain ⟨mappings, others, news⟩ := frontier.exchange wellFormed holds alike
  refine ⟨result, _, site.successors name names copies entries, ?_,
    { sameData := keptData.trans sameData
      wellFormed := resultWF
      holds := resultHolds
      top := (Tree.number_graft ..).trans top
      frontier := ?_ }, ?_⟩
  · unfold Expansion.round
    rw [next]
    dsimp only
    rw [ran]
    rfl
  · refine frontier.successors split length bounded each single ?_ mappings others news
    intro position copy found
    obtain ⟨content, element, member, same, further, _⟩ := copied position copy found
    exact ⟨content, element, member, same, further⟩
  · refine Site.paths_successors split length vectors fun copy inside => ?_
    obtain ⟨position, found⟩ := List.mem_iff_getElem?.mp inside
    obtain ⟨content, element, member, same, _⟩ := copied position copy found
    exact ⟨content, element, member, same⟩

theorem Invariant.round_eq_none {sites : List Site}
    (invariant : Invariant field data context tree sites)
    (done : ∀ site ∈ sites, site.names = []) : Expansion.round context = .ok none := by
  have none : nextQualifier? context.working = none := by
    unfold nextQualifier?
    rw [← invariant.top, invariant.wellFormed.qualifiers_eq invariant.holds,
      Tree.qualifiersBelow_collection, invariant.frontier.mappings, List.filter_flatMap,
      List.flatMap_eq_nil_iff.mpr]
    · rfl
    · exact fun site known => (invariant.frontier.stands site known).filter_eq_nil (done site known)
  unfold Expansion.round
  rw [none]

private theorem done_or_first (sites : List Site) :
    (∀ site ∈ sites, site.names = []) ∨ ∃ before site after, sites = before ++ site :: after ∧
      (∀ other ∈ before, other.names = []) ∧ site.names ≠ [] := by
  induction sites with
  | nil => exact Or.inl nofun
  | cons site rest ih =>
      by_cases done : site.names = []
      · rcases ih with all | ⟨before, next, after, rfl, others, left⟩
        · exact Or.inl (List.forall_mem_cons.mpr ⟨done, all⟩)
        · exact Or.inr
            ⟨site :: before, next, after, rfl, List.forall_mem_cons.mpr ⟨done, others⟩, left⟩
      · exact Or.inr ⟨[], site, rest, rfl, nofun, done⟩

/-- Either no list is left, or a round keeps the invariant and the paths that properties will have. -/
theorem Invariant.turn {sites : List Site} (invariant : Invariant field data context tree sites)
    (plainField : PlainName field) :
    (∀ site ∈ sites, site.names = []) ∧ Expansion.round context = .ok none ∨
      ∃ next larger later, Expansion.round context = .ok (some next) ∧
        Invariant field data next larger later ∧
        later.flatMap (Site.paths field) = sites.flatMap (Site.paths field) := by
  rcases done_or_first sites with done | ⟨before, site, after, rfl, done, left⟩
  · exact Or.inl ⟨done, invariant.round_eq_none done⟩
  · obtain ⟨next, larger, made, ran, further, paths⟩ := invariant.round plainField done left
    refine Or.inr ⟨next, larger, before ++ made ++ after, ran, further, ?_⟩
    rw [List.flatMap_append, List.flatMap_append, paths, List.flatMap_append, List.flatMap_cons,
      List.append_assoc]

/-- A run ends well, and its properties have the paths that they were to get. -/
theorem Invariant.run {rounds : Nat} {result : Except Failure Context}
    (run : Run rounds context result) (plainField : PlainName field) {sites : List Site}
    (invariant : Invariant field data context tree sites) :
    ∃ done larger last, result = .ok done ∧ Invariant field data done larger last ∧
      (∀ site ∈ last, site.names = []) ∧
      last.flatMap (Site.paths field) = sites.flatMap (Site.paths field) := by
  induction run generalizing tree sites with
  | @done context last =>
      rcases invariant.turn plainField with ⟨done, _⟩ | ⟨_, _, _, ran, _⟩
      · exact ⟨context, tree, sites, rfl, invariant, done, rfl⟩
      · rw [last] at ran
        cases ran
  | @failed context failure last =>
      rcases invariant.turn plainField with ⟨_, ran⟩ | ⟨_, _, _, ran, _⟩
      · rw [last] at ran
        cases ran
      · rw [last] at ran
        cases ran
  | @next context after rounds result first rest ih =>
      rcases invariant.turn plainField with ⟨_, ran⟩ | ⟨next, larger, later, ran, further, paths⟩
      · rw [first] at ran
        cases ran
      · rw [first] at ran
        cases ran
        obtain ⟨done, final, last, same, atEnd, finished, all⟩ := ih further
        exact ⟨done, final, last, same, atEnd, finished, all.trans paths⟩

/-! ### Nested collections -/

theorem Site.Stands.finished (stands : site.Stands field data tree) (done : site.names = []) :
    (site.element.mappings.filter (Tree.view.hasTag QualifierType.mappingInfo.tag)).map
      (Tree.stringMember? Key.value) = (site.paths field).map some := by
  have chain := stands.chain
  rw [Site.paths, done]
  rw [done] at chain
  generalize valueEq : site.element.toJson = value at chain
  cases chain with
  | property mappings tagged path =>
      subst valueEq
      rw [Tree.mappings_toJson] at mappings
      obtain ⟨found, single, rfl⟩ := List.map_eq_singleton_iff.mp mappings
      rw [Tree.hasTag_toJson] at tagged
      rw [Tree.stringMember?_toJson] at path
      rw [single, List.filter_cons_of_pos tagged, List.filter_nil, List.map_singleton, path]
      simp [Json.indexVectors, Step.entries]

/-- A chain that holds all mappings of the working document is the one site there is. -/
theorem exists_site {names : List String} (plain : ∀ name ∈ names, PlainName name)
    {elements : List Json} {element : Json}
    (below : .array elements ∈ Json.view.descendants tree.toJson) (inside : element ∈ elements)
    (chain : Chain field [] names element) (only : tree.toJson.mappings = element.mappings)
    (listed : Json.Listed names data) :
    ∃ site : Site, site.names = names ∧ site.front = [] ∧ site.entry = data ∧
      Frontier field data tree [site] := by
  rw [Tree.descendants_toJson] at below
  obtain ⟨list, within, same⟩ := List.mem_map.mp below
  obtain ⟨number, trees, rfl, rfl⟩ := Tree.exists_array_of_toJson same
  obtain ⟨top, directly, rfl⟩ := List.mem_map.mp inside
  rw [Tree.mappings_toJson, Tree.mappings_toJson] at only
  have lengths := congrArg List.length only
  rw [List.length_map, List.length_map] at lengths
  have inner : top.mappings <:+: (Tree.array number trees).mappings :=
    Tree.mappings_isInfix (Tree.child_mem_preorder directly)
  have outer := Tree.mappings_isInfix within
  have first := inner.length_le
  have second := outer.length_le
  have whole : (Tree.array number trees).mappings = top.mappings :=
    (inner.eq_of_length (by omega)).symm
  refine ⟨{ front := [], names, array := number, elements := trees, element := top, entry := data },
    rfl, rfl, rfl, { mappings := ?_, stands := ?_ }⟩
  · rw [List.flatMap_singleton, ← whole]
    exact (outer.eq_of_length (by omega)).symm
  · intro site known
    rw [List.mem_singleton.mp known]
    exact
      { within
        inside := directly
        whole
        chain
        plainFront := nofun
        pinned := nofun
        plainNames := plain
        reached := rfl
        listed }

/-- Expanding a chain of nested collections loses nothing and duplicates nothing.

The working document has an array somewhere with a chain in it, and no other mappings. In the data, every
node that the path of a list selects is an array, no longer than positions can be written. Then expansion
succeeds, and the properties in document order have the paths of the vectors of positions that the data
has, in lexicographic order and each once. One after the other these paths select what the path of the
original property selects. -/
theorem expandCollections_nested {context : Context} (reachable : context.working.Reachable)
    {names : List String} {field : String} (plain : ∀ name ∈ names, PlainName name)
    (plainField : PlainName field) {elements : List Json} {element : Json}
    (below : .array elements ∈ Json.view.descendants context.working.toJson)
    (inside : element ∈ elements) (chain : Chain field [] names element)
    (only : context.working.toJson.mappings = element.mappings)
    (lists : ∀ before name after, names = before ++ name :: after → ∀ nodes,
      Query.selectManyIn context.data (Step.path (Step.everyEntry before ++ [.name name])) false =
        .ok nodes →
      ∀ node ∈ nodes, ∃ entries, node = .array entries ∧
        (entries.length : Int) ≤ Lexer.greatestInteger + 1) :
    ∃ (done : Context) (vectors : List (List Nat)) (selections : List (List Json)),
      context.expandCollections = .ok done ∧
      vectors.Pairwise (List.Lex (· < ·)) ∧
      (∀ vector, vector ∈ vectors ↔ (Json.entryAt? names vector context.data).isSome = true) ∧
      (done.working.qualifiers Document.root .mappingInfo).map done.working.qualifierValue? =
        vectors.map (fun vector => some (Step.path (Step.entries names vector ++ [.name field]))) ∧
      vectors.mapM (fun vector => Query.selectManyIn context.data
        (Step.path (Step.entries names vector ++ [.name field])) false) = .ok selections ∧
      Query.selectManyIn context.data (Step.path (Step.everyEntry names ++ [.name field])) false =
        .ok selections.flatten := by
  have wellFormed := reachable.wellFormed
  obtain ⟨tree, top, holds⟩ := wellFormed.grounded wellFormed.rooted
  have value : context.working.toJson = tree.toJson := by
    rw [Document.toJson, ← top, wellFormed.nodeToJson_eq holds]
  rw [value] at below only
  have listed : Json.Listed names context.data := by
    refine Json.listed_of_follow fun before name after split node reached => ?_
    refine lists before name after split _ (Step.selectManyIn_path ?_ _) node reached
    rw [split] at plain
    obtain ⟨early, late⟩ := List.forall_mem_append.mp plain
    exact List.forall_mem_append.mpr ⟨Step.everyEntry_plain early,
      List.forall_mem_singleton.mpr (late name (List.mem_cons_self ..))⟩
  have ending : ∀ {steps : List Step}, (∀ step ∈ steps, step.Plain) →
      ∀ step ∈ steps ++ [.name field], step.Plain := fun each =>
    List.forall_mem_append.mpr ⟨each, List.forall_mem_singleton.mpr plainField⟩
  obtain ⟨site, siteNames, siteFront, siteEntry, frontier⟩ :=
    exists_site plain below inside chain only listed
  obtain ⟨rounds, result, run⟩ := exists_run wellFormed
  have start : Invariant field context.data context tree [site] :=
    { sameData := rfl, wellFormed, holds, top, frontier }
  obtain ⟨done, larger, last, rfl, atEnd, finished, paths⟩ := start.run run plainField
  have final : last.flatMap (Site.paths field) =
      (Json.indexVectors names context.data).map fun vector =>
        Step.path (Step.entries names vector ++ [.name field]) := by
    rw [paths, List.flatMap_singleton, Site.paths, siteNames, siteFront, siteEntry]
    rfl
  refine ⟨{ done with qualifier? := none, working := restoreTags done.working },
    Json.indexVectors names context.data,
    (Json.indexVectors names context.data).map fun vector =>
      Step.follow (Step.entries names vector ++ [.name field]) context.data,
    ?_, Json.pairwise_indexVectors names context.data, fun vector => Json.mem_indexVectors_iff, ?_,
    ?_, ?_⟩
  · rw [Context.expandCollections, run.expandAll_eq]
    rfl
  · have properties : (larger.mappings.filter
        (Tree.view.hasTag QualifierType.mappingInfo.tag)).map (Tree.stringMember? Key.value) =
          (last.flatMap (Site.paths field)).map some := by
      rw [atEnd.frontier.mappings, List.filter_flatMap, List.map_flatMap, List.map_flatMap]
      exact List.flatMap_congr fun other known =>
        (atEnd.frontier.stands other known).finished (finished other known)
    change ((restoreTags done.working).qualifiers Document.root .mappingInfo).map
      (restoreTags done.working).qualifierValue? = _
    rw [mappingInfo_restoreTags atEnd.wellFormed atEnd.holds atEnd.top, properties, final,
      List.map_map]
    rfl
  · refine mapM_eq_ok fun vector known => Step.selectManyIn_path (ending ?_) _
    exact Json.entries_plain plain listed known
  · rw [Step.selectManyIn_path (ending (Step.everyEntry_plain plain)),
      Json.follow_everyEntry listed, List.flatMap_def]

/-- A list in a list, of which the first has two entries and the second one. -/
theorem expandCollections_nested_rows :
    let qualifier (type path : String) : Json :=
      .object [(Key.type, .text type), (Key.value, .text path)]
    let collection (path : String) (inner : Json) : Json := .object
      [(Key.modelType, .text "SubmodelElementCollection"),
        (Key.qualifiers, .array [qualifier "SMT/CollectionMappingInfo" path]),
        (Key.value, .array [inner])]
    let property : Json := .object
      [(Key.qualifiers, .array [qualifier "SMT/MappingInfo" "$.a[*].b[*].f"])]
    let chain := collection "$.a[*]" (collection "$.a[*].b[*]" property)
    let template : Json := .object [("submodelElements", .array [chain])]
    let row (fields : List Json) : Json :=
      .object [("b", .array (fields.map fun field => .object [("f", field)]))]
    let data : Json := .object
      [("a", .array [row [.integer 1, .integer 2], row [.integer 3]])]
    let context : Context :=
      { Context.start template data "en" "id" "now" with working := Document.ofJson template }
    context.working.Reachable ∧ Chain "f" [] ["a", "b"] chain ∧
      ∃ (done : Context) (vectors : List (List Nat)) (selections : List (List Json)),
        context.expandCollections = .ok done ∧
        vectors.Pairwise (List.Lex (· < ·)) ∧
        (∀ vector, vector ∈ vectors ↔
          (Json.entryAt? ["a", "b"] vector context.data).isSome = true) ∧
        (done.working.qualifiers Document.root .mappingInfo).map done.working.qualifierValue? =
          vectors.map (fun vector =>
            some (Step.path (Step.entries ["a", "b"] vector ++ [.name "f"]))) ∧
        vectors.mapM (fun vector => Query.selectManyIn context.data
          (Step.path (Step.entries ["a", "b"] vector ++ [.name "f"])) false) = .ok selections ∧
        Query.selectManyIn context.data (Step.path (Step.everyEntry ["a", "b"] ++ [.name "f"]))
          false = .ok selections.flatten := by
  intro qualifier collection property chain template row data context
  have reachable : context.working.Reachable := .ofJson template
  have letters : ∀ first : Char, first.isAlpha = true → PlainName (String.ofList [first]) :=
    fun first letter => ⟨first, [], String.toList_ofList, letter, nofun⟩
  have plainField : PlainName "f" := letters 'f' (by decide)
  have plain : ∀ name ∈ ["a", "b"], PlainName name := by
    intro name known
    rcases List.mem_pair.mp known with rfl | rfl
    · exact letters 'a' (by decide)
    · exact letters 'b' (by decide)
  have optional : ∀ path : String, ∀ sibling ∈ [qualifier "SMT/CollectionMappingInfo" path],
      Json.view.hasTag QualifierType.cardinality.tag sibling = true →
        ∀ stated, sibling.stringMember? Key.value = some stated →
          Cardinality.ofValue (some stated) = .optional := by
    intro path sibling known tagged
    have other : Json.view.hasTag QualifierType.cardinality.tag
        (qualifier "SMT/CollectionMappingInfo" path) = false := by rfl
    rw [List.mem_singleton.mp known, other] at tagged
    cases tagged
  have isChain : Chain "f" [] ["a", "b"] chain := by
    refine @Chain.collection "f" [] "a" ["b"] chain (collection "$.a[*].b[*]" property)
      (qualifier "SMT/CollectionMappingInfo" "$.a[*]")
      [qualifier "SMT/CollectionMappingInfo" "$.a[*]"] ?_ ?_ ?_ ?_ ?_ (optional _) ?_ ?_ ?_
    · decide +kernel
    · rfl
    · rfl
    · decide +kernel
    · decide +kernel
    · rfl
    · rfl
    · refine @Chain.collection "f" _ "b" [] (collection "$.a[*].b[*]" property) property
        (qualifier "SMT/CollectionMappingInfo" "$.a[*].b[*]")
        [qualifier "SMT/CollectionMappingInfo" "$.a[*].b[*]"] ?_ ?_ ?_ ?_ ?_ (optional _) ?_ ?_ ?_
      · decide +kernel
      · rfl
      · rfl
      · decide +kernel
      · decide +kernel
      · rfl
      · rfl
      · refine @Chain.property "f" _ property (qualifier "SMT/MappingInfo" "$.a[*].b[*].f") ?_ ?_ ?_
        · rfl
        · decide +kernel
        · decide +kernel
  refine ⟨reachable, isChain, ?_⟩
  have value : context.working.toJson = template := Document.toJson_ofJson template
  refine @expandCollections_nested context reachable ["a", "b"] "f" plain plainField [chain] chain ?_
    (List.mem_singleton.mpr rfl) isChain ?_ ?_
  · rw [value]
    exact List.mem_cons_of_mem _ (List.mem_cons_self ..)
  · rw [value]
    rfl
  · intro before name after split nodes selected node inside
    have step : ∀ {name : String}, PlainName name → ∀ step ∈ [Step.name name], step.Plain := by
      intro name plainName step known
      rw [List.mem_singleton.mp known]
      exact plainName
    rcases before with _ | ⟨outer, _ | ⟨_, rest⟩⟩
    · cases split
      have first := Step.selectManyIn_path (step (plain "a" (List.mem_cons_self ..))) data
      cases first.symm.trans selected
      rw [show node = .array [row [.integer 1, .integer 2], row [.integer 3]] from
        List.mem_singleton.mp inside]
      exact ⟨_, rfl, by decide⟩
    · cases split
      have plainSteps : ∀ step ∈ [Step.name "a", .every, .name "b"], step.Plain := by
        intro step known
        rcases List.mem_cons.mp known with rfl | known
        · exact plain "a" (List.mem_cons_self ..)
        rcases List.mem_pair.mp known with rfl | rfl
        · trivial
        · exact plain "b" (List.mem_cons_of_mem _ (List.mem_cons_self ..))
      have second := Step.selectManyIn_path plainSteps data
      cases second.symm.trans selected
      rcases List.mem_pair.mp inside with same | same
      · rw [same]
        exact ⟨_, rfl, by decide⟩
      · rw [same]
        exact ⟨_, rfl, by decide⟩
    · have lengths := congrArg List.length split
      simp at lengths

end Expansion

end TemplateFill
