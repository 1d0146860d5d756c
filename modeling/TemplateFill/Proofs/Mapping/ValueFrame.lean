import TemplateFill.Proofs.Mapping.Defects

/-!
What the pass over the scalars leaves as it is.

A write goes to the value of the owner of a qualifier that is attached at its turn. It replaces what is
in the node of the value, or gives a text in several languages that has none a new last member. All
other nodes keep their contents, and so their members, elements and places, unless they lie below a
node that was replaced.
-/

namespace TemplateFill

namespace Document

variable {document edited start now : Document} {passed : List NodeId}
  {object member owner place node : NodeId} {key : String} {value : Json}

theorem content_setMember
    (done : document.setMember object key value = .ok (edited, member)) :
    document.member? key object = some member ∧
        (∀ node < document.size, node ≠ member → edited.content node = document.content node) ∨
      document.member? key object = none ∧
        (∃ members, document.content object = .object members ∧
          edited.content object = .object (members ++ [(key, member)])) ∧
        ∀ node < document.size, node ≠ object → edited.content node = document.content node := by
  obtain ⟨found, rfl⟩ | ⟨missing, rfl, members, recorded, rfl⟩ := setMember_cases done
  · exact Or.inl ⟨found, fun _ => content_replaceValue_of_ne⟩
  · have present := lt_size_of_content recorded nofun
    exact Or.inr ⟨missing, ⟨members, recorded, content_appendMember_self present⟩,
      fun _ => content_appendMember_of_ne⟩

theorem Settled.detaches (settled : Settled start now owner value)
    (progress : Progress start now passed) (before : start.WellFormed)
    (found : start.member? Key.value owner = some place)
    (child : ∃ child < start.size, now.parent? child = some owner) {levels : Nat}
    (below : start.ancestor? node (levels + 1) = some place) : now.isAttached node = false := by
  have present : owner < start.size :=
    before.parent_present (before.parent?_of_member? found)
  obtain ⟨tree, member, holds, _, fresh⟩ := settled
  have same : tree.number = place := by
    rcases progress.members owner present child Key.value with kept | ⟨_, none, _⟩
    · rw [member, found] at kept
      exact Option.some.inj kept
    · rw [found] at none
      cases none
  rw [Bool.eq_false_iff]
  intro attached
  induction levels generalizing node with
  | zero =>
      obtain ⟨parent, link, rest⟩ := Option.bind_eq_some_iff.mp below
      cases rest
      have stays := progress.losesLinks.linked before progress.wellFormed link attached
      exact progress.wellFormed.parent?_ne_of_fresh holds fresh (lt_size_of_parent? link)
        (same ▸ stays.1)
  | succ levels ih =>
      obtain ⟨parent, link, climbed⟩ := Option.bind_eq_some_iff.mp below
      exact ih climbed (progress.losesLinks.linked before progress.wellFormed link attached).2

/-- An object has one member more than before, a new node under `value` behind the others. -/
def AppendsValue (start now : Document) (owner : NodeId) : Prop :=
  ∃ members place, start.content owner = .object members ∧
    now.content owner = .object (members ++ [(Key.value, place)]) ∧ start.size ≤ place

theorem AppendsValue.of_content_eq (same : edited.content owner = now.content owner) :
    start.AppendsValue now owner → start.AppendsValue edited owner :=
  fun ⟨members, place, recorded, appended, fresh⟩ =>
    ⟨members, place, recorded, same.trans appended, fresh⟩

theorem AppendsValue.isSome_member? (appends : start.AppendsValue now owner)
    (missing : start.member? Key.value owner = none) :
    (now.member? Key.value owner).isSome = true := by
  obtain ⟨members, place, recorded, appended, _⟩ := appends
  rw [member?, recorded] at missing
  rw [member?, appended]
  exact Option.isSome_iff_exists.mpr ⟨place, memberOf?_append_of_none place missing⟩

end Document

namespace Scalars

/-! ### What is replaced -/

/-- An owner with a processed qualifier that selects something. -/
def Filled (context : Context) (owner : NodeId) : Prop :=
  ∃ qualifier node, context.working.qualifierOwner? qualifier = some owner ∧
    Processed context qualifier ∧ Selects context qualifier node

def Replaced (context : Context) (place : NodeId) : Prop :=
  ∃ owner, Filled context owner ∧ context.working.member? Key.value owner = some place

/-- A text in several languages with a processed qualifier, but without a value to replace. -/
structure GainsValue (context : Context) (owner : NodeId) : Prop where
  asked : ∃ qualifier, context.working.qualifierOwner? qualifier = some owner ∧
    Processed context qualifier
  isKind : context.working.modelType? owner = some .multiLanguage
  missing : context.working.member? Key.value owner = none

def Remains (context : Context) (node : NodeId) : Prop :=
  context.working.isAttached node = true ∧
    ∀ levels above, context.working.ancestor? node (levels + 1) = some above →
      ¬Replaced context above

variable {context state next done : Context} {now after : Document} {before rest : List NodeId}
  {qualifier filler owner place above : NodeId}

private theorem front_unique {items front back first last : List NodeId} {item : NodeId}
    (distinct : items.Nodup) (split : items = front ++ item :: back)
    (again : items = first ++ item :: last) : front = first := by
  have position : ∀ ahead behind, items = ahead ++ item :: behind →
      items.idxOf item = ahead.length := by
    rintro ahead behind rfl
    have outside : item ∉ ahead := fun inside =>
      (List.nodup_append.mp distinct).2.2 item inside item (List.mem_cons_self ..) rfl
    rw [List.idxOf_append_of_notMem outside, List.idxOf_cons_self, Nat.add_zero]
  have same := (position _ _ split).symm.trans (position _ _ again)
  exact (List.append_inj (split.symm.trans again) same).1

theorem Turn.unique (wellFormed : context.working.WellFormed) (first : Turn context qualifier state)
    (second : Turn context qualifier next) : state = next := by
  obtain ⟨before, rest, split, reached⟩ := first
  obtain ⟨front, back, splitAgain, reachedAgain⟩ := second
  cases front_unique (nodup_mappings wellFormed) split splitAgain
  rw [reached] at reachedAgain
  exact Except.ok.inj reachedAgain

theorem detached_of_replaced (wellFormed : context.working.WellFormed)
    (listed : context.working.qualifiers Document.root .mappingInfo = before ++ rest)
    (reached : fillEach before context = .ok state) (inside : filler ∈ before)
    (processed : Processed context filler) {found : Json} (selects : Selects context filler found)
    (owned : context.working.qualifierOwner? filler = some owner)
    (member : context.working.member? Key.value owner = some place) {node : NodeId} {levels : Nat}
    (below : context.working.ancestor? node (levels + 1) = some place) :
    state.working.isAttached node = false := by
  obtain ⟨_, container, sameOwner, _, upper, lower⟩ := exists_container wellFormed processed.listed
  rw [owned] at sameOwner
  cases sameOwner
  obtain ⟨atTurn, next, front, middle, back, split, reachedTurn, attached, filled, remaining⟩ :=
    processed.exists_turn wellFormed listed reached inside
  have along := along_turn wellFormed split reachedTurn
  obtain ⟨_, upperNow, _⟩ := along.progress.owner_of_attached wellFormed upper lower attached
  obtain ⟨further, writes, kind, path, _, hasPath, outcome⟩ := along.fill wellFormed
    (precedes_of_split wellFormed split).1 upper lower attached filled
  have containerOld := Document.lt_size_of_parent? upper
  have child := (writes.progress (along.progress.mono (List.subset_append_left _ [filler]))
    (List.mem_append_right _ (List.mem_singleton.mpr rfl)) owned
    (wellFormed.parent_present upper) containerOld upperNow).2
  obtain ⟨samePath, hasSamePath, selected⟩ := selects
  rw [hasPath] at hasSamePath
  cases hasSamePath
  rcases outcome with ⟨none, _⟩ | ⟨_, _, settled⟩
  · rw [selected] at none
    cases none
  · have cut := settled.detaches further.progress wellFormed member ⟨container, containerOld, child⟩
      below
    have nodeOld : node < context.working.size := by
      obtain ⟨parent, link, _⟩ := Option.bind_eq_some_iff.mp below
      exact Document.lt_size_of_parent? link
    obtain ⟨stateWF, loses⟩ := fillEach_losesLinks remaining further.progress.wellFormed
    rw [Bool.eq_false_iff]
    intro attachedThen
    have attachedBefore := loses.isAttached further.progress.wellFormed stateWF
      (Nat.lt_of_lt_of_le nodeOld further.progress.grows) attachedThen
    rw [cut] at attachedBefore
    cases attachedBefore

/-- The owner of a processed qualifier is not replaced, nor is a node above it: the values of the
owners above are replaced before its turn. -/
theorem not_replaced_above (wellFormed : context.working.WellFormed)
    (processed : Processed context qualifier)
    (owned : context.working.qualifierOwner? qualifier = some owner) (levels : Nat)
    (climbed : context.working.ancestor? owner levels = some above) : ¬Replaced context above := by
  rintro ⟨upper, ⟨filler, node, ownedFiller, processedFiller, selects⟩, found⟩
  have inList := processedFiller.listed
  obtain ⟨state, ⟨before, rest, listed, reached⟩, attached⟩ := processed
  have higher : context.working.ancestor? owner (levels + 1) = some upper := by
    rw [Document.ancestor?_succ, climbed]
    exact wellFormed.parent?_of_member? found
  rw [listed] at inList
  rcases List.mem_append.mp inList with earlier | later
  · have below : context.working.ancestor? qualifier (levels + 2) = some above := by
      obtain ⟨container, link, rest⟩ := Option.bind_eq_some_iff.mp owned
      obtain ⟨_, linkAbove, rest⟩ := Option.bind_eq_some_iff.mp rest
      cases rest
      rw [Document.ancestor?, link, Option.bind_some, Document.ancestor?, linkAbove]
      exact climbed
    have cut := detached_of_replaced wellFormed listed reached earlier processedFiller selects
      ownedFiller found below
    rw [attached] at cut
    cases cut
  · rcases List.mem_cons.mp later with same | later
    · rw [same, owned] at ownedFiller
      cases ownedFiller
      exact wellFormed.ancestor?_ne_self owner levels higher
    · exact ((precedes_of_split wellFormed listed).2 filler later owner upper owned ownedFiller).1
        levels higher

/-! ### The run -/

structure Confined (context : Context) (now : Document) (passed : List NodeId) : Prop where
  contents : ∀ node < context.working.size, ¬Replaced context node →
    now.content node = context.working.content node ∨
      GainsValue context node ∧ context.working.AppendsValue now node
  links : ∀ node parent, context.working.parent? node = some parent → ¬Replaced context parent →
    now.parent? node = some parent
  gained : ∀ qualifier ∈ passed, Processed context qualifier → ∀ owner,
    context.working.qualifierOwner? qualifier = some owner →
      (now.member? Key.value owner).isSome = true

section Write

-- A write for an owner whose value is replaced, if it has one, and which may gain one else.
variable {passed touched : List NodeId} {value : Json}
  (progress : Document.Progress context.working now touched)
  (written : now.setMember owner Key.value value = .ok (after, place))
  (child : ∃ child < context.working.size, now.parent? child = some owner)
  (present : owner < context.working.size)
  (replaces : ∀ old, context.working.member? Key.value owner = some old → Replaced context old)
  (gains : context.working.member? Key.value owner = none → GainsValue context owner)

include progress written child present replaces

theorem ne_place_of_write {node : NodeId} (old : node < context.working.size)
    (kept : ¬Replaced context node) : node ≠ place := by
  rintro rfl
  rcases progress.place_of_write (progress.wellFormed.memberWrite written) present child with
    new | was
  · exact Nat.not_lt.mpr new old
  · exact kept (replaces node was)

include gains

theorem Confined.contents_of_write (confined : Confined context now passed) {node : NodeId}
    (old : node < context.working.size) (kept : ¬Replaced context node) :
    after.content node = context.working.content node ∨
      GainsValue context node ∧ context.working.AppendsValue after node := by
  have oldNow := Nat.lt_of_lt_of_le old progress.grows
  have before := confined.contents node old kept
  have unchanged (same : after.content node = now.content node) :
      after.content node = context.working.content node ∨
        GainsValue context node ∧ context.working.AppendsValue after node :=
    before.imp same.trans (And.imp_right (Document.AppendsValue.of_content_eq same))
  rcases Document.content_setMember written with ⟨_, others⟩ |
    ⟨missing, ⟨members, recorded, appended⟩, others⟩
  · exact unchanged (others node oldNow
      (ne_place_of_write progress written child present replaces old kept))
  · by_cases here : node = owner
    · subst here
      have none := progress.member?_eq_none present child missing
      have fresh : context.working.size ≤ place :=
        (progress.place_of_write (progress.wellFormed.memberWrite written) present child).resolve_right
          (by rw [none]; nofun)
      rcases before with same | ⟨_, appends⟩
      · exact Or.inr ⟨gains none, members, place, same.symm.trans recorded, appended, fresh⟩
      · have there := appends.isSome_member? none
        rw [missing] at there
        cases there
    · exact unchanged (others node oldNow here)

/-- A write for an owner keeps the rest, whether it replaces its value or appends one. -/
theorem Confined.write (confined : Confined context now passed)
    (wellFormed : context.working.WellFormed) : Confined context after passed := by
  have write := progress.wellFormed.memberWrite written
  have notPlace {node : NodeId} (old : node < context.working.size)
      (kept : ¬Replaced context node) : node ≠ place :=
    ne_place_of_write progress written child present replaces old kept
  refine
    { contents := fun _ => confined.contents_of_write progress written child present replaces gains
      links := fun node parent link kept => ?_
      gained := fun qualifier inside processed other owned => ?_ }
  · have parentOld := wellFormed.parent_present link
    exact write.keepsLinks node parent (confined.links node parent link kept)
      (notPlace parentOld kept)
  · by_cases here : other = owner
    · rw [here, write.found]
      rfl
    · have otherOld : other < context.working.size := wellFormed.lt_size_of_ancestor? owned
      have kept : ¬Replaced context other := not_replaced_above wellFormed processed owned 0 rfl
      rw [Document.member?, write.contents other (Nat.lt_of_lt_of_le otherOld progress.grows) here
        (notPlace otherOld kept), ← Document.member?]
      exact confined.gained qualifier inside processed other owned

end Write

theorem isSome_member?_of_fill (wellFormed : state.working.WellFormed)
    (ran : fill state qualifier = .ok next)
    (owned : state.working.qualifierOwner? qualifier = some owner) :
    (next.working.member? Key.value owner).isSome = true := by
  obtain ⟨other, isOwner, ran⟩ := bind_eq_ok.mp ran
  obtain ⟨kind, isKind, ran⟩ := bind_eq_ok.mp ran
  obtain ⟨ensured, ensures, ran⟩ := bind_eq_ok.mp ran
  obtain ⟨place, present, ran⟩ := bind_eq_ok.mp ran
  obtain ⟨path, hasPath, ran⟩ := bind_eq_ok.mp ran
  obtain ⟨found?, selects, ran⟩ := bind_eq_ok.mp ran
  rw [Context.require_eq_ok] at isOwner present
  rw [owned] at isOwner
  cases isOwner
  cases found? with
  | none =>
      change (if _ then _ else _) = _ at ran
      split at ran
      · cases ran
      · cases ran
        rw [present]
        rfl
  | some node =>
      obtain ⟨⟨document, written⟩, set, rest⟩ := bind_eq_ok.mp ran
      rw [Context.edited_eq_ok] at set
      cases rest
      have ensuredWF : ensured.working.WellFormed := by
        rcases withValueMember_ok ensures with rfl | ⟨_, _, _, first, rfl⟩
        · exact wellFormed
        · exact (wellFormed.memberWrite first).wellFormed
      change (document.member? Key.value owner).isSome = true
      rw [(ensuredWF.memberWrite set).found]
      rfl

section Turn

variable {container : NodeId} (wellFormed : context.working.WellFormed)
  (listed : context.working.qualifiers Document.root .mappingInfo = before ++ qualifier :: rest)
  (reached : fillEach before context = .ok state)
  (upper : context.working.parent? container = some owner)
  (lower : context.working.parent? qualifier = some container)
  (attached : state.working.isAttached qualifier = true)
  (filled : fill { state with qualifier? := some qualifier } qualifier = .ok next)

include wellFormed listed reached upper lower attached filled

/-- An owner that had no value at the start is a text in several languages if its qualifier is
processed. -/
theorem gainsValue_of_fill (missing : context.working.member? Key.value owner = none) :
    GainsValue context owner := by
  have progress := (along_turn wellFormed listed reached).progress
  obtain ⟨ownerRead, _, kindRead⟩ := progress.reads wellFormed
    (precedes_of_split wellFormed listed).1 upper lower attached
  obtain ⟨_, upperNow, _⟩ := progress.owner_of_attached wellFormed upper lower attached
  have owned := Document.qualifierOwner?_of_parents lower upper
  obtain ⟨other, kind, isOwner, hasKind, fits⟩ :=
    (fits_of_fill filled progress.wellFormed).owner
  change state.working.qualifierOwner? qualifier = some other at isOwner
  rw [ownerRead] at isOwner
  cases isOwner
  refine ⟨⟨qualifier, owned, state, ⟨before, rest, listed, reached⟩, attached⟩, ?_, missing⟩
  rcases fits with rfl | there
  · exact kindRead ▸ hasKind
  · have present := wellFormed.parent_present upper
    exact addsValues_turn wellFormed listed reached owner present
      ⟨container, Document.lt_size_of_parent? upper, upperNow⟩ missing there

/-- Processing a qualifier keeps all but the value of its owner. -/
theorem Confined.fill (confined : Confined context state.working before) :
    Confined context next.working before := by
  have along := along_turn wellFormed listed reached
  have gains := gainsValue_of_fill wellFormed listed reached upper lower attached filled
  obtain ⟨ownerRead, said, _⟩ := along.progress.reads wellFormed
    (precedes_of_split wellFormed listed).1 upper lower attached
  obtain ⟨_, upperNow, _⟩ := along.progress.owner_of_attached wellFormed upper lower attached
  have owned := Document.qualifierOwner?_of_parents lower upper
  have processed : Processed context qualifier := ⟨state, ⟨before, rest, listed, reached⟩, attached⟩
  have present := wellFormed.parent_present upper
  have containerOld := Document.lt_size_of_parent? upper
  have progress : Document.Progress context.working state.working (before ++ [qualifier]) :=
    along.progress.mono (List.subset_append_left _ _)
  obtain ⟨other, kind, path, ensured, isOwner, isKind, hasPath, _, first, second⟩ := fill_ok filled
  change state.working.qualifierOwner? qualifier = some other at isOwner
  rw [ownerRead] at isOwner
  cases isOwner
  change state.working.qualifierValue? qualifier = some path at hasPath
  rw [Document.qualifierValue?, said] at hasPath
  have begun : Confined context ensured before ∧ ValueWrites owner state.working ensured := by
    rcases first with rfl | ⟨missing, place, set⟩
    · exact ⟨confined, .none⟩
    · change state.working.member? Key.value owner = none at missing
      refine ⟨confined.write progress set ⟨container, containerOld, upperNow⟩ present
        (fun old found => ?_) gains wellFormed, .write .none (progress.wellFormed.memberWrite set)⟩
      rw [progress.member?_eq_none present ⟨container, containerOld, upperNow⟩ missing] at found
      cases found
  rcases second with ⟨_, same⟩ | ⟨node, place, selects, set⟩
  · rw [same]
    exact begun.1
  · obtain ⟨ensuredProgress, link⟩ := begun.2.progress progress
      (List.mem_append_right _ (List.mem_singleton.mpr rfl)) owned present containerOld upperNow
    change Query.selectOneIn state.data path = .ok (some node) at selects
    rw [along.data] at selects
    exact begun.1.write ensuredProgress set ⟨container, containerOld, link⟩ present
      (fun old found => ⟨owner, ⟨qualifier, node, owned, processed, path, hasPath, selects⟩, found⟩)
      gains wellFormed

end Turn

theorem Confined.passes (confined : Confined context state.working before)
    (wellFormed : context.working.WellFormed)
    (listed : context.working.qualifiers Document.root .mappingInfo = before ++ qualifier :: rest)
    (reached : fillEach before context = .ok state) (passes : Passes state qualifier next) :
    Confined context next.working (before ++ [qualifier]) := by
  obtain ⟨owner, container, owned, _, upper, lower⟩ :=
    exists_container wellFormed (listed ▸ List.mem_append_cons_self)
  suffices further : Confined context next.working before ∧ (Processed context qualifier →
      (next.working.member? Key.value owner).isSome = true) by
    refine ⟨further.1.contents, further.1.links, fun other among processed upperOther ownedOther => ?_⟩
    rcases List.mem_append.mp among with earlier | last
    · exact further.1.gained other earlier processed upperOther ownedOther
    · rw [List.mem_singleton.mp last] at processed ownedOther
      rw [owned] at ownedOther
      cases ownedOther
      exact further.2 processed
  rcases passes with ⟨attached, filled⟩ | ⟨detached, rfl⟩
  · have progress := (along_turn wellFormed listed reached).progress
    have ownerRead := (progress.reads wellFormed (precedes_of_split wellFormed listed).1 upper lower
      attached).1
    exact ⟨confined.fill wellFormed listed reached upper lower attached filled,
      fun _ => @isSome_member?_of_fill { state with qualifier? := some qualifier } next qualifier
        owner progress.wellFormed filled ownerRead⟩
  · refine ⟨confined, fun ⟨other, again, attached⟩ => ?_⟩
    cases Turn.unique wellFormed ⟨before, rest, listed, reached⟩ again
    rw [detached] at attached
    cases attached

theorem confined_turn (wellFormed : context.working.WellFormed)
    (listed : context.working.qualifiers Document.root .mappingInfo = before ++ rest)
    (reached : fillEach before context = .ok state) : Confined context state.working before := by
  induction before using List.reverseRecOn generalizing rest state with
  | nil =>
      cases reached
      exact ⟨fun _ _ _ => Or.inl rfl, fun _ _ link _ => link, nofun⟩
  | append_singleton before qualifier ih =>
      rw [List.append_assoc, List.singleton_append] at listed
      obtain ⟨middle, earlier, last⟩ := (fillEach_append ..).mp reached
      obtain ⟨next, passes, ended⟩ := (fillEach_cons ..).mp last
      cases ended
      exact (ih listed earlier).passes wellFormed listed earlier passes

/-! ### The document behind the pass -/

structure KeepsRest (context : Context) (after : Document) : Prop where
  /-- Of the old nodes those are cut off that lay below a replaced one. -/
  attached : ∀ node < context.working.size, after.isAttached node = true ↔ Remains context node
  parents : ∀ node, Remains context node → after.parent? node = context.working.parent? node
  contents : ∀ node, Remains context node → ¬Replaced context node → ¬GainsValue context node →
    after.content node = context.working.content node
  appended : ∀ owner, Remains context owner → GainsValue context owner →
    context.working.AppendsValue after owner

theorem Remains.lt_size (remains : Remains context owner)
    (wellFormed : context.working.WellFormed) : owner < context.working.size := by
  obtain ⟨tree, top, holds⟩ := wellFormed.grounded wellFormed.rooted
  exact holds.lt_size_of_mem_numbers ((wellFormed.isAttached_iff holds top owner).mp remains.1)

theorem Remains.parent (remains : Remains context owner) (wellFormed : context.working.WellFormed)
    (link : context.working.parent? owner = some above) :
    Remains context above ∧ ¬Replaced context above := by
  have first : context.working.ancestor? owner 1 = some above := by
    rw [Document.ancestor?, link]
    rfl
  refine ⟨⟨wellFormed.isAttached_of_ancestor? remains.1 first, fun levels higher climbed => ?_⟩,
    remains.2 0 above first⟩
  apply remains.2 (levels + 1) higher
  rw [Document.ancestor?, link]
  exact climbed

theorem Remains.child {node : NodeId} (remains : Remains context owner)
    (wellFormed : context.working.WellFormed) (unreplaced : ¬Replaced context owner)
    (link : context.working.parent? node = some owner) : Remains context node := by
  refine ⟨wellFormed.isAttached_of_parent? link remains.1, fun levels higher climbed => ?_⟩
  rw [Document.ancestor?, link, Option.bind_some] at climbed
  cases levels with
  | zero =>
      cases climbed
      exact unreplaced
  | succ levels => exact remains.2 levels higher climbed

/-- An owner that is not replaced has its value where it had it. -/
theorem KeepsRest.member?_of_remains (keeps : KeepsRest context after) (remains : Remains context owner)
    (unreplaced : ¬Replaced context owner)
    (found : context.working.member? Key.value owner = some place) :
    after.member? Key.value owner = some place := by
  have same := keeps.contents owner remains unreplaced fun gains => by
    rw [gains.missing] at found
    cases found
  rw [Document.member?, same, ← Document.member?, found]

theorem KeepsRest.fresh (keeps : KeepsRest context after) (afterWF : after.WellFormed)
    (wellFormed : context.working.WellFormed) {node : NodeId}
    (isAttached : after.isAttached node = true) (new : context.working.size ≤ node) :
    ∃ owner place levels, (Filled context owner ∨ GainsValue context owner) ∧
      after.member? Key.value owner = some place ∧ after.ancestor? node levels = some place := by
  obtain ⟨levels, climbed⟩ := (afterWF.isAttached_iff_ancestor? node).mp isAttached
  induction levels generalizing node with
  | zero =>
      cases climbed
      exact absurd wellFormed.rooted (Nat.not_lt.mpr new)
  | succ levels ih =>
      obtain ⟨parent, link, further⟩ := Option.bind_eq_some_iff.mp climbed
      have parentAttached := (afterWF.isAttached_iff_ancestor? parent).mpr ⟨levels, further⟩
      by_cases old : parent < context.working.size
      · have remains := (keeps.attached parent old).mp parentAttached
        have listed := afterWF.listed link
        by_cases replaced : Replaced context parent
        · obtain ⟨owner, filled, found⟩ := replaced
          obtain ⟨above, unreplaced⟩ :=
            remains.parent wellFormed (wellFormed.parent?_of_member? found)
          refine ⟨owner, parent, 1, Or.inl filled,
            keeps.member?_of_remains above unreplaced found, ?_⟩
          rw [Document.ancestor?, link]
          rfl
        · by_cases gains : GainsValue context parent
          · obtain ⟨members, place, recorded, longer, _⟩ := keeps.appended parent remains gains
            have missing := gains.missing
            rw [Document.member?, recorded] at missing
            rw [Document.children, longer, Content.children, List.map_append] at listed
            rcases List.mem_append.mp listed with before | last
            · have there : node ∈ context.working.children parent := by
                rwa [Document.children, recorded]
              exact absurd (wellFormed.child there).2.1 (Nat.not_lt.mpr new)
            · refine ⟨parent, place, 0, Or.inr gains, ?_, congrArg some (List.mem_singleton.mp last)⟩
              rw [Document.member?, longer]
              exact Document.memberOf?_append_of_none place missing
          · rw [Document.children, keeps.contents parent remains replaced gains,
              ← Document.children] at listed
            exact absurd (wellFormed.child listed).2.1 (Nat.not_lt.mpr new)
      · obtain ⟨owner, place, more, asked, found, above⟩ :=
          ih parentAttached (Nat.le_of_not_lt old) further
        refine ⟨owner, place, more + 1, asked, found, ?_⟩
        rw [Document.ancestor?, link]
        exact above

theorem KeepsRest.unfilled (keeps : KeepsRest context after)
    (wellFormed : context.working.WellFormed) (remains : Remains context owner)
    (unreplaced : ¬Replaced context owner) (empty : ¬Filled context owner)
    (found : context.working.member? Key.value owner = some place) :
    after.member? Key.value owner = some place ∧
      (after.content place = context.working.content place ∨ GainsValue context place) := by
  refine ⟨keeps.member?_of_remains remains unreplaced found, ?_⟩
  have link := wellFormed.parent?_of_member? found
  have placeUnreplaced : ¬Replaced context place := by
    rintro ⟨other, filled, again⟩
    have linkAgain := wellFormed.parent?_of_member? again
    rw [link] at linkAgain
    cases linkAgain
    exact empty filled
  have placeRemains := remains.child wellFormed unreplaced link
  by_cases gains : GainsValue context place
  · exact Or.inr gains
  · exact Or.inl (keeps.contents place placeRemains placeUnreplaced gains)

theorem Confined.ancestor? {passed : List NodeId} {node : NodeId}
    (confined : Confined context now passed) (remains : Remains context node) {levels : Nat}
    (climbed : context.working.ancestor? node levels = some above) :
    now.ancestor? node levels = some above := by
  induction levels generalizing above with
  | zero => exact climbed
  | succ levels ih =>
      have unreplaced := remains.2 levels above climbed
      rw [Document.ancestor?_succ] at climbed ⊢
      obtain ⟨below, lower, link⟩ := Option.bind_eq_some_iff.mp climbed
      rw [ih lower]
      exact confined.links below above link unreplaced

theorem keepsRest_of_mapScalars (wellFormed : context.working.WellFormed)
    (ran : context.mapScalars = .ok done) : KeepsRest context done.working := by
  have whole := (List.append_nil (context.working.qualifiers Document.root .mappingInfo)).symm
  have progress := (along_turn wellFormed whole ran).progress
  have confined := confined_turn wellFormed whole ran
  refine
    { attached := fun node old => ⟨fun attached => ⟨?_, fun levels above climbed replaced => ?_⟩,
        fun remains => ?_⟩
      parents := fun node remains => ?_
      contents := fun node remains unreplaced same => ?_
      appended := fun owner remains gains => ?_ }
  · exact progress.losesLinks.isAttached wellFormed progress.wellFormed old attached
  · obtain ⟨owner, ⟨filler, found, owned, processed, selects⟩, member⟩ := replaced
    have cut := detached_of_replaced wellFormed whole ran processed.listed processed selects owned
      member climbed
    rw [attached] at cut
    cases cut
  · obtain ⟨levels, toRoot⟩ := (wellFormed.isAttached_iff_ancestor? node).mp remains.1
    exact (progress.wellFormed.isAttached_iff_ancestor? node).mpr
      ⟨levels, confined.ancestor? remains toRoot⟩
  · cases link : context.working.parent? node with
    | some parent => exact confined.links node parent link (remains.parent wellFormed link).2
    | none =>
        cases linkAfter : done.working.parent? node with
        | none => rfl
        | some parent =>
            have old := progress.links node (remains.lt_size wellFormed) parent linkAfter
            rw [link] at old
            cases old
  · exact (confined.contents node (remains.lt_size wellFormed) unreplaced).resolve_right
      fun appended => same appended.1
  · obtain ⟨qualifier, owned, processed⟩ := gains.asked
    have unreplaced : ¬Replaced context owner := not_replaced_above wellFormed processed owned 0 rfl
    rcases confined.contents owner (remains.lt_size wellFormed) unreplaced with same | appended
    · have hasValue := confined.gained qualifier processed.listed processed owner owned
      rw [Document.member?, same, ← Document.member?, gains.missing] at hasValue
      cases hasValue
    · exact appended.2

/-- The pass over the scalars touches values only.

The nodes that were there keep their places, and their contents with all members and elements, but
for the values that are replaced, what was below those, and texts in several languages that get a
last member `value`. New nodes are found in these values only, and an owner whose qualifiers select
nothing keeps the value that it has. -/
theorem mapScalars_touchesValues (wellFormed : context.working.WellFormed)
    (ran : context.mapScalars = .ok done) :
    KeepsRest context done.working ∧
      (∀ node, done.working.isAttached node = true → context.working.size ≤ node →
        ∃ owner place levels, (Filled context owner ∨ GainsValue context owner) ∧
          done.working.member? Key.value owner = some place ∧
          done.working.ancestor? node levels = some place) ∧
      ∀ owner place, Remains context owner → ¬Replaced context owner → ¬Filled context owner →
        context.working.member? Key.value owner = some place →
          done.working.member? Key.value owner = some place ∧
            (done.working.content place = context.working.content place ∨
              GainsValue context place) := by
  have keeps := keepsRest_of_mapScalars wellFormed ran
  have whole := (List.append_nil (context.working.qualifiers Document.root .mappingInfo)).symm
  have doneWF := (along_turn wellFormed whole ran).progress.wellFormed
  exact ⟨keeps, fun node => keeps.fresh doneWF wellFormed,
    fun owner place => keeps.unfilled wellFormed⟩

/-- A text in several languages gets a value, and a property whose mapping selects nothing keeps
its own. -/
theorem mapScalars_touchesValues_two :
    let element (kind path : String) (value : List (String × Json)) : Json := .object
      ([(Key.modelType, .text kind), (Key.qualifiers, .array [.object
        [(Key.type, .text "SMT/MappingInfo"), (Key.value, .text path)]])] ++ value)
    let template : Json := .object [("submodelElements", .array
      [element "MultiLanguageProperty" "$.a" [],
        element "Property" "$.b" [(Key.value, .text "old")]])]
    let data : Json := .object [("a", .text "new")]
    let context : Context :=
      { Context.start template data "en" "id" "now" with working := Document.ofJson template }
    context.working.WellFormed ∧ GainsValue context 2 ∧ ¬Filled context 8 ∧
      ∃ done, context.mapScalars = .ok done ∧ context.working.AppendsValue done.working 2 ∧
        done.working.member? Key.value 8 = some 14 ∧
        done.working.content 14 = context.working.content 14 := by
  intro element template data context
  have wellFormed : context.working.WellFormed := Document.ofJson_wellFormed template
  have processed : Processed context 5 := ⟨context, ⟨[], [11], by decide +kernel, rfl⟩, by decide⟩
  have gains : GainsValue context 2 :=
    ⟨⟨5, by decide, processed⟩, by decide +kernel, by decide⟩
  have onlyFirst : ∀ owner, Filled context owner → owner = 2 := by
    rintro owner ⟨qualifier, node, owned, isProcessed, path, hasPath, selects⟩
    have listed := isProcessed.listed
    rw [show context.working.qualifiers Document.root .mappingInfo = [5, 11] by decide +kernel]
      at listed
    rcases List.mem_pair.mp listed with rfl | rfl
    · rw [show context.working.qualifierOwner? 5 = some 2 by decide] at owned
      exact (Option.some.inj owned).symm
    · rw [show context.working.qualifierValue? 11 = some "$.b" by decide +kernel] at hasPath
      rw [← Option.some.inj hasPath, show Query.selectOneIn context.data "$.b" = .ok none by rfl]
        at selects
      cases selects
  have noneReplaced : ∀ place, ¬Replaced context place := by
    rintro place ⟨owner, filled, found⟩
    rw [onlyFirst owner filled, gains.missing] at found
    cases found
  have remains : ∀ node, context.working.isAttached node = true → Remains context node :=
    fun node attached => ⟨attached, fun _ above _ => noneReplaced above⟩
  have empty : ¬Filled context 8 := fun filled => absurd (onlyFirst 8 filled) (by decide)
  have succeeds : context.mapScalars.isOk = true := by decide +kernel
  cases ran : context.mapScalars with
  | error failure =>
      rw [ran] at succeeds
      cases succeeds
  | ok done =>
      obtain ⟨keeps, _, unfilled⟩ := mapScalars_touchesValues wellFormed ran
      obtain ⟨found, same | gainsToo⟩ :=
        unfilled 8 14 (remains 8 (by decide)) (noneReplaced 8) empty (by decide)
      · exact ⟨wellFormed, gains, empty, done, rfl, keeps.appended 2 (remains 2 (by decide)) gains,
          found, same⟩
      · exact absurd gainsToo.isKind (by decide +kernel)

end Scalars

end TemplateFill
