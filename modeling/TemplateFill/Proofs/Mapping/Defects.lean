import TemplateFill.Proofs.Mapping.Attribution

/-!
What is wrong with a mapping, and when the pass over the scalars succeeds.

A mapping is judged by what the document says at the start of the pass. That is what it says at the
turn of the mapping too, if the mapping is attached by then: everything below an owner but its value
is untouched, and a value comes in only for an owner with a text in several languages. So the pass
succeeds if and only if every mapping that it processes fits, and else fails as the first one that
does not fit tells.
-/

namespace TemplateFill

namespace Scalars

/-! ### Mappings that fit -/

/-- A mapping that can be carried out: its owner has a kind and, but for a text in several
languages, a value; its path can be read; and the path selects one node, or none if it need not. -/
structure Fits (document : Document) (data : Json) (qualifier : NodeId) : Prop where
  owner : ∃ owner kind, document.qualifierOwner? qualifier = some owner ∧
    document.modelType? owner = some kind ∧
      (kind = .multiLanguage ∨ (document.member? Key.value owner).isSome = true)
  path : ∃ path query, document.qualifierValue? qualifier = some path ∧
    Query.parse path = .ok query ∧
      ((∃ node, query.select Json.view data = [node]) ∨
        query.select Json.view data = [] ∧ document.qualifierCardinality qualifier = .optional)

def selectionDefect? (path : String) (mandatory : Bool) :
    Except PathError (Option Json) → Option Cause
  | .error error => some (Cause.ofPathError error)
  | .ok (some _) => none
  | .ok none => if mandatory then some (.mandatoryMappingMissing path) else none

/-- What is wrong with a mapping whose owner is of a kind, in the order in which it is looked for.
-/
def defectOfKind? (document : Document) (data : Json) (qualifier owner : NodeId)
    (kind : ModelType) : Option Cause :=
  if kind ≠ .multiLanguage ∧ document.member? Key.value owner = none then
    some (.structuralMismatch .missingValueMember)
  else
    match document.qualifierValue? qualifier with
    | none => some .missingMappingValue
    | some path =>
        selectionDefect? path (document.qualifierCardinality qualifier).isMandatory
          (Query.selectOneIn data path)

def defect? (document : Document) (data : Json) (qualifier : NodeId) : Option Cause :=
  match document.qualifierOwner? qualifier with
  | none => some (.structuralMismatch .missingModelType)
  | some owner =>
      match document.modelType? owner with
      | none => some (.structuralMismatch .missingModelType)
      | some kind => defectOfKind? document data qualifier owner kind

section Judgement

variable {document : Document} {data : Json} {qualifier owner : NodeId} {path : String}
  {kind : ModelType} {mandatory : Bool}

theorem selectionDefect?_eq_none :
    selectionDefect? path mandatory (Query.selectOneIn data path) = none ↔
      ∃ query, Query.parse path = .ok query ∧
        ((∃ node, query.select Json.view data = [node]) ∨
          query.select Json.view data = [] ∧ mandatory = false) := by
  unfold Query.selectOneIn
  cases parsed : Query.parse path with
  | error error =>
      constructor
      · intro impossible
        cases impossible
      · intro found
        obtain ⟨_, impossible, _⟩ := found
        cases impossible
  | ok query =>
      change selectionDefect? path mandatory (query.selectOne Json.view data) = none ↔ _
      simp only [Except.ok.injEq, exists_eq_left']
      unfold Query.selectOne
      match query.select Json.view data with
      | [] => cases mandatory <;> simp [selectionDefect?]
      | [node] => simp [selectionDefect?]
      | _ :: _ :: _ => simp [selectionDefect?]

theorem defect?_of_owner (owned : document.qualifierOwner? qualifier = some owner)
    (isKind : document.modelType? owner = some kind) :
    defect? document data qualifier = defectOfKind? document data qualifier owner kind := by
  simp only [defect?, owned, isKind]

theorem defectOfKind?_eq_none :
    defectOfKind? document data qualifier owner kind = none ↔
      (kind = .multiLanguage ∨ (document.member? Key.value owner).isSome = true) ∧
        ∃ path, document.qualifierValue? qualifier = some path ∧
          selectionDefect? path (document.qualifierCardinality qualifier).isMandatory
            (Query.selectOneIn data path) = none := by
  unfold defectOfKind?
  split
  · rename_i missing
    constructor
    · intro impossible
      cases impossible
    · intro fits
      rcases fits.1 with same | present
      · exact absurd same missing.1
      · rw [missing.2] at present
        cases present
  · rename_i present
    have hasValue : kind = .multiLanguage ∨ (document.member? Key.value owner).isSome = true := by
      by_cases same : kind = .multiLanguage
      · exact .inl same
      · exact .inr (Option.isSome_iff_ne_none.mpr fun missing => present ⟨same, missing⟩)
    cases document.qualifierValue? qualifier with
    | none => simp
    | some path => simp [hasValue]

theorem defect?_eq_none_iff : defect? document data qualifier = none ↔
    Fits document data qualifier := by
  have optional : ∀ cardinality : Cardinality,
      cardinality.isMandatory = false ↔ cardinality = .optional := by
    intro cardinality
    cases cardinality <;> decide
  constructor
  · intro none
    cases owned : document.qualifierOwner? qualifier with
    | none => simp [defect?, owned] at none
    | some owner =>
        cases isKind : document.modelType? owner with
        | none => simp [defect?, owned, isKind] at none
        | some kind =>
            rw [defect?_of_owner owned isKind] at none
            obtain ⟨hasValue, path, hasPath, selects⟩ := defectOfKind?_eq_none.mp none
            obtain ⟨query, parsed, selected⟩ := selectionDefect?_eq_none.mp selects
            rw [optional] at selected
            exact ⟨⟨owner, kind, owned, isKind, hasValue⟩, path, query, hasPath, parsed, selected⟩
  · intro fits
    obtain ⟨owner, kind, owned, isKind, hasValue⟩ := fits.owner
    obtain ⟨path, query, hasPath, parsed, selected⟩ := fits.path
    rw [← optional] at selected
    rw [defect?_of_owner owned isKind]
    exact defectOfKind?_eq_none.mpr
      ⟨hasValue, path, hasPath, selectionDefect?_eq_none.mpr ⟨query, parsed, selected⟩⟩

end Judgement

/-! ### Processing one mapping -/

section Turn

variable {context : Context} {qualifier owner : NodeId} {kind : ModelType}

theorem exists_setMember {document : Document} {text other : String}
    (said : document.stringMember? other owner = some text) (key : String) (value : Json) :
    ∃ edited member, document.setMember owner key value = .ok (edited, member) := by
  cases present : document.member? key owner with
  | some member => exact ⟨_, member, Document.setMember_of_some value present⟩
  | none =>
      obtain ⟨member, found, _⟩ := Option.bind_eq_some_iff.mp said
      unfold Document.member? at found
      cases recorded : document.content owner with
      | object members => exact ⟨_, _, Document.setMember_of_none value present recorded⟩
      | scalar value =>
          rw [recorded] at found
          cases found
      | array elements =>
          rw [recorded] at found
          cases found

theorem withValueMember_spec (wellFormed : context.working.WellFormed)
    (isKind : context.working.modelType? owner = some kind) :
    ∃ ensured, withValueMember context owner kind = .ok ensured ∧ ensured.data = context.data ∧
      ((ensured.working.member? Key.value owner).isSome = true ↔
        kind = .multiLanguage ∨ (context.working.member? Key.value owner).isSome = true) := by
  unfold withValueMember
  split
  · rename_i missing
    obtain ⟨text, said, _⟩ := Option.map_eq_some_iff.mp isKind
    obtain ⟨edited, member, written⟩ := exists_setMember said Key.value (.text "")
    refine ⟨{ context with working := edited }, ?_, rfl, ?_⟩
    · rw [written]
      rfl
    · rw [(wellFormed.memberWrite written).found]
      exact ⟨fun _ => .inl missing.1, fun _ => rfl⟩
  · rename_i present
    refine ⟨context, rfl, rfl, ?_⟩
    rw [Option.isNone_iff_eq_none, not_and, ← ne_eq, ← Option.isSome_iff_ne_none] at present
    constructor
    · exact .inr
    · intro either
      rcases either with same | found
      · exact present same
      · exact found

theorem fill_of_owner {ensured : Context}
    (owned : context.working.qualifierOwner? qualifier = some owner)
    (isKind : context.working.modelType? owner = some kind)
    (ensures : withValueMember context owner kind = .ok ensured) :
    fill context qualifier = (do
      let _ ← ensured.require (.structuralMismatch .missingValueMember)
        (ensured.working.member? Key.value owner)
      let path ← ensured.require .missingMappingValue (context.working.qualifierValue? qualifier)
      match ← ensured.selected (Query.selectOneIn ensured.data path) with
      | some value => write ensured owner kind path value
      | none =>
          if (context.working.qualifierCardinality qualifier).isMandatory then
            throw (ensured.failure (.mandatoryMappingMissing path))
          else return ensured) := by
  unfold fill
  dsimp only
  rw [owned]
  change (context.require _ (context.working.modelType? owner) >>= _) = _
  rw [isKind]
  change (withValueMember context owner kind >>= _) = _
  rw [ensures]
  rfl

theorem fill_of_path {ensured : Context} {place : NodeId} {path : String}
    (owned : context.working.qualifierOwner? qualifier = some owner)
    (isKind : context.working.modelType? owner = some kind)
    (ensures : withValueMember context owner kind = .ok ensured)
    (found : ensured.working.member? Key.value owner = some place)
    (hasPath : context.working.qualifierValue? qualifier = some path) :
    fill context qualifier = (do
      match ← ensured.selected (Query.selectOneIn ensured.data path) with
      | some value => write ensured owner kind path value
      | none =>
          if (context.working.qualifierCardinality qualifier).isMandatory then
            throw (ensured.failure (.mandatoryMappingMissing path))
          else return ensured) := by
  rw [fill_of_owner owned isKind ensures, found, hasPath]
  rfl

/-- The outcome of processing a mapping that has a certain defect, or none. -/
def Outcome (context : Context) (qualifier : NodeId) : Option Cause → Prop
  | none => ∃ after, fill context qualifier = .ok after
  | some cause => ∃ failure, fill context qualifier = .error failure ∧ failure.cause = cause

theorem outcome_of_noKind
    (noKind : (context.working.qualifierOwner? qualifier).bind context.working.modelType? = none) :
    Outcome context qualifier (some (.structuralMismatch .missingModelType)) := by
  refine ⟨context.failure (.structuralMismatch .missingModelType), ?_, rfl⟩
  unfold fill
  dsimp only
  cases owned : context.working.qualifierOwner? qualifier with
  | none => rfl
  | some owner =>
      rw [owned, Option.bind_some] at noKind
      change (context.require _ (context.working.modelType? owner) >>= _) = _
      rw [noKind]
      rfl

theorem outcome_of_path {ensured : Context} {place : NodeId} {path : String}
    (owned : context.working.qualifierOwner? qualifier = some owner)
    (isKind : context.working.modelType? owner = some kind)
    (ensures : withValueMember context owner kind = .ok ensured)
    (found : ensured.working.member? Key.value owner = some place)
    (hasPath : context.working.qualifierValue? qualifier = some path) :
    Outcome context qualifier (selectionDefect? path
      (context.working.qualifierCardinality qualifier).isMandatory
      (Query.selectOneIn ensured.data path)) := by
  have run := fill_of_path owned isKind ensures found hasPath
  cases selected : Query.selectOneIn ensured.data path with
  | error error =>
      refine ⟨ensured.failure (Cause.ofPathError error), ?_, rfl⟩
      rw [run, selected]
      rfl
  | ok found? =>
  cases found? with
  | none =>
      rw [selected] at run
      unfold selectionDefect?
      dsimp only
      split
      · rename_i mandatory
        refine ⟨ensured.failure (.mandatoryMappingMissing path), ?_, rfl⟩
        exact run.trans (if_pos mandatory)
      · rename_i optional
        exact ⟨ensured, run.trans (if_neg optional)⟩
  | some node =>
      have written : ensured.working.setMember owner Key.value
          (valueFor kind ensured.language node) = .ok
            (ensured.working.replaceValue place (valueFor kind ensured.language node), place) := by
        rw [Document.setMember, found]
      rw [selected] at run
      change fill context qualifier = write ensured owner kind path node at run
      unfold write at run
      rw [written] at run
      exact ⟨_, run⟩

/-- Processing a mapping succeeds if nothing is wrong with it; else it fails as that tells. -/
theorem outcome_of_defect? (wellFormed : context.working.WellFormed) (qualifier : NodeId) :
    Outcome context qualifier (defect? context.working context.data qualifier) := by
  unfold defect?
  cases owned : context.working.qualifierOwner? qualifier with
  | none => exact outcome_of_noKind (by rw [owned]; rfl)
  | some owner =>
  dsimp only
  cases isKind : context.working.modelType? owner with
  | none => exact outcome_of_noKind (by rw [owned]; exact isKind)
  | some kind =>
  obtain ⟨ensured, ensures, sameData, hasValue⟩ := withValueMember_spec wellFormed isKind
  have run := fill_of_owner owned isKind ensures
  dsimp only
  unfold defectOfKind?
  cases found : ensured.working.member? Key.value owner with
  | none =>
      rw [found] at hasValue run
      have neither := not_or.mp (mt hasValue.mpr Bool.false_ne_true)
      rw [if_pos ⟨neither.1, Option.not_isSome_iff_eq_none.mp neither.2⟩]
      exact ⟨ensured.failure (.structuralMismatch .missingValueMember), run, rfl⟩
  | some place =>
  have present := hasValue.mp (by rw [found]; rfl)
  have notMissing : ¬(kind ≠ .multiLanguage ∧ context.working.member? Key.value owner = none) := by
    intro missing
    rcases present with same | present
    · exact missing.1 same
    · rw [missing.2] at present
      cases present
  rw [if_neg notMissing]
  cases hasPath : context.working.qualifierValue? qualifier with
  | none =>
      rw [found, hasPath] at run
      exact ⟨ensured.failure .missingMappingValue, run, rfl⟩
  | some path =>
      have outcome := outcome_of_path owned isKind ensures found hasPath
      rwa [sameData] at outcome

end Turn

end Scalars

/-! ### Links and values along a run -/

namespace Document

variable {start now : Document} {passed : List NodeId}
  {owner qualifier container node : NodeId}

/-- A value comes in only for an owner with a text in several languages. -/
def AddsValues (start now : Document) : Prop :=
  ∀ node < start.size, (∃ child < start.size, now.parent? child = some node) →
    start.member? Key.value node = none → (now.member? Key.value node).isSome = true →
      start.modelType? node = some .multiLanguage

theorem Progress.holds_of_untouched {tree : Tree} (progress : Progress start now passed)
    (holds : start.Holds tree)
    (untouched : ∀ number ∈ tree.numbers, ¬start.Touched passed number) : now.Holds tree := by
  induction tree using Tree.induction with
  | step tree ih =>
      have same : now.content tree.number = tree.content := by
        rw [progress.contents _ holds.present (untouched _ tree.number_mem_numbers), holds.content]
      apply Holds.intro (Nat.lt_of_lt_of_le holds.present progress.grows) same
      · intro child inside
        refine (progress.wellFormed.child ?_).2.2
        rw [children, same, Tree.content_children]
        exact List.mem_map_of_mem inside
      · intro child inside
        apply ih child inside (holds.of_mem_children inside)
        intro number within
        exact untouched number (Tree.mem_numbers_iff.mpr (.inr ⟨child, inside, within⟩))

theorem Progress.holds_container {tree : Tree} (progress : Progress start now passed)
    (before : start.WellFormed) (ahead : ∀ earlier ∈ passed, start.Precedes earlier qualifier)
    (owned : start.qualifierOwner? qualifier = some owner)
    (member : start.member? Key.qualifiers owner = some tree.number) (holds : start.Holds tree) :
    now.Holds tree := by
  apply progress.holds_of_untouched holds
  intro number inside
  obtain ⟨levels, climbed⟩ := holds.ancestor? inside
  have below : start.ancestor? number (levels + 1) = some owner := by
    rw [ancestor?_succ, climbed]
    exact before.parent?_of_member? member
  apply not_touched before ahead owned below
  intro isValue
  rcases holds.parent_mem inside with top | ⟨parent, within, link⟩
  · rw [top] at isValue
    exact absurd (before.member?_inj member isValue) (by decide)
  · rw [before.parent?_of_member? isValue] at link
    cases link
    obtain ⟨more, above⟩ := holds.ancestor? within
    have loop : start.ancestor? owner (more + 1) = some owner := by
      rw [ancestor?_succ, above]
      exact before.parent?_of_member? member
    exact before.ancestor?_ne_self owner more loop

theorem Progress.qualifierCardinality (progress : Progress start now passed)
    (before : start.WellFormed) (ahead : ∀ earlier ∈ passed, start.Precedes earlier qualifier)
    (member : start.member? Key.qualifiers owner = some container)
    (lower : start.parent? qualifier = some container) :
    now.qualifierCardinality qualifier = start.qualifierCardinality qualifier := by
  have upper := before.parent?_of_member? member
  have owned := qualifierOwner?_of_parents lower upper
  obtain ⟨tree, rfl, holds⟩ := before.grounded (lt_size_of_parent? upper)
  have holdsNow := progress.holds_container before ahead owned member holds
  obtain ⟨found, inside, rfl⟩ := before.exists_child holds lower
  rw [progress.wellFormed.qualifierCardinality_eq holdsNow inside,
    before.qualifierCardinality_eq holds inside]

end Document

namespace Scalars

variable {context state next done : Context} {qualifier owner : NodeId} {before rest : List NodeId}
  {now after : Document}

theorem ValueWrites.losesLinks (writes : ValueWrites owner now after)
    (wellFormed : now.WellFormed) : after.WellFormed ∧ now.LosesLinks after := by
  induction writes with
  | none => exact ⟨wellFormed, .refl now⟩
  | write earlier last ih =>
      exact ⟨last.wellFormed, ih.2.trans last.losesLinks⟩

/-- The members of a node with old children below it change only if the node is the owner. -/
theorem ValueWrites.member?_of_ne (writes : ValueWrites owner now after)
    (wellFormed : now.WellFormed) {node : NodeId} (old : node < now.size) (different : node ≠ owner)
    (child : ∃ child < now.size, after.parent? child = some node) (key : String) :
    after.member? key node = now.member? key node := by
  induction writes with
  | none => rfl
  | @write second third place value earlier last ih =>
      obtain ⟨_, loses⟩ := earlier.losesLinks wellFormed
      obtain ⟨lower, lowerOld, link⟩ := child
      have lowerThere := Nat.lt_of_lt_of_le lowerOld loses.grows
      have notPlace : node ≠ place := by
        intro same
        exact last.parent?_ne lowerThere (same ▸ link)
      rw [← ih ⟨lower, lowerOld, last.addsNoLinks lower lowerThere node link⟩, Document.member?,
        last.contents node (Nat.lt_of_lt_of_le old loses.grows) different notPlace,
        ← Document.member?]

theorem fill_valueWrites (ran : fill context qualifier = .ok next)
    (wellFormed : context.working.WellFormed) :
    ∃ owner, context.working.qualifierOwner? qualifier = some owner ∧
      ValueWrites owner context.working next.working := by
  obtain ⟨owner, kind, path, ensured, owned, _, _, _, first, second⟩ := fill_ok ran
  have early : ValueWrites owner context.working ensured := by
    rcases first with rfl | ⟨_, place, written⟩
    · exact .none
    · exact .write .none (wellFormed.memberWrite written)
  refine ⟨owner, owned, ?_⟩
  rcases second with ⟨_, same⟩ | ⟨node, place, _, written⟩
  · rwa [same]
  · exact .write early ((early.losesLinks wellFormed).1.memberWrite written)

theorem fillEach_losesLinks {qualifiers : List NodeId}
    (ran : fillEach qualifiers context = .ok done) (wellFormed : context.working.WellFormed) :
    done.working.WellFormed ∧ context.working.LosesLinks done.working := by
  induction qualifiers generalizing context with
  | nil =>
      cases ran
      exact ⟨wellFormed, .refl _⟩
  | cons qualifier rest ih =>
      obtain ⟨next, ⟨_, filled⟩ | ⟨_, rfl⟩, remaining⟩ := (fillEach_cons ..).mp ran
      · obtain ⟨_, _, writes⟩ := fill_valueWrites filled wellFormed
        obtain ⟨between, early⟩ := writes.losesLinks wellFormed
        obtain ⟨behind, late⟩ := ih remaining between
        exact ⟨behind, early.trans late⟩
      · exact ih remaining wellFormed

/-! ### Judging at the turn -/

theorem Along.defect?_eq (along : Along context state before)
    (values : context.working.AddsValues state.working) (wellFormed : context.working.WellFormed)
    (listed : context.working.qualifiers Document.root .mappingInfo = before ++ qualifier :: rest)
    (attached : state.working.isAttached qualifier = true) :
    defect? state.working state.data qualifier =
      defect? context.working context.data qualifier := by
  obtain ⟨owner, container, owned, member, upper, lower⟩ :=
    exists_container wellFormed (listed ▸ List.mem_append_cons_self)
  have ahead := (precedes_of_split wellFormed listed).1
  obtain ⟨ownedNow, reads, kindNow⟩ :=
    along.progress.reads wellFormed ahead upper lower attached
  have cardinality := along.progress.qualifierCardinality wellFormed ahead member lower
  obtain ⟨_, upperNow, _⟩ := along.progress.owner_of_attached wellFormed upper lower attached
  have ownerOld := wellFormed.parent_present upper
  have child : ∃ child < context.working.size, state.working.parent? child = some owner :=
    ⟨container, Document.lt_size_of_parent? upper, upperNow⟩
  cases isKind : context.working.modelType? owner with
  | none => simp only [defect?, ownedNow, owned, kindNow, isKind]
  | some kind =>
      have sameValue : (kind ≠ .multiLanguage ∧ state.working.member? Key.value owner = none) =
          (kind ≠ .multiLanguage ∧ context.working.member? Key.value owner = none) := by
        rcases along.progress.members owner ownerOld child Key.value with
          same | ⟨_, none, place, _, found⟩
        · rw [same]
        · have isMulti := values owner ownerOld child none (by rw [found]; rfl)
          rw [isKind] at isMulti
          cases isMulti
          simp
      rw [defect?_of_owner ownedNow (kindNow.trans isKind), defect?_of_owner owned isKind]
      unfold defectOfKind? Document.qualifierValue?
      simp only [sameValue, reads, cardinality, along.data]

theorem fits_of_fill (ran : fill context qualifier = .ok next)
    (wellFormed : context.working.WellFormed) : Fits context.working context.data qualifier := by
  have outcome := outcome_of_defect? wellFormed qualifier
  rw [← defect?_eq_none_iff]
  cases wrong : defect? context.working context.data qualifier with
  | none => rfl
  | some cause =>
      rw [wrong] at outcome
      obtain ⟨failure, failed, _⟩ := outcome
      rw [ran] at failed
      cases failed

/-- A turn brings in a value only for an owner with a text in several languages. -/
theorem Along.addsValues_passes (along : Along context state before)
    (values : context.working.AddsValues state.working) (wellFormed : context.working.WellFormed)
    (listed : context.working.qualifiers Document.root .mappingInfo = before ++ qualifier :: rest)
    (passes : Passes state qualifier next) : context.working.AddsValues next.working := by
  rcases passes with ⟨attached, filled⟩ | ⟨_, rfl⟩
  · intro node old child missing present
    obtain ⟨owner, container, _, _, upper, lower⟩ :=
      exists_container wellFormed (listed ▸ List.mem_append_cons_self)
    obtain ⟨ownedNow, _, kindNow⟩ := along.progress.reads wellFormed
      (precedes_of_split wellFormed listed).1 upper lower attached
    obtain ⟨other, ownedOther, writes⟩ := fill_valueWrites filled along.progress.wellFormed
    change state.working.qualifierOwner? qualifier = some other at ownedOther
    rw [ownedNow] at ownedOther
    cases ownedOther
    change ValueWrites owner state.working next.working at writes
    obtain ⟨_, loses⟩ := writes.losesLinks along.progress.wellFormed
    obtain ⟨lower, lowerOld, link⟩ := child
    have lowerThere := Nat.lt_of_lt_of_le lowerOld along.progress.grows
    have childNow : ∃ child < context.working.size, state.working.parent? child = some node :=
      ⟨lower, lowerOld, loses.links lower lowerThere node link⟩
    cases before' : state.working.member? Key.value node with
    | some place => exact values node old childNow missing (by rw [before']; rfl)
    | none =>
        by_cases here : node = owner
        · subst here
          obtain ⟨other, kind, owned, isKind, hasValue⟩ :=
            (fits_of_fill filled along.progress.wellFormed).owner
          change state.working.qualifierOwner? qualifier = some other at owned
          rw [ownedNow] at owned
          cases owned
          change kind = .multiLanguage ∨ (state.working.member? Key.value node).isSome = true
            at hasValue
          change state.working.modelType? node = some kind at isKind
          rcases hasValue with rfl | impossible
          · rw [← kindNow, isKind]
          · rw [before'] at impossible
            cases impossible
        · have same := writes.member?_of_ne along.progress.wellFormed
            (Nat.lt_of_lt_of_le old along.progress.grows) here ⟨lower, lowerThere, link⟩ Key.value
          rw [same, before'] at present
          cases present
  · exact values

theorem addsValues_turn (wellFormed : context.working.WellFormed)
    (listed : context.working.qualifiers Document.root .mappingInfo = before ++ rest)
    (reached : fillEach before context = .ok state) :
    context.working.AddsValues state.working := by
  refine fillEach_induction (fun final => context.working.AddsValues final.working) ?_
    (show fillEach [] context = .ok context from rfl) ?_ reached
  · intro middle other later split first second reachedFirst passes values
    have listedOther : context.working.qualifiers Document.root .mappingInfo =
        middle ++ other :: (later ++ rest) := by
      rw [listed, split, List.append_assoc, List.cons_append]
    have along := along_turn wellFormed listedOther reachedFirst
    exact along.addsValues_passes values wellFormed listedOther passes
  · intro node _ _ missing present
    rw [missing] at present
    cases present

theorem cause_at_turn {failure : Failure} (wellFormed : context.working.WellFormed)
    (listed : context.working.qualifiers Document.root .mappingInfo = before ++ qualifier :: rest)
    (reached : fillEach before context = .ok state)
    (attached : state.working.isAttached qualifier = true)
    (failed : fill { state with qualifier? := some qualifier } qualifier = .error failure) :
    defect? context.working context.data qualifier = some failure.cause := by
  have along := along_turn wellFormed listed reached
  have adds := addsValues_turn wellFormed listed reached
  have same := along.defect?_eq adds wellFormed listed attached
  have outcome := @outcome_of_defect? { state with qualifier? := some qualifier }
    along.progress.wellFormed qualifier
  change Outcome _ _ (defect? state.working state.data qualifier) at outcome
  rw [same] at outcome
  cases wrong : defect? context.working context.data qualifier with
  | none =>
      rw [wrong] at outcome
      obtain ⟨after, filled⟩ := outcome
      rw [failed] at filled
      cases filled
  | some cause =>
      rw [wrong] at outcome
      obtain ⟨other, failedOther, isCause⟩ := outcome
      rw [failed] at failedOther
      cases failedOther
      rw [isCause]

theorem Midway.holds_container {now document : Document} {tree : Tree}
    (midway : Midway now qualifier document) (wellFormed : now.WellFormed)
    (owned : now.qualifierOwner? qualifier = some owner)
    (upper : now.parent? tree.number = some owner) (holds : now.Holds tree) :
    document.WellFormed ∧ document.Holds tree := by
  cases midway with
  | begun => exact ⟨wellFormed, holds⟩
  | @ensured other place _ ownedOther missing written =>
      rw [owned] at ownedOther
      cases ownedOther
      have write := wellFormed.memberWrite written
      refine ⟨write.wellFormed, write.frame tree holds ?_ ?_⟩
      · intro within
        obtain ⟨levels, climbed⟩ := holds.ancestor? within
        have loop : now.ancestor? owner (levels + 1) = some owner := by
          rw [Document.ancestor?_succ, climbed]
          exact upper
        exact wellFormed.ancestor?_ne_self owner levels loop
      · intro within
        rcases write.place with ⟨found, _⟩ | ⟨_, fresh⟩
        · rw [missing] at found
          cases found
        · exact Nat.ne_of_lt (holds.lt_size_of_mem_numbers within) fresh

theorem qualifier?_at_turn {failure : Failure} (wellFormed : context.working.WellFormed)
    (listed : context.working.qualifiers Document.root .mappingInfo = before ++ qualifier :: rest)
    (reached : fillEach before context = .ok state)
    (attached : state.working.isAttached qualifier = true)
    (failed : fill { state with qualifier? := some qualifier } qualifier = .error failure) :
    failure.qualifier? = some (context.working.nodeToJson qualifier) := by
  have along := along_turn wellFormed listed reached
  obtain ⟨owner, container, owned, member, upper, lower⟩ :=
    exists_container wellFormed (listed ▸ List.mem_append_cons_self)
  have ahead := (precedes_of_split wellFormed listed).1
  obtain ⟨tree, rfl, holds⟩ := wellFormed.grounded (Document.lt_size_of_parent? upper)
  have holdsNow := along.progress.holds_container wellFormed ahead owned member holds
  obtain ⟨ownedNow, _, _⟩ := along.progress.reads wellFormed ahead upper lower attached
  obtain ⟨_, upperNow, _⟩ := along.progress.owner_of_attached wellFormed upper lower attached
  obtain ⟨document, cause, midway, isFailure⟩ := fill_eq_error failed
  obtain ⟨documentWF, holdsThere⟩ :=
    midway.holds_container along.progress.wellFormed ownedNow upperNow holdsNow
  obtain ⟨found, directly, rfl⟩ := wellFormed.exists_child holds lower
  rw [isFailure]
  change some (document.nodeToJson found.number) = some (context.working.nodeToJson found.number)
  rw [documentWF.nodeToJson_eq (holdsThere.of_mem_children directly),
    wellFormed.nodeToJson_eq (holds.of_mem_children directly)]

/-! ### The pass -/

theorem nodup_mappings (wellFormed : context.working.WellFormed) :
    (context.working.qualifiers Document.root .mappingInfo).Nodup := by
  obtain ⟨tree, top, holds⟩ := wellFormed.grounded wellFormed.rooted
  rw [← top, wellFormed.qualifiers_eq holds]
  exact wellFormed.nodup_qualifiersBelow holds _

theorem exists_middle {items before rest front back : List NodeId} {item : NodeId}
    (distinct : items.Nodup) (split : items = before ++ rest) (inside : item ∈ before)
    (occurs : items = front ++ item :: back) : ∃ middle, before = front ++ item :: middle := by
  rw [split] at occurs distinct
  have notInRest : item ∉ rest := fun inRest => (List.nodup_append.mp distinct).2.2 item inside item
    inRest rfl
  rcases List.append_eq_append_iff.mp occurs with ⟨more, _, restEq⟩ | ⟨more, beforeEq, tailEq⟩
  · exact absurd (restEq ▸ List.mem_append_cons_self) notInRest
  · cases more with
    | nil =>
        rw [List.nil_append] at tailEq
        exact absurd (tailEq ▸ List.mem_cons_self ..) notInRest
    | cons other more =>
        injection tailEq with same
        subst same
        exact ⟨more, beforeEq⟩

/-- A processed qualifier among those that a run has gone over: its turn, and the rest of the run. -/
theorem Processed.exists_turn (processed : Processed context qualifier)
    (wellFormed : context.working.WellFormed)
    (listed : context.working.qualifiers Document.root .mappingInfo = before ++ rest)
    (reached : fillEach before context = .ok state) (inside : qualifier ∈ before) :
    ∃ atTurn next front middle back,
      context.working.qualifiers Document.root .mappingInfo = front ++ qualifier :: back ∧
      fillEach front context = .ok atTurn ∧ atTurn.working.isAttached qualifier = true ∧
      fill { atTurn with qualifier? := some qualifier } qualifier = .ok next ∧
      fillEach middle next = .ok state := by
  obtain ⟨atTurn, ⟨front, back, split, reachedTurn⟩, attached⟩ := processed
  obtain ⟨middle, rfl⟩ := exists_middle (nodup_mappings wellFormed) listed inside split
  obtain ⟨other, reachedOther, remaining⟩ := (fillEach_append ..).mp reached
  rw [reachedTurn] at reachedOther
  cases reachedOther
  obtain ⟨next, passes, remaining⟩ := (fillEach_cons ..).mp remaining
  exact ⟨atTurn, next, front, middle, back, split, reachedTurn, attached,
    (passes_of_attached attached).mp passes, remaining⟩

theorem fits_of_processed (wellFormed : context.working.WellFormed)
    (listed : context.working.qualifiers Document.root .mappingInfo = before ++ rest)
    (reached : fillEach before context = .ok state) (inside : qualifier ∈ before)
    (processed : Processed context qualifier) :
    Fits context.working context.data qualifier := by
  obtain ⟨atTurn, next, front, _, back, split, reachedTurn, attached, filled, _⟩ :=
    processed.exists_turn wellFormed listed reached inside
  have along := along_turn wellFormed split reachedTurn
  have same := along.defect?_eq (addsValues_turn wellFormed split reachedTurn) wellFormed split
    attached
  have fits := defect?_eq_none_iff.mpr (fits_of_fill filled along.progress.wellFormed)
  exact defect?_eq_none_iff.mp (same.symm.trans fits)

/-- A failure is what is wrong with the first mapping that does not fit, and shows it. -/
theorem exists_first_defect {failure : Failure} (wellFormed : context.working.WellFormed)
    (failed : context.mapScalars = .error failure) : ∃ before qualifier rest,
      context.working.qualifiers Document.root .mappingInfo = before ++ qualifier :: rest ∧
        (∀ earlier ∈ before, Processed context earlier →
          Fits context.working context.data earlier) ∧
        Processed context qualifier ∧
        defect? context.working context.data qualifier = some failure.cause ∧
        failure.qualifier? = some (context.working.nodeToJson qualifier) := by
  obtain ⟨qualifier, state, ⟨before, rest, listed, reached⟩, attached, stuck⟩ :=
    fillEach_eq_error failed
  refine ⟨before, qualifier, rest, listed, ?_, ⟨state, ⟨before, rest, listed, reached⟩, attached⟩,
    cause_at_turn wellFormed listed reached attached stuck,
    qualifier?_at_turn wellFormed listed reached attached stuck⟩
  intro earlier inside processed
  exact fits_of_processed wellFormed listed reached inside processed

theorem fits_of_mapScalars (wellFormed : context.working.WellFormed)
    (ran : context.mapScalars = .ok done) (processed : Processed context qualifier) :
    Fits context.working context.data qualifier :=
  fits_of_processed wellFormed (List.append_nil _).symm ran processed.listed processed

/-- A mapping that is still attached in the end has been processed, as links are only lost. -/
theorem processed_of_attached (wellFormed : context.working.WellFormed)
    (ran : context.mapScalars = .ok done)
    (listed : qualifier ∈ context.working.qualifiers Document.root .mappingInfo)
    (attached : done.working.isAttached qualifier = true) : Processed context qualifier := by
  obtain ⟨before, rest, split⟩ := List.append_of_mem listed
  rw [Context.mapScalars, split] at ran
  obtain ⟨state, reached, remaining⟩ := (fillEach_append ..).mp ran
  have progress := (along_turn wellFormed split reached).progress
  obtain ⟨_, _, _, _, _, lower⟩ := exists_container wellFormed listed
  have old := Nat.lt_of_lt_of_le (Document.lt_size_of_parent? lower) progress.grows
  obtain ⟨doneWF, loses⟩ := fillEach_losesLinks remaining progress.wellFormed
  have attachedThen := loses.isAttached progress.wellFormed doneWF old attached
  exact ⟨state, ⟨before, rest, split, reached⟩, attachedThen⟩

/-- The pass over the scalars fails closed.

It succeeds if and only if all mappings that it processes fit the document that it begins with. Else
the failure is what is wrong with the first of them that does not fit. So, after a success, every
mandatory mapping that is still attached selects exactly one node of the data. -/
theorem mapScalars_failsClosed (reachable : context.working.Reachable) :
    ((∃ done, context.mapScalars = .ok done) ↔
      ∀ qualifier, Processed context qualifier → Fits context.working context.data qualifier) ∧
    (∀ failure, context.mapScalars = .error failure → ∃ before qualifier rest,
      context.working.qualifiers Document.root .mappingInfo = before ++ qualifier :: rest ∧
        (∀ earlier ∈ before, Processed context earlier →
          Fits context.working context.data earlier) ∧
        Processed context qualifier ∧
        defect? context.working context.data qualifier = some failure.cause ∧
        failure.qualifier? = some (context.working.nodeToJson qualifier)) ∧
    ∀ done, context.mapScalars = .ok done →
      ∀ qualifier ∈ context.working.qualifiers Document.root .mappingInfo,
        done.working.isAttached qualifier = true →
        context.working.qualifierCardinality qualifier = .mandatory →
          ∃ path query node, context.working.qualifierValue? qualifier = some path ∧
            Query.parse path = .ok query ∧ query.select Json.view context.data = [node] := by
  have wellFormed := reachable.wellFormed
  refine ⟨?_, fun failure failed => exists_first_defect wellFormed failed, ?_⟩
  · constructor
    · intro succeeds qualifier processed
      obtain ⟨done, ran⟩ := succeeds
      exact fits_of_mapScalars wellFormed ran processed
    · intro fits
      cases ran : context.mapScalars with
      | ok done => exact ⟨done, rfl⟩
      | error failure =>
          obtain ⟨_, qualifier, _, _, _, processed, wrong, _⟩ := exists_first_defect wellFormed ran
          rw [defect?_eq_none_iff.mpr (fits qualifier processed)] at wrong
          cases wrong
  · intro done ran qualifier listed attached mandatory
    have processed := processed_of_attached wellFormed ran listed attached
    have fits := fits_of_mapScalars wellFormed ran processed
    obtain ⟨path, query, hasPath, parsed, selected⟩ := fits.path
    rcases selected with ⟨node, one⟩ | ⟨_, optional⟩
    · exact ⟨path, query, node, hasPath, parsed, one⟩
    · rw [mandatory] at optional
      cases optional

/-- Two mandatory mappings of one property: with both values in the data they select one node each,
and without the second one the pass fails. -/
theorem mapScalars_failsClosed_two :
    let mapping (path : String) : Json :=
      .object [(Key.type, .text "SMT/MappingInfo"), (Key.value, .text path)]
    let template : Json := .object [("submodelElements", .array [.object
      [(Key.modelType, .text "Property"), (Key.value, .text ""),
        (Key.qualifiers, .array [mapping "$.a", mapping "$.b",
          .object [(Key.type, .text "SMT/Cardinality"), (Key.value, .text "One")]])]])]
    let context (data : Json) : Context :=
      { Context.start template data "en" "id" "now" with working := Document.ofJson template }
    let short := context (.object [("a", .integer 1)])
    let full := context (.object [("a", .integer 1), ("b", .integer 2)])
    short.working.Reachable ∧ full.working.Reachable ∧
      (∃ qualifier failure, short.mapScalars = .error failure ∧ Processed short qualifier ∧
        ¬Fits short.working short.data qualifier) ∧
      ∃ done, full.mapScalars = .ok done ∧ ∀ qualifier ∈ [6, 9],
        ∃ path query node, full.working.qualifierValue? qualifier = some path ∧
          Query.parse path = .ok query ∧ query.select Json.view full.data = [node] := by
  intro mapping template context short full
  have reachable : ∀ data, (context data).working.Reachable := fun _ => .ofJson template
  refine ⟨reachable _, reachable _, ?_, ?_⟩
  · have fails : short.mapScalars.isOk = false := by decide +kernel
    cases ran : short.mapScalars with
    | ok done =>
        rw [ran] at fails
        cases fails
    | error failure =>
        obtain ⟨_, qualifier, _, _, _, processed, wrong, _⟩ :=
          (mapScalars_failsClosed (reachable _)).2.1 failure ran
        refine ⟨qualifier, failure, rfl, processed, fun fits => ?_⟩
        rw [defect?_eq_none_iff.mpr fits] at wrong
        cases wrong
  · have listed : full.working.qualifiers Document.root .mappingInfo = [6, 9] := by decide +kernel
    have mandatory : ∀ qualifier ∈ [6, 9],
        full.working.qualifierCardinality qualifier = .mandatory := by decide +kernel
    have attached : full.mapScalars.toOption.map (fun done =>
        [6, 9].all done.working.isAttached) = some true := by decide +kernel
    cases ran : full.mapScalars with
    | error failure =>
        rw [ran] at attached
        cases attached
    | ok done =>
        rw [ran] at attached
        have stays := List.all_eq_true.mp (Option.some.inj attached)
        refine ⟨done, rfl, fun qualifier inside => ?_⟩
        exact (mapScalars_failsClosed (reachable _)).2.2 done ran qualifier (listed ▸ inside)
          (stays qualifier inside) (mandatory qualifier inside)

end Scalars

end TemplateFill
