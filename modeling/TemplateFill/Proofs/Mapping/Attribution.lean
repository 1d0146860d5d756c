import TemplateFill.Proofs.Mapping.Passes

/-!
The qualifier that a failure names.

A pass that fails while it processes a qualifier names that qualifier: the failure has its value,
and its location, which is read as a path that selects it alone. The qualifier is attached then,
whatever earlier writes have done, as it was found from the root or is passed over otherwise.

The pass over the scalars does not take its last qualifier back, so a later pass that fails names
that one.
-/

namespace TemplateFill

/-- A failure names a node of a document, which is a qualifier of a kind. -/
structure Failure.Names (failure : Failure) (document : Document) (kind : QualifierType)
    (node : NodeId) : Prop where
  value : failure.qualifier? = some (document.nodeToJson node)
  type : document.stringMember? Key.type node = some kind.tag
  /-- The location is read as a path if positions can be written in paths. -/
  location : ∃ path, failure.location? = some path ∧ (document.PositionsFit node →
    ∃ query, Query.parse path = .ok query ∧
      query.select document.view Document.root = [node])

theorem Context.failure_names {context : Context} (sound : context.working.Sound)
    {kind : QualifierType} {qualifier : NodeId} (current : context.qualifier? = some qualifier)
    (attached : context.working.isAttached qualifier = true)
    (type : context.working.stringMember? Key.type qualifier = some kind.tag) (cause : Cause) :
    (context.failure cause).Names context.working kind qualifier := by
  obtain ⟨path, location, reads⟩ := sound.keys.exists_location sound.wellFormed attached
  refine ⟨?_, type, path, ?_, reads⟩
  · rw [failure, current]
    rfl
  · rw [failure, current]
    exact location

/-! ### Documents with the same tree below the root -/

namespace Document

variable {before after : Document} {tree : Tree}

theorem WellFormed.parent?_eq_of_holds (beforeWF : before.WellFormed) (afterWF : after.WellFormed)
    (held : before.Holds tree) (holds : after.Holds tree) (top : tree.number = root)
    {node : NodeId} (inside : node ∈ tree.numbers) : after.parent? node = before.parent? node := by
  obtain ⟨found, within, rfl⟩ := Tree.exists_of_mem_numbers inside
  rcases Tree.exists_parent within with rfl | ⟨parent, above, directly⟩
  · rw [top, beforeWF.rootless, afterWF.rootless]
  · rw [(held.of_mem_preorder above).linked directly, (holds.of_mem_preorder above).linked directly]

theorem WellFormed.ancestor?_eq_of_holds (beforeWF : before.WellFormed) (afterWF : after.WellFormed)
    (held : before.Holds tree) (holds : after.Holds tree) (top : tree.number = root)
    {node : NodeId} (inside : node ∈ tree.numbers) (levels : Nat) :
    after.ancestor? node levels = before.ancestor? node levels ∧
      ∀ above, before.ancestor? node levels = some above → above ∈ tree.numbers := by
  induction levels with
  | zero =>
      refine ⟨rfl, fun above found => ?_⟩
      cases found
      exact inside
  | succ levels ih =>
      obtain ⟨same, stays⟩ := ih
      rw [ancestor?_succ, ancestor?_succ, same]
      cases climbed : before.ancestor? node levels with
      | none => exact ⟨rfl, nofun⟩
      | some below =>
          have within := stays below climbed
          rw [Option.bind_some, Option.bind_some,
            beforeWF.parent?_eq_of_holds afterWF held holds top within]
          refine ⟨rfl, fun above link => ?_⟩
          rcases held.parent_mem within with atTop | ⟨parent, parentIn, parentLink⟩
          · exact absurd (atTop.trans top) (beforeWF.ne_root link)
          · rw [parentLink] at link
            cases link
            exact parentIn

theorem PositionsFit.of_holds (beforeWF : before.WellFormed) (afterWF : after.WellFormed)
    (held : before.Holds tree) (holds : after.Holds tree) (top : tree.number = root)
    {node : NodeId} (inside : node ∈ tree.numbers) (fits : after.PositionsFit node) :
    before.PositionsFit node := by
  intro levels element array found link
  have climbed := beforeWF.ancestor?_eq_of_holds afterWF held holds top inside levels
  have above := beforeWF.ancestor?_eq_of_holds afterWF held holds top inside (levels + 1)
  have elementIn := climbed.2 element found
  have arrayIn : array ∈ tree.numbers := by
    apply above.2 array
    rw [ancestor?_succ, found]
    exact link
  obtain ⟨list, within, rfl⟩ := Tree.exists_of_mem_numbers arrayIn
  have sameElements : after.elements list.number = before.elements list.number := by
    rw [elements, elements, (held.of_mem_preorder within).content,
      (holds.of_mem_preorder within).content]
  rw [← sameElements]
  refine fits levels element list.number (climbed.1.trans found) ?_
  rw [beforeWF.parent?_eq_of_holds afterWF held holds top elementIn, link]

end Document

/-- A failure that names a node of one document names it in every other document with the same tree
below the root. -/
theorem Failure.Names.of_holds {failure : Failure} {before after : Document} {kind : QualifierType}
    {node : NodeId} {tree : Tree} (names : failure.Names before kind node)
    (beforeWF : before.WellFormed) (afterWF : after.WellFormed) (held : before.Holds tree)
    (holds : after.Holds tree) (top : tree.number = Document.root) (inside : node ∈ tree.numbers) :
    failure.Names after kind node := by
  obtain ⟨value, type, path, location, reads⟩ := names
  obtain ⟨found, within, rfl⟩ := Tree.exists_of_mem_numbers inside
  have heldThere := held.of_mem_preorder within
  have holdsThere := holds.of_mem_preorder within
  refine ⟨?_, ?_, path, location, fun fits => ?_⟩
  · rw [value, beforeWF.nodeToJson_eq heldThere, afterWF.nodeToJson_eq holdsThere]
  · rw [holdsThere.stringMember?, ← heldThere.stringMember?, type]
  · obtain ⟨query, parsed, selected⟩ := reads (fits.of_holds beforeWF afterWF held holds top inside)
    refine ⟨query, parsed, ?_⟩
    have old := (beforeWF.number_carries.select_root held query.segments).1
    have new := (afterWF.number_carries.select_root holds query.segments).1
    rw [top] at old new
    rw [← selected, Query.select, Query.select, old, new]

theorem Document.WellFormed.attached_of_listed {document : Document}
    (wellFormed : document.WellFormed) {kind : QualifierType} {qualifier : NodeId}
    (listed : qualifier ∈ document.qualifiers root kind) :
    document.isAttached qualifier = true ∧
      document.stringMember? Key.type qualifier = some kind.tag := by
  obtain ⟨tree, top, holds⟩ := wellFormed.grounded wellFormed.rooted
  rw [← top, wellFormed.qualifiers_eq holds] at listed
  obtain ⟨found, inside, rfl⟩ := List.mem_map.mp listed
  obtain ⟨_, _, _, _, _, tagged⟩ := Tree.mem_qualifiersBelow_iff.mp inside
  have within := Tree.mem_preorder_of_qualifier inside
  rw [wellFormed.isAttached_iff holds top, (holds.of_mem_preorder within).stringMember?]
  exact ⟨Tree.mem_numbers_of_mem_preorder within, Tree.hasTag_iff.mp tagged⟩

/-! ### Failing rounds -/

namespace Expansion

/-- Every failure of a round is one of the state in which the round begins. -/
theorem expandQualifier_eq_error {context : Context} {qualifier : NodeId} {failure : Failure}
    (failed : expandQualifier context qualifier = .error failure) :
    ∃ cause, failure = context.failure cause := by
  have edits : ∀ {α : Type} {result : Except EditError α},
      context.edited result = .error failure → ∃ cause, failure = context.failure cause :=
    fun failed => (Context.edited_eq_error.mp failed).elim fun _ same => ⟨_, same.2⟩
  rcases bind_eq_error.mp failed with failed | ⟨owner, _, failed⟩
  · exact ⟨_, (Context.require_eq_error.mp failed).2⟩
  rcases bind_eq_error.mp failed with failed | ⟨kind, _, failed⟩
  · exact ⟨_, (Context.require_eq_error.mp failed).2⟩
  by_cases different : (kind != ModelType.collection) = true
  · simp only [different, if_true] at failed
    cases failed
    exact ⟨_, rfl⟩
  simp only [different] at failed
  rcases bind_eq_error.mp failed with failed | ⟨container, _, failed⟩
  · exact ⟨_, (Context.require_eq_error.mp failed).2⟩
  rcases bind_eq_error.mp failed with failed | ⟨path, _, failed⟩
  · exact ⟨_, (Context.require_eq_error.mp failed).2⟩
  rcases bind_eq_error.mp failed with failed | ⟨entries, _, failed⟩
  · obtain ⟨_, _, same⟩ := Context.selected_eq_error.mp failed
    exact ⟨_, same⟩
  rcases bind_eq_error.mp failed with failed | ⟨copied, _, failed⟩
  · exact edits failed
  rcases bind_eq_error.mp failed with failed | ⟨marked, _, failed⟩
  · exact edits failed
  · cases failed

/-- What the working document can be when a round fails: what it was when the round began, or that
with a prepared copy of the owner which is not linked. -/
inductive Midway (before : Document) (qualifier : NodeId) : Document → Prop
  | begun : Midway before qualifier before
  | prepared {owner : NodeId} {path : String} {binding : Binding} {position : Nat}
      {prepared : Document} (owned : before.qualifierOwner? qualifier = some owner)
      (done : prepareCopy (before.deepClone owner).1 (before.deepClone owner).2 path binding
        position = .ok prepared) : Midway before qualifier prepared

theorem Midway.keeps {before document : Document} {qualifier : NodeId}
    (midway : Midway before qualifier document) (wellFormed : before.WellFormed) :
    document.WellFormed ∧ ∀ tree : Tree, before.Holds tree → document.Holds tree := by
  cases midway with
  | begun => exact ⟨wellFormed, fun _ holds => holds⟩
  | @prepared owner path binding position _ owned done =>
      obtain ⟨tree, rfl, holds⟩ := wellFormed.grounded (wellFormed.lt_size_of_ancestor? owned)
      obtain ⟨prepared, copy, number, again, _, preparedWF, _, _, _, _, _, stays⟩ :=
        prepareClone_ok wellFormed holds path binding position
      rw [number, again] at done
      cases done
      exact ⟨preparedWF, stays⟩

/-- The round in which the expansion of collections fails. -/
structure FailsAt (context state : Context) (qualifier : NodeId) (failure : Failure) : Prop where
  rounds : Rounds context state
  next : nextQualifier? state.working = some qualifier
  failed : expandQualifier { state with qualifier? := some qualifier } qualifier = .error failure

/-- A failing expansion names the qualifier that it cannot expand. -/
theorem exists_failsAt {context : Context} (sound : context.working.Sound) {failure : Failure}
    (failed : context.expandCollections = .error failure) :
    ∃ state qualifier, FailsAt context state qualifier failure ∧
      (∃ cause, failure = Context.failure { state with qualifier? := some qualifier } cause) ∧
      ∀ document, Midway state.working qualifier document →
        failure.Names document .collectionMappingInfo qualifier := by
  obtain ⟨last, rounds, ⟨ran, _⟩ | ⟨other, ran, stuck⟩⟩ := exists_last sound.wellFormed
  · rw [Context.expandCollections, ran] at failed
    cases failed
  · rw [Context.expandCollections, ran] at failed
    cases failed
    obtain ⟨qualifier, next, stuck⟩ := round_eq_error.mp stuck
    have lastSound := rounds.sound sound
    obtain ⟨cause, rfl⟩ := expandQualifier_eq_error stuck
    obtain ⟨attached, type⟩ := lastSound.wellFormed.attached_of_listed (mem_of_leastBy next)
    have names := @Context.failure_names { last with qualifier? := some qualifier } lastSound
      .collectionMappingInfo qualifier rfl attached type cause
    refine ⟨last, qualifier, ⟨rounds, next, stuck⟩, ⟨cause, rfl⟩, fun document midway => ?_⟩
    obtain ⟨wellFormed, stays⟩ := midway.keeps lastSound.wellFormed
    obtain ⟨tree, top, holds⟩ := lastSound.wellFormed.grounded lastSound.wellFormed.rooted
    have inside := (lastSound.wellFormed.isAttached_iff holds top qualifier).mp attached
    exact names.of_holds lastSound.wellFormed wellFormed holds (stays tree holds) top inside

end Expansion

/-! ### Failing turns -/

namespace Scalars

variable {context : Context} {qualifier owner place : NodeId} {failure : Failure}

/-- What the working document can be when processing a qualifier fails: what it was at the
qualifier's turn, or that with an empty value for the owner. -/
inductive Midway (before : Document) (qualifier : NodeId) : Document → Prop
  | begun : Midway before qualifier before
  | ensured {owner place : NodeId} {ensured : Document}
      (owned : before.qualifierOwner? qualifier = some owner)
      (missing : before.member? Key.value owner = none)
      (written : before.setMember owner Key.value (.text "") = .ok (ensured, place)) :
      Midway before qualifier ensured

/-- Every failure in processing a qualifier is one of the state that has come about by then. -/
theorem fill_eq_error (failed : fill context qualifier = .error failure) :
    ∃ document cause, Midway context.working qualifier document ∧
      failure = ({ context with working := document } : Context).failure cause := by
  rcases bind_eq_error.mp failed with failed | ⟨owner, owned, failed⟩
  · exact ⟨_, _, .begun, (Context.require_eq_error.mp failed).2⟩
  rcases bind_eq_error.mp failed with failed | ⟨kind, _, failed⟩
  · exact ⟨_, _, .begun, (Context.require_eq_error.mp failed).2⟩
  rw [Context.require_eq_ok] at owned
  rcases bind_eq_error.mp failed with failed | ⟨ensured, ensures, failed⟩
  · rw [withValueMember] at failed
    split at failed
    · rcases bind_eq_error.mp failed with failed | ⟨_, _, impossible⟩
      · obtain ⟨_, _, same⟩ := Context.edited_eq_error.mp failed
        exact ⟨_, _, .begun, same⟩
      · cases impossible
    · cases failed
  have midway : ∃ document, Midway context.working qualifier document ∧
      ensured = { context with working := document } := by
    rcases withValueMember_ok ensures with rfl | ⟨missing, document, place, written, rfl⟩
    · exact ⟨_, .begun, rfl⟩
    · exact ⟨document, .ensured owned missing written, rfl⟩
  obtain ⟨document, midway, rfl⟩ := midway
  refine ⟨document, ?_⟩
  suffices raised : ∃ cause, failure = Context.failure { context with working := document } cause by
    obtain ⟨cause, same⟩ := raised
    exact ⟨cause, midway, same⟩
  rcases bind_eq_error.mp failed with failed | ⟨_, _, failed⟩
  · exact ⟨_, (Context.require_eq_error.mp failed).2⟩
  rcases bind_eq_error.mp failed with failed | ⟨path, _, failed⟩
  · exact ⟨_, (Context.require_eq_error.mp failed).2⟩
  rcases bind_eq_error.mp failed with failed | ⟨found?, _, failed⟩
  · obtain ⟨_, _, same⟩ := Context.selected_eq_error.mp failed
    exact ⟨_, same⟩
  cases found? with
  | none =>
      change (if _ then _ else _) = _ at failed
      split at failed
      · cases failed
        exact ⟨_, rfl⟩
      · cases failed
  | some node =>
      rcases bind_eq_error.mp failed with failed | ⟨_, _, impossible⟩
      · obtain ⟨_, _, same⟩ := Context.edited_eq_error.mp failed
        exact ⟨_, same⟩
      · cases impossible

theorem Midway.keeps {before document : Document} (midway : Midway before qualifier document)
    (sound : before.Sound) (attached : before.isAttached qualifier = true) :
    document.Sound ∧ document.isAttached qualifier = true ∧
      document.stringMember? Key.type qualifier = before.stringMember? Key.type qualifier := by
  cases midway with
  | begun => exact ⟨sound, attached, rfl⟩
  | @ensured owner place _ owned missing written =>
      have wellFormed := sound.wellFormed
      have after := sound.setMember (Json.keysDistinct_text "") written
      have write := wellFormed.memberWrite written
      have fresh : place = before.size := by
        rcases write.place with ⟨found, _⟩ | ⟨_, same⟩
        · rw [missing] at found
          cases found
        · exact same
      have old : ∀ {node parent : NodeId}, before.parent? node = some parent →
          node < before.size ∧ node ≠ place := by
        intro node parent link
        have present := Document.lt_size_of_parent? link
        exact ⟨present, fun same => Nat.ne_of_lt present (same.trans fresh)⟩
      obtain ⟨container, link, _⟩ := Option.bind_eq_some_iff.mp owned
      refine ⟨after, ?_, ?_⟩
      · obtain ⟨levels, found⟩ := (wellFormed.isAttached_iff_ancestor? qualifier).mp attached
        refine (after.wellFormed.isAttached_iff_ancestor? qualifier).mpr ⟨levels, ?_⟩
        refine write.ancestor? (fun levels above => ?_) levels _ found
        exact absurd (wellFormed.lt_size_of_ancestor? above) (by rw [fresh]; exact Nat.lt_irrefl _)
      · obtain ⟨present, notPlace⟩ := old link
        have notOwner : qualifier ≠ owner := fun same =>
          wellFormed.ancestor?_ne_self qualifier 1 (same ▸ owned)
        refine Document.Progress.stringMember?_eq ?_ fun member found => ?_
        · rw [Document.member?, write.contents qualifier present notOwner notPlace,
            ← Document.member?]
        · have memberLink := wellFormed.parent?_of_member? found
          obtain ⟨memberPresent, memberNotPlace⟩ := old memberLink
          have above : before.ancestor? member 3 = some owner := by
            rw [Document.ancestor?, memberLink]
            exact owned
          refine write.contents member memberPresent (fun same => ?_) memberNotPlace
          exact wellFormed.ancestor?_ne_self member 2 (same ▸ above)

/-! ### Turns -/

def TurnIn (qualifiers : List NodeId) (context : Context) (qualifier : NodeId) (state : Context) :
    Prop :=
  ∃ before after, qualifiers = before ++ qualifier :: after ∧ fillEach before context = .ok state

theorem turnIn_cons {first : NodeId} {rest : List NodeId} {state : Context} :
    TurnIn (first :: rest) context qualifier state ↔ (qualifier = first ∧ state = context) ∨
      ∃ next, Passes context first next ∧ TurnIn rest next qualifier state := by
  constructor
  · rintro ⟨before, after, split, reached⟩
    cases before with
    | nil =>
        cases split
        cases reached
        exact Or.inl ⟨rfl, rfl⟩
    | cons other before =>
        cases split
        obtain ⟨next, passes, remaining⟩ := (fillEach_cons ..).mp reached
        exact Or.inr ⟨next, passes, before, after, rfl, remaining⟩
  · rintro (⟨rfl, rfl⟩ | ⟨next, passes, before, after, rfl, reached⟩)
    · exact ⟨[], rest, rfl, rfl⟩
    · exact ⟨first :: before, after, rfl, (fillEach_cons ..).mpr ⟨next, passes, reached⟩⟩

theorem passes_of_attached {next : Context}
    (attached : context.working.isAttached qualifier = true) :
    Passes context qualifier next ↔
      fill { context with qualifier? := some qualifier } qualifier = .ok next := by
  simp [Passes, attached]

theorem passes_of_detached {next : Context}
    (detached : context.working.isAttached qualifier = false) :
    Passes context qualifier next ↔ next = context := by
  simp [Passes, detached]

structure FailsAt (context state : Context) (qualifier : NodeId) (failure : Failure) : Prop where
  turn : Turn context qualifier state
  attached : state.working.isAttached qualifier = true
  failed : fill { state with qualifier? := some qualifier } qualifier = .error failure

theorem fillEach_eq_error {qualifiers : List NodeId}
    (failed : fillEach qualifiers context = .error failure) :
    ∃ qualifier state, TurnIn qualifiers context qualifier state ∧
      state.working.isAttached qualifier = true ∧
      fill { state with qualifier? := some qualifier } qualifier = .error failure := by
  induction qualifiers generalizing context with
  | nil => cases failed
  | cons first rest ih =>
      have further : ∀ {next}, Passes context first next → fillEach rest next = .error failure →
          ∃ qualifier state, TurnIn (first :: rest) context qualifier state ∧
            state.working.isAttached qualifier = true ∧
            fill { state with qualifier? := some qualifier } qualifier = .error failure := by
        intro next passes failed
        obtain ⟨qualifier, state, turn, here⟩ := ih failed
        exact ⟨qualifier, state, turnIn_cons.mpr (Or.inr ⟨next, passes, turn⟩), here⟩
      rw [fillEach] at failed
      split at failed
      · rename_i attached
        rcases bind_eq_error.mp failed with failed | ⟨next, filled, failed⟩
        · exact ⟨first, context, turnIn_cons.mpr (Or.inl ⟨rfl, rfl⟩), attached, failed⟩
        · exact further ((passes_of_attached attached).mpr filled) failed
      · rename_i detached
        exact further ((passes_of_detached (Bool.eq_false_iff.mpr detached)).mpr rfl) failed

/-- A failing run over the mappings names the one whose turn it is. -/
theorem exists_failsAt (sound : context.Sound) (failed : context.mapScalars = .error failure) :
    ∃ state qualifier document, FailsAt context state qualifier failure ∧
      Midway state.working qualifier document ∧
      (∃ cause, failure = Context.failure
        { state with working := document, qualifier? := some qualifier } cause) ∧
      failure.Names document .mappingInfo qualifier := by
  obtain ⟨qualifier, state, ⟨before, after, split, reached⟩, attached, stuck⟩ :=
    fillEach_eq_error failed
  obtain ⟨document, cause, midway, same⟩ := fill_eq_error stuck
  have wellFormed := sound.working.wellFormed
  have listed : qualifier ∈ context.working.qualifiers Document.root .mappingInfo :=
    split ▸ List.mem_append_cons_self
  obtain ⟨owner, container, _, _, upper, lower⟩ := exists_container wellFormed listed
  have along := along_turn wellFormed split reached
  have ahead := (precedes_of_split wellFormed split).1
  have type := (along.progress.reads wellFormed ahead upper lower attached).2.1 Key.type
  rw [(wellFormed.attached_of_listed listed).2] at type
  obtain ⟨documentSound, stays, said⟩ := midway.keeps (sound.fillEach reached).working attached
  refine ⟨state, qualifier, document, ⟨⟨before, after, split, reached⟩, attached, stuck⟩, midway,
    ⟨cause, same⟩, ?_⟩
  rw [same]
  exact Context.failure_names documentSound rfl stays (said.trans type) cause

end Scalars

/-! ### The last qualifier -/

namespace Scalars

def processed : List NodeId → Context → List NodeId
  | [], _ => []
  | qualifier :: rest, context =>
      if context.working.isAttached qualifier then
        match fill { context with qualifier? := some qualifier } qualifier with
        | .ok after => qualifier :: processed rest after
        | .error _ => [qualifier]
      else processed rest context

theorem mem_processed_iff {qualifiers : List NodeId} {context : Context} {qualifier : NodeId} :
    qualifier ∈ processed qualifiers context ↔
      ∃ state, TurnIn qualifiers context qualifier state ∧
        state.working.isAttached qualifier = true := by
  induction qualifiers generalizing context with
  | nil => simp [processed, TurnIn]
  | cons first rest ih =>
      rw [processed]
      simp only [turnIn_cons]
      cases attached : context.working.isAttached first with
      | false =>
          simp only [passes_of_detached attached, exists_eq_left]
          grind
      | true =>
          simp only [passes_of_attached attached]
          cases filled : fill { context with qualifier? := some first } first with
          | error failure => grind
          | ok next => grind

theorem fillEach_qualifier? {qualifiers : List NodeId} {context done : Context}
    (ran : fillEach qualifiers context = .ok done) :
    done.qualifier? = (processed qualifiers context).getLast?.or context.qualifier? := by
  induction qualifiers generalizing context with
  | nil =>
      cases ran
      rfl
  | cons qualifier rest ih =>
      obtain ⟨next, ⟨attached, filled⟩ | ⟨detached, rfl⟩, remaining⟩ := (fillEach_cons ..).mp ran
      · obtain ⟨_, _, _, _, _, _, _, same, _⟩ := fill_ok filled
        have current : next.qualifier? = some qualifier := same.qualifier?
        rw [ih remaining, current, processed, if_pos attached, filled]
        dsimp only
        rw [List.getLast?_cons]
        cases (processed rest next).getLast? <;> rfl
      · rw [ih remaining, processed, if_neg (by rw [detached]; exact Bool.false_ne_true)]

end Scalars

def Context.processedQualifiers (context : Context) : List NodeId :=
  Scalars.processed (context.working.qualifiers Document.root .mappingInfo) context

theorem Context.mem_processedQualifiers_iff {context : Context} {qualifier : NodeId} :
    qualifier ∈ context.processedQualifiers ↔ Scalars.Processed context qualifier :=
  Scalars.mem_processed_iff

namespace Context

variable {context after : Context} {failure : Failure}

theorem expandCollections_qualifier? (done : context.expandCollections = .ok after) :
    after.qualifier? = none := by
  obtain ⟨_, _, done⟩ := bind_eq_ok.mp done
  cases done
  rfl

theorem stripQualifiers_ok (context : Context) :
    ∃ after, context.stripQualifiers = .ok after ∧ after.qualifier? = context.qualifier? := by
  rw [stripQualifiers]
  cases found : context.working.member? Key.qualifiers Document.root with
  | none => exact ⟨context, rfl, rfl⟩
  | some member =>
      dsimp only
      rw [setRootMember, Document.setMember_of_some _ found]
      exact ⟨_, rfl, rfl⟩

theorem setRootMember_eq_error {key : String} {value : Json}
    (failed : context.setRootMember key value = .error failure) :
    ∃ cause, failure = context.failure cause := by
  rcases bind_eq_error.mp failed with failed | ⟨_, _, impossible⟩
  · obtain ⟨_, _, same⟩ := edited_eq_error.mp failed
    exact ⟨_, same⟩
  · cases impossible

end Context

/-! ### Failing pipelines -/

namespace Pipeline

variable {template data : Json} {language newId moment : String} {pipeline : Pipeline} {pass : Pass}
  {state : Context} {failure : Failure}

/-- Whatever passes run before, a failing expansion or a failing mapping of scalars names the
qualifier that it cannot process, in the working document as it is then. -/
theorem failure_names_qualifier (templateDistinct : template.KeysDistinct)
    (dataDistinct : data.KeysDistinct)
    (starts : pipeline.Starts (Context.start template data language newId moment) pass state)
    (failed : pass.run state = .error failure) :
    (pass = .expandCollections → ∃ last qualifier,
      Expansion.FailsAt state last qualifier failure ∧
      (∃ cause, failure = Context.failure { last with qualifier? := some qualifier } cause) ∧
      ∀ document, Expansion.Midway last.working qualifier document →
        failure.Names document .collectionMappingInfo qualifier) ∧
    (pass = .mapScalars → ∃ last qualifier document,
      Scalars.FailsAt state last qualifier failure ∧
      Scalars.Midway last.working qualifier document ∧
      (∃ cause, failure = Context.failure
        { last with working := document, qualifier? := some qualifier } cause) ∧
      failure.Names document .mappingInfo qualifier) := by
  have sound :=
    starts.sound (Context.sound_start templateDistinct dataDistinct language newId moment)
  constructor
  · rintro rfl
    exact Expansion.exists_failsAt sound.working failed
  · rintro rfl
    exact Scalars.exists_failsAt sound failed

/-- The qualifier and the location that a failing step names. -/
def names {α : Type} : Except Failure α → Option Json × Option String
  | .error failure => (failure.qualifier?, failure.location?)
  | .ok _ => (none, none)

theorem exists_error_of_names {α : Type} {result : Except Failure α} {qualifier : Json}
    {location : String} (stuck : names result = (some qualifier, some location)) :
    ∃ failure, result = .error failure ∧ failure.qualifier? = some qualifier ∧
      failure.location? = some location := by
  cases result with
  | ok value => cases stuck
  | error failure =>
      obtain ⟨named, placed⟩ := Prod.mk.inj stuck
      exact ⟨failure, rfl, named, placed⟩

/-- A property cannot be repeated, so its collection qualifier fails. The path of its mapping breaks
off, so that fails as well if nothing is expanded. -/
theorem failure_names_qualifier_property :
    let collection : Json := .object
      [(Key.type, .text "SMT/CollectionMappingInfo"), (Key.value, .text "$.a[*]")]
    let mapping : Json := .object [(Key.type, .text "SMT/MappingInfo"), (Key.value, .text "$.a[")]
    let template : Json := .object [("submodelElements", .array [.object
      [(Key.modelType, .text "Property"), (Key.qualifiers, .array [collection, mapping]),
        (Key.value, .text "")]])]
    let data : Json := .object []
    let start := Context.start template data "en" "id" "now"
    template.KeysDistinct ∧ data.KeysDistinct ∧
      (∃ state failure,
        Starts [.cloneTemplate, .expandCollections] start .expandCollections state ∧
        Pass.run .expandCollections state = .error failure ∧
        failure.qualifier? = some collection ∧
        failure.location? = some "$.submodelElements[0].qualifiers[0]" ∧ ∃ last qualifier,
          Expansion.FailsAt state last qualifier failure ∧
          (∃ cause, failure = Context.failure { last with qualifier? := some qualifier } cause) ∧
          ∀ document, Expansion.Midway last.working qualifier document →
            failure.Names document .collectionMappingInfo qualifier) ∧
      ∃ state failure,
        Starts [.cloneTemplate, .mapScalars] start .mapScalars state ∧
        Pass.run .mapScalars state = .error failure ∧
        failure.qualifier? = some mapping ∧
        failure.location? = some "$.submodelElements[0].qualifiers[1]" ∧
        ∃ last qualifier document,
          Scalars.FailsAt state last qualifier failure ∧
          Scalars.Midway last.working qualifier document ∧
          (∃ cause, failure = Context.failure
            { last with working := document, qualifier? := some qualifier } cause) ∧
          failure.Names document .mappingInfo qualifier := by
  intro collection mapping template data start
  have templateDistinct : template.KeysDistinct := by
    have kept := (Document.ofJson_wellFormed template).keysDistinct_nodeToJson
      (by decide +kernel) (Document.ofJson_wellFormed template).rooted
    rwa [← Document.toJson, Document.toJson_ofJson] at kept
  have dataDistinct : data.KeysDistinct := .object List.nodup_nil nofun
  refine ⟨templateDistinct, dataDistinct, ?_, ?_⟩
  · obtain ⟨state, starts, stuck⟩ : ∃ state,
        Starts [.cloneTemplate, .expandCollections] start .expandCollections state ∧
          names (Expansion.round state) =
            (some collection, some "$.submodelElements[0].qualifiers[0]") :=
      ⟨_, .later rfl (.here _), by decide +kernel⟩
    obtain ⟨failure, ran, named, placed⟩ := exists_error_of_names stuck
    have failed : Pass.run .expandCollections state = .error failure := by
      rw [Pass.run, Context.expandCollections, (Expansion.Run.failed ran).expandAll_eq]
      rfl
    exact ⟨state, failure, starts, failed, named, placed,
      (failure_names_qualifier templateDistinct dataDistinct starts failed).1 rfl⟩
  · obtain ⟨state, starts, stuck⟩ : ∃ state,
        Starts [.cloneTemplate, .mapScalars] start .mapScalars state ∧
          names (Pass.run .mapScalars state) =
            (some mapping, some "$.submodelElements[0].qualifiers[1]") :=
      ⟨_, .later rfl (.here _), by decide +kernel⟩
    obtain ⟨failure, failed, named, placed⟩ := exists_error_of_names stuck
    exact ⟨state, failure, starts, failed, named, placed,
      (failure_names_qualifier templateDistinct dataDistinct starts failed).2 rfl⟩

theorem qualifier?_of_expanded {next : Context}
    (ran : Pass.expandCollections.runLogged state = .ok next) : next.qualifier? = none := by
  obtain ⟨after, done, rfl⟩ := runLogged_eq_ok.mp ran
  have taken : after.qualifier? = none := Context.expandCollections_qualifier? done
  exact taken

/-- Of the passes that process qualifiers only this one leaves the last of them as the current one.
-/
theorem qualifier?_of_mapped {next : Context} (none : state.qualifier? = none)
    (ran : Pass.mapScalars.runLogged state = .ok next) :
    next.qualifier? =
      (state.log ("Started " ++ Pass.mapScalars.name)).processedQualifiers.getLast? := by
  obtain ⟨after, done, rfl⟩ := runLogged_eq_ok.mp ran
  have last := Scalars.fillEach_qualifier? done
  change after.qualifier? = Option.or _ state.qualifier? at last
  rw [none, Option.or_none] at last
  exact last

/-- In the standard pipeline the passes that process no qualifier can fail in two ways. If the
template cannot be marked as an instance, the failure names no qualifier. If it has no identifier,
the failure names the last qualifier that the pass over the scalars has processed. -/
theorem standard_failure
    (starts : standard.Starts (Context.start template data language newId moment) pass state)
    (failed : pass.run state = .error failure) (notExpansion : pass ≠ .expandCollections)
    (notScalars : pass ≠ .mapScalars) :
    pass = .markAsInstance ∧ failure.qualifier? = none ∧ failure.location? = none ∨
      pass = .replaceIdentifier ∧ ∃ mapping,
        standard.Starts (Context.start template data language newId moment) .mapScalars mapping ∧
        failure.qualifier? = mapping.processedQualifiers.getLast?.map state.working.nodeToJson ∧
        failure.location? = mapping.processedQualifiers.getLast?.bind state.working.location? := by
  cases starts with
  | here => cases failed
  | later cloned starts =>
  cases starts with
  | here =>
      obtain ⟨_, done, rfl⟩ := runLogged_eq_ok.mp cloned
      cases done
      obtain ⟨cause, rfl⟩ := Context.setRootMember_eq_error failed
      exact Or.inl ⟨rfl, rfl, rfl⟩
  | later marked starts =>
  cases starts with
  | here => exact absurd rfl notExpansion
  | @later _ _ _ _ before _ expanded starts =>
  cases starts with
  | here => exact absurd rfl notScalars
  | @later _ _ _ _ behind _ mapped starts =>
  have mapping :
      standard.Starts (Context.start template data language newId moment) .mapScalars _ :=
    .later cloned (.later marked (.later expanded (.here before)))
  have current := qualifier?_of_mapped (qualifier?_of_expanded expanded) mapped
  generalize before.log ("Started " ++ Pass.mapScalars.name) = start at mapping current
  obtain ⟨stripped, done, kept⟩ :=
    (behind.log ("Started " ++ Pass.stripQualifiers.name)).stripQualifiers_ok
  cases starts with
  | here =>
      rw [Pass.run, done] at failed
      cases failed
  | later ran starts =>
  cases starts with
  | here =>
      obtain ⟨after, again, rfl⟩ := runLogged_eq_ok.mp ran
      rw [Pass.run, done] at again
      cases again
      have last : stripped.qualifier? = start.processedQualifiers.getLast? := kept.trans current
      refine Or.inr ⟨rfl, start, mapping, ?_⟩
      rw [← last]
      rw [Pass.run, Context.replaceIdentifier] at failed
      split at failed
      · cases failed
      · cases failed
        exact ⟨rfl, rfl⟩
  | later _ starts => cases starts

private def nameMapping : Json :=
  .object [(Key.type, .text "SMT/MappingInfo"), (Key.value, .text "$.name")]

/-- A template without an identifier, with a property whose path selects nothing. -/
private def unnamed : Json := .object [("submodelElements", .array [.object
  [("idShort", .text "P"), (Key.modelType, .text "Property"),
    (Key.qualifiers, .array [nameMapping]), (Key.value, .text ""),
    ("valueType", .text "xs:string")]])]

private theorem unnamed_starts : ∃ state,
    standard.Starts (Context.start unnamed (.object []) "" "" "now") .replaceIdentifier state ∧
      state.working.member? Key.id Document.root = none ∧
      state.qualifier?.map state.working.nodeToJson = some nameMapping ∧
      state.qualifier?.bind state.working.location? =
        some "$.submodelElements[0].qualifiers[0]" := by
  obtain ⟨cloned, ranCloned, facts⟩ : ∃ cloned,
      Pass.cloneTemplate.runLogged (Context.start unnamed (.object []) "" "" "now") = .ok cloned ∧
        ((Pass.markAsInstance.runLogged cloned).toOption.bind fun marked =>
          let begun := marked.log ("Started " ++ Pass.expandCollections.name)
          let expanded : Context :=
            { begun with
              qualifier? := none
              working := Expansion.restoreTags begun.working }
          let finished := expanded.log ("Finished " ++ Pass.expandCollections.name)
          (Pass.mapScalars.runLogged finished).toOption.bind fun mapped =>
            (Pass.stripQualifiers.runLogged mapped).toOption.bind fun stripped =>
              some ((marked.working.qualifiers Document.root .collectionMappingInfo).isEmpty,
                stripped.working.member? Key.id Document.root,
                stripped.qualifier?.map stripped.working.nodeToJson,
                stripped.qualifier?.bind stripped.working.location?)) =
          some (true, none, some nameMapping, some "$.submodelElements[0].qualifiers[0]") :=
    ⟨_, rfl, by decide +kernel⟩
  obtain ⟨marked, ranMarked, facts⟩ := exists_of_toOption facts
  obtain ⟨mapped, ranMapped, facts⟩ := exists_of_toOption facts
  obtain ⟨stripped, ranStripped, facts⟩ := exists_of_toOption facts
  simp only [Option.some.injEq, Prod.mk.injEq, List.isEmpty_iff] at facts
  obtain ⟨none, missing, named, located⟩ := facts
  have ranExpanded : Pass.expandCollections.runLogged marked = .ok _ :=
    runLogged_eq_ok.mpr ⟨_, Expansion.expandCollections_of_none none, rfl⟩
  exact ⟨_, .later ranCloned (.later ranMarked (.later ranExpanded (.later ranMapped
    (.later ranStripped (.here stripped))))), missing, named, located⟩

private theorem run_replaceIdentifier {context : Context}
    (missing : context.working.member? Key.id Document.root = none) :
    Pass.replaceIdentifier.run context = .error (context.failure .missingIdentifier) := by
  rw [Pass.run, Context.replaceIdentifier, missing]

/-- Its failure names the mapping of the property. -/
theorem standard_failure_names_mapping : ∃ state failure,
    standard.Starts (Context.start unnamed (.object []) "" "" "now") .replaceIdentifier state ∧
      Pass.replaceIdentifier.run state = .error failure ∧
      failure.qualifier? = some nameMapping ∧
      failure.location? = some "$.submodelElements[0].qualifiers[0]" := by
  obtain ⟨state, starts, missing, named, located⟩ := unnamed_starts
  exact ⟨state, _, starts, run_replaceIdentifier missing, named, located⟩

theorem standard_failure_unnamed :
    Pass.replaceIdentifier ≠ .expandCollections ∧ Pass.replaceIdentifier ≠ .mapScalars ∧
      ∃ state failure mapping qualifier,
        standard.Starts (Context.start unnamed (.object []) "" "" "now") .replaceIdentifier state ∧
        Pass.replaceIdentifier.run state = .error failure ∧
        standard.Starts (Context.start unnamed (.object []) "" "" "now") .mapScalars mapping ∧
        mapping.processedQualifiers.getLast? = some qualifier ∧
        state.working.nodeToJson qualifier = nameMapping ∧
        state.working.location? qualifier = some "$.submodelElements[0].qualifiers[0]" ∧
        failure.qualifier? = some nameMapping ∧
        failure.location? = some "$.submodelElements[0].qualifiers[0]" := by
  obtain ⟨state, starts, missing, named, located⟩ := unnamed_starts
  have failed := run_replaceIdentifier missing
  rcases standard_failure starts failed (by decide) (by decide) with ⟨impossible, _⟩ |
    ⟨_, mapping, startsMapping, ofLast, placeOfLast⟩
  · cases impossible
  · have stated : (state.failure .missingIdentifier).qualifier? = some nameMapping := named
    have placed : (state.failure .missingIdentifier).location? = _ := located
    rw [stated] at ofLast
    rw [placed] at placeOfLast
    obtain ⟨qualifier, last, json⟩ := Option.map_eq_some_iff.mp ofLast.symm
    rw [last] at placeOfLast
    exact ⟨by decide, by decide, state, _, mapping, qualifier, starts, failed, startsMapping, last,
      json, placeOfLast.symm, stated, placed⟩

end Pipeline

end TemplateFill
