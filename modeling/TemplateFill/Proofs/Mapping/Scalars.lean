import TemplateFill.Mapping.Scalars
import TemplateFill.Proofs.Mapping.Results
import TemplateFill.Proofs.Mapping.ValueWrites

/-!
The pass that writes values of the data into elements.

The qualifiers are listed before the first write and processed in that order. At the end every owner
whose qualifiers selected something has the value that the last of them selected, and no owner of a
processed qualifier has been cut off.
-/

namespace TemplateFill

namespace Scalars

variable {context after done : Context} {qualifier owner : NodeId}

/-! ### One qualifier -/

theorem withValueMember_ok {kind : ModelType}
    (done : withValueMember context owner kind = .ok after) :
    after = context ∨ context.working.member? Key.value owner = none ∧
      ∃ document place, context.working.setMember owner Key.value (.text "") =
        .ok (document, place) ∧ after = { context with working := document } := by
  rw [withValueMember] at done
  split at done
  · rename_i missing
    obtain ⟨⟨document, place⟩, written, rest⟩ := bind_eq_ok.mp done
    rw [Context.edited_eq_ok] at written
    cases rest
    exact Or.inr ⟨Option.isNone_iff_eq_none.mp missing.2, document, place, written, rfl⟩
  · cases done
    exact Or.inl rfl

theorem fill_ok (ran : fill context qualifier = .ok after) :
    ∃ owner kind path ensured, context.working.qualifierOwner? qualifier = some owner ∧
      context.working.modelType? owner = some kind ∧
      context.working.qualifierValue? qualifier = some path ∧
      context.SameRun after ∧
      (ensured = context.working ∨ context.working.member? Key.value owner = none ∧
        ∃ place, context.working.setMember owner Key.value (.text "") = .ok (ensured, place)) ∧
      (Query.selectOneIn context.data path = .ok none ∧ after.working = ensured ∨
        ∃ node place, Query.selectOneIn context.data path = .ok (some node) ∧
          ensured.setMember owner Key.value (valueFor kind context.language node) =
            .ok (after.working, place)) := by
  obtain ⟨owner, owned, ran⟩ := bind_eq_ok.mp ran
  obtain ⟨kind, isKind, ran⟩ := bind_eq_ok.mp ran
  obtain ⟨ensured, ensures, ran⟩ := bind_eq_ok.mp ran
  obtain ⟨place, present, ran⟩ := bind_eq_ok.mp ran
  obtain ⟨path, hasPath, ran⟩ := bind_eq_ok.mp ran
  obtain ⟨found?, selects, ran⟩ := bind_eq_ok.mp ran
  rw [Context.require_eq_ok] at owned isKind present hasPath
  rw [Context.selected_eq_ok] at selects
  have kept : context.SameRun ensured ∧
      (ensured.working = context.working ∨ context.working.member? Key.value owner = none ∧
        ∃ place, context.working.setMember owner Key.value (.text "") =
          .ok (ensured.working, place)) := by
    rcases withValueMember_ok ensures with rfl | ⟨missing, document, place, written, rfl⟩
    · exact ⟨ensured.sameRun_written _ _, Or.inl rfl⟩
    · exact ⟨context.sameRun_written _ _, Or.inr ⟨missing, place, written⟩⟩
  obtain ⟨same, written⟩ := kept
  rw [same.data] at selects
  refine ⟨owner, kind, path, ensured.working, owned, isKind, hasPath, ?_⟩
  cases found? with
  | none =>
      change (if _ then _ else _) = _ at ran
      split at ran
      · cases ran
      · cases ran
        exact ⟨same, written, Or.inl ⟨selects, rfl⟩⟩
  | some node =>
      obtain ⟨⟨document, place⟩, set, rest⟩ := bind_eq_ok.mp ran
      rw [Context.edited_eq_ok, same.language] at set
      cases rest
      exact ⟨same.trans (ensured.sameRun_written _ _), written, Or.inr ⟨node, place, selects, set⟩⟩

inductive ValueWrites (owner : NodeId) (first : Document) : Document → Prop
  | none : ValueWrites owner first first
  | write {second third : Document} {place : NodeId} {value : Json}
      (earlier : ValueWrites owner first second)
      (last : Document.MemberWrite second third owner Key.value place value) :
      ValueWrites owner first third

section Writes

variable {start now next : Document} {passed : List NodeId} {container : NodeId}

/-- Writes for the qualifier whose turn it is keep the invariant, and the qualifier's container in
its place. -/
theorem ValueWrites.progress (writes : ValueWrites owner now next)
    (progress : Document.Progress start now passed) (inside : qualifier ∈ passed)
    (owned : start.qualifierOwner? qualifier = some owner) (present : owner < start.size)
    (containerOld : container < start.size) (link : now.parent? container = some owner) :
    Document.Progress start next passed ∧ next.parent? container = some owner := by
  induction writes with
  | none => exact ⟨progress, link⟩
  | write earlier last ih =>
      obtain ⟨before, kept⟩ := ih
      have different := last.object_ne before.wellFormed
        (Nat.lt_of_lt_of_le present before.grows)
      exact ⟨before.write last inside owned present ⟨container, containerOld, kept⟩,
        last.keepsLinks _ _ kept different⟩

/-- Writes for the qualifier whose turn it is neither cut off nodes that its owner does not lie above
nor change values of other owners that came before. -/
theorem ValueWrites.keeps (writes : ValueWrites owner now next)
    (progress : Document.Progress start now passed) (wellFormed : start.WellFormed)
    (inside : qualifier ∈ passed) (owned : start.qualifierOwner? qualifier = some owner)
    (present : owner < start.size) (containerOld : container < start.size)
    (link : now.parent? container = some owner) {other : NodeId} (old : other < start.size)
    (apart : ∀ levels, start.ancestor? other (levels + 1) ≠ some owner) :
    (now.isAttached other = true → next.isAttached other = true) ∧
      ∀ value, other ≠ owner → Document.Settled start now other value →
        Document.Settled start next other value := by
  induction writes with
  | none => exact ⟨id, fun _ _ settled => settled⟩
  | write earlier last ih =>
      obtain ⟨before, kept⟩ :=
        earlier.progress progress inside owned present containerOld link
      obtain ⟨attached, settled⟩ := ih
      constructor
      · exact fun first => before.isAttached_write wellFormed last old apart (attached first)
      · exact fun value different first => (settled value different first).write before
          last present ⟨container, containerOld, kept⟩ old different apart

end Writes

/-! ### Runs -/

/-- A qualifier's turn: it is processed if it is attached by then, and else passed over. -/
def Passes (state : Context) (qualifier : NodeId) (next : Context) : Prop :=
  state.working.isAttached qualifier = true ∧
      fill { state with qualifier? := some qualifier } qualifier = .ok next ∨
    state.working.isAttached qualifier = false ∧ next = state

theorem fillEach_cons (qualifier : NodeId) (rest : List NodeId) (context done : Context) :
    fillEach (qualifier :: rest) context = .ok done ↔
      ∃ next, Passes context qualifier next ∧ fillEach rest next = .ok done := by
  rw [fillEach]
  cases attached : context.working.isAttached qualifier with
  | true =>
      rw [if_pos rfl, bind_eq_ok]
      constructor
      · exact fun ⟨next, ran, rest⟩ => ⟨next, Or.inl ⟨attached, ran⟩, rest⟩
      · rintro ⟨next, ⟨_, ran⟩ | ⟨detached, _⟩, rest⟩
        · exact ⟨next, ran, rest⟩
        · rw [attached] at detached
          cases detached
  | false =>
      rw [if_neg Bool.false_ne_true]
      constructor
      · exact fun ran => ⟨context, Or.inr ⟨attached, rfl⟩, ran⟩
      · rintro ⟨next, ⟨present, _⟩ | ⟨_, rfl⟩, rest⟩
        · rw [attached] at present
          cases present
        · exact rest

theorem fillEach_append (before rest : List NodeId) (context done : Context) :
    fillEach (before ++ rest) context = .ok done ↔
      ∃ state, fillEach before context = .ok state ∧ fillEach rest state = .ok done := by
  induction before generalizing context with
  | nil =>
      constructor
      · exact fun ran => ⟨context, rfl, ran⟩
      · rintro ⟨_, ⟨⟩, ran⟩
        exact ran
  | cons qualifier before ih =>
      rw [List.cons_append, fillEach_cons]
      simp only [ih, fillEach_cons]
      constructor
      · exact fun ⟨next, passes, state, first, last⟩ => ⟨state, ⟨next, passes, first⟩, last⟩
      · exact fun ⟨state, ⟨next, passes, first⟩, last⟩ => ⟨next, passes, state, first, last⟩

/-- What the turns of a run keep holds in the end. -/
theorem fillEach_induction {origin : Context} {before rest : List NodeId} (motive : Context → Prop)
    (step : ∀ middle qualifier later, rest = middle ++ qualifier :: later → ∀ state next,
      fillEach (before ++ middle) origin = .ok state → Passes state qualifier next →
      motive state → motive next)
    {state done : Context} (reached : fillEach before origin = .ok state) (first : motive state)
    (ran : fillEach rest state = .ok done) : motive done := by
  induction rest generalizing before state with
  | nil =>
      cases ran
      exact first
  | cons qualifier rest ih =>
      obtain ⟨next, passes, remaining⟩ := (fillEach_cons ..).mp ran
      have further : fillEach (before ++ [qualifier]) origin = .ok next :=
        (fillEach_append ..).mpr ⟨state, reached, (fillEach_cons ..).mpr ⟨next, passes, rfl⟩⟩
      refine ih (fun middle other later split => ?_) further
        (step [] qualifier rest rfl state next (by rwa [List.append_nil]) passes first) remaining
      rw [List.append_assoc]
      exact step (qualifier :: middle) other later (by rw [split, List.cons_append])

/-! ### One turn of a run -/

section Turns

variable {origin state next : Context} {before rest : List NodeId} {container : NodeId}

structure Along (origin state : Context) (passed : List NodeId) : Prop where
  progress : Document.Progress origin.working state.working passed
  data : state.data = origin.data
  language : state.language = origin.language

theorem Along.fill (along : Along origin state before) (wellFormed : origin.working.WellFormed)
    (ahead : ∀ earlier ∈ before, origin.working.Precedes earlier qualifier)
    (upper : origin.working.parent? container = some owner)
    (lower : origin.working.parent? qualifier = some container)
    (attached : state.working.isAttached qualifier = true)
    (ran : fill { state with qualifier? := some qualifier } qualifier = .ok next) :
    Along origin next (before ++ [qualifier]) ∧
      ValueWrites owner state.working next.working ∧
      ∃ kind path, origin.working.modelType? owner = some kind ∧
        origin.working.qualifierValue? qualifier = some path ∧
        (Query.selectOneIn origin.data path = .ok none ∧
            ((state.working.member? Key.value owner).isSome → next.working = state.working) ∨
          ∃ node, Query.selectOneIn origin.data path = .ok (some node) ∧
            Document.Settled origin.working next.working owner
              (valueFor kind origin.language node)) := by
  have owned := Document.qualifierOwner?_of_parents lower upper
  obtain ⟨ownerRead, said, kindRead⟩ :=
    along.progress.reads wellFormed ahead upper lower attached
  obtain ⟨_, upperNow, _⟩ := along.progress.owner_of_attached wellFormed upper lower attached
  obtain ⟨other, kind, path, ensured, ownedNow, isKind, hasPath, same, first, second⟩ := fill_ok ran
  change state.working.qualifierOwner? qualifier = some other at ownedNow
  rw [ownerRead] at ownedNow
  cases ownedNow
  change state.working.modelType? owner = some kind at isKind
  change state.working.qualifierValue? qualifier = some path at hasPath
  have sameData : next.data = state.data := same.data
  have sameLanguage : next.language = state.language := same.language
  change ensured = state.working ∨ state.working.member? Key.value owner = none ∧
    ∃ place, state.working.setMember owner Key.value (.text "") = .ok (ensured, place) at first
  change Query.selectOneIn state.data path = .ok none ∧ next.working = ensured ∨
    ∃ node place, Query.selectOneIn state.data path = .ok (some node) ∧
      ensured.setMember owner Key.value (valueFor kind state.language node) =
        .ok (next.working, place) at second
  rw [kindRead] at isKind
  rw [Document.qualifierValue?, said] at hasPath
  rw [along.data] at second sameData
  rw [along.language] at second sameLanguage
  have inside : qualifier ∈ before ++ [qualifier] :=
    List.mem_append_right _ (List.mem_singleton.mpr rfl)
  have present := wellFormed.parent_present upper
  have containerOld := Document.lt_size_of_parent? upper
  have progress : Document.Progress origin.working state.working (before ++ [qualifier]) :=
    along.progress.mono (List.subset_append_left _ _)
  have ensures : ValueWrites owner state.working ensured := by
    rcases first with same | ⟨_, place, set⟩
    · rw [same]
      exact .none
    · exact .write .none (progress.wellFormed.memberWrite set)
  have ensuredProgress :=
    (ensures.progress progress inside owned present containerOld upperNow).1
  rcases second with ⟨none, same⟩ | ⟨node, place, selects, set⟩
  · have writes : ValueWrites owner state.working next.working := by rwa [same]
    refine ⟨⟨?_, sameData, sameLanguage⟩, writes, kind, path, isKind, hasPath,
      Or.inl ⟨none, fun some => ?_⟩⟩
    · rwa [same]
    · rcases first with equal | ⟨missing, _⟩
      · rw [same, equal]
      · rw [missing] at some
        cases some
  · have last := ensuredProgress.wellFormed.memberWrite set
    have writes : ValueWrites owner state.working next.working := .write ensures last
    refine ⟨⟨?_, sameData, sameLanguage⟩, writes, kind, path, isKind, hasPath,
      Or.inr ⟨node, selects, last.settled ensuredProgress.grows⟩⟩
    exact (writes.progress progress inside owned present containerOld upperNow).1

theorem along_fillEach (wellFormed : origin.working.WellFormed) (passed : List NodeId)
    (found : ∀ qualifier ∈ rest,
      qualifier ∈ origin.working.qualifiers Document.root .mappingInfo)
    (ordered : (passed ++ rest).Pairwise origin.working.Precedes)
    (along : Along origin state passed) (ran : fillEach rest state = .ok done) :
    Along origin done (passed ++ rest) := by
  induction rest generalizing passed state with
  | nil =>
      cases ran
      rwa [List.append_nil]
  | cons qualifier rest ih =>
      obtain ⟨next, passes, remaining⟩ := (fillEach_cons ..).mp ran
      have split : passed ++ qualifier :: rest = (passed ++ [qualifier]) ++ rest := by
        rw [List.append_assoc, List.singleton_append]
      have further : Along origin next (passed ++ [qualifier]) := by
        rcases passes with ⟨attached, filled⟩ | ⟨_, rfl⟩
        · obtain ⟨tree, top, holds⟩ := wellFormed.grounded wellFormed.rooted
          have listed := found qualifier (List.mem_cons_self ..)
          rw [← top] at listed
          obtain ⟨owner, container, _, _, upper, lower, _⟩ := wellFormed.exists_owner holds listed
          refine (along.fill wellFormed ?_ upper lower attached filled).1
          exact fun earlier inside =>
            (List.pairwise_append.mp ordered).2.2 earlier inside qualifier (List.mem_cons_self ..)
        · exact ⟨along.progress.mono (List.subset_append_left _ _), along.data, along.language⟩
      rw [split] at ordered ⊢
      exact ih _ (fun other inside => found other (List.mem_cons_of_mem _ inside)) ordered further
        remaining

/-- A turn of a run neither cuts off nodes that its owner does not lie above nor changes values of
other owners that came before. -/
theorem Along.passes (along : Along origin state before) (wellFormed : origin.working.WellFormed)
    (listed : qualifier ∈ origin.working.qualifiers Document.root .mappingInfo)
    (ahead : ∀ earlier ∈ before, origin.working.Precedes earlier qualifier)
    (passes : Passes state qualifier next) {other : NodeId} (old : other < origin.working.size)
    (apart : ∀ owner, origin.working.qualifierOwner? qualifier = some owner →
      ∀ levels, origin.working.ancestor? other (levels + 1) ≠ some owner) :
    (state.working.isAttached other = true → next.working.isAttached other = true) ∧
      ∀ value, origin.working.qualifierOwner? qualifier ≠ some other →
        Document.Settled origin.working state.working other value →
          Document.Settled origin.working next.working other value := by
  rcases passes with ⟨attached, filled⟩ | ⟨_, rfl⟩
  · obtain ⟨tree, top, holds⟩ := wellFormed.grounded wellFormed.rooted
    rw [← top] at listed
    obtain ⟨owner, container, owned, _, upper, lower, _⟩ := wellFormed.exists_owner holds listed
    obtain ⟨_, upperNow, _⟩ := along.progress.owner_of_attached wellFormed upper lower attached
    obtain ⟨further, writes, _⟩ := along.fill wellFormed ahead upper lower attached filled
    have inside : qualifier ∈ before ++ [qualifier] :=
      List.mem_append_right _ (List.mem_singleton.mpr rfl)
    obtain ⟨keepsAttached, keepsSettled⟩ :=
      writes.keeps (along.progress.mono (List.subset_append_left _ _)) wellFormed inside owned
        (wellFormed.parent_present upper) (Document.lt_size_of_parent? upper) upperNow
        old (apart owner owned)
    refine ⟨keepsAttached, fun value different => keepsSettled value ?_⟩
    rintro rfl
    exact different owned
  · exact ⟨id, fun _ _ settled => settled⟩

end Turns

/-! ### The pass -/

def Turn (context : Context) (qualifier : NodeId) (state : Context) : Prop :=
  ∃ before after, context.working.qualifiers Document.root .mappingInfo =
    before ++ qualifier :: after ∧ fillEach before context = .ok state

/-- A qualifier is processed if it is attached when it has its turn. -/
def Processed (context : Context) (qualifier : NodeId) : Prop :=
  ∃ state, Turn context qualifier state ∧ state.working.isAttached qualifier = true

/-- The path that a qualifier has at the start selects a node of the data. -/
def Selects (context : Context) (qualifier : NodeId) (node : Json) : Prop :=
  ∃ path, context.working.qualifierValue? qualifier = some path ∧
    Query.selectOneIn context.data path = .ok (some node)

/-- The last processed qualifier in the `qualifiers` of an owner that selects a node, and the node. -/
structure LastSelecting (context : Context) (owner qualifier : NodeId) (node : Json) : Prop where
  processed : Processed context qualifier
  selects : Selects context qualifier node
  last : ∃ container earlier later, context.working.member? Key.qualifiers owner = some container ∧
    context.working.children container = earlier ++ qualifier :: later ∧
      ∀ other ∈ later, Processed context other → ∀ found, ¬Selects context other found

theorem exists_last {α : Type} {holds : α → Prop} {items : List α}
    (exists_ : ∃ item ∈ items, holds item) :
    ∃ earlier item later, items = earlier ++ item :: later ∧ holds item ∧
      ∀ other ∈ later, ¬holds other := by
  induction items with
  | nil =>
      obtain ⟨item, inside, _⟩ := exists_
      cases inside
  | cons first rest ih =>
      by_cases further : ∃ item ∈ rest, holds item
      · obtain ⟨earlier, item, later, split, holding, none⟩ := ih further
        exact ⟨first :: earlier, item, later, by rw [split, List.cons_append], holding, none⟩
      · refine ⟨[], first, rest, rfl, ?_, fun other inside holding => further ⟨other, inside, holding⟩⟩
        obtain ⟨item, inside, holding⟩ := exists_
        rcases List.mem_cons.mp inside with rfl | later
        · exact holding
        · exact absurd ⟨item, later, holding⟩ further

private theorem mem_of_pair_sublist {first second : NodeId} {earlier later : List NodeId}
    (distinct : (earlier ++ first :: later).Nodup)
    (inOrder : [first, second].Sublist (earlier ++ first :: later)) : second ∈ later := by
  obtain ⟨front, back, split, inFront, inBack⟩ := List.sublist_append_iff.mp inOrder
  cases front with
  | nil =>
      rw [List.nil_append] at split
      rw [← split, List.cons_sublist_cons] at inBack
      exact inBack.subset (List.mem_singleton.mpr rfl)
  | cons head front =>
      rw [List.cons_append, List.cons.injEq] at split
      have repeated : first ∈ earlier := inFront.subset (split.1 ▸ List.mem_cons_self ..)
      exact absurd rfl ((List.nodup_append.mp distinct).2.2 first repeated first
        (List.mem_cons_self ..))

section Pass

variable {state next : Context} {before rest : List NodeId}

theorem along_turn (wellFormed : context.working.WellFormed)
    (listed : context.working.qualifiers Document.root .mappingInfo = before ++ rest)
    (reached : fillEach before context = .ok state) : Along context state before := by
  obtain ⟨tree, top, holds⟩ := wellFormed.grounded wellFormed.rooted
  have ordered := wellFormed.pairwise_precedes holds .mappingInfo
  rw [top, listed] at ordered
  refine along_fillEach wellFormed [] ?_ (List.pairwise_append.mp ordered).1
    ⟨.refl wellFormed, rfl, rfl⟩ reached
  intro qualifier inside
  rw [listed]
  exact List.mem_append_left _ inside

theorem precedes_of_split (wellFormed : context.working.WellFormed)
    (listed : context.working.qualifiers Document.root .mappingInfo = before ++ qualifier :: rest) :
    (∀ earlier ∈ before, context.working.Precedes earlier qualifier) ∧
      ∀ later ∈ rest, context.working.Precedes qualifier later := by
  obtain ⟨tree, top, holds⟩ := wellFormed.grounded wellFormed.rooted
  have ordered := wellFormed.pairwise_precedes holds .mappingInfo
  rw [top, listed, List.pairwise_append, List.pairwise_cons] at ordered
  exact ⟨fun earlier inside => ordered.2.2 earlier inside qualifier (List.mem_cons_self ..),
    ordered.2.1.1⟩

/-- A turn keeps what an owner has, unless a qualifier of its own selects something else. -/
private theorem kept_by_turn (wellFormed : context.working.WellFormed)
    (listed : context.working.qualifiers Document.root .mappingInfo = before ++ qualifier :: rest)
    (reached : fillEach before context = .ok state) (passes : Passes state qualifier next)
    (old : owner < context.working.size)
    (apart : ∀ lower, context.working.qualifierOwner? qualifier = some lower →
      ∀ levels, context.working.ancestor? owner (levels + 1) ≠ some lower) :
    (state.working.isAttached owner = true → next.working.isAttached owner = true) ∧
      ∀ value, (context.working.qualifierOwner? qualifier = some owner →
          Processed context qualifier → ∀ found, ¬Selects context qualifier found) →
        Document.Settled context.working state.working owner value →
          Document.Settled context.working next.working owner value := by
  have along := along_turn wellFormed listed reached
  have ahead := (precedes_of_split wellFormed listed).1
  have isListed : qualifier ∈ context.working.qualifiers Document.root .mappingInfo :=
    listed ▸ List.mem_append_cons_self
  obtain ⟨keepsAttached, keepsSettled⟩ :=
    along.passes wellFormed isListed ahead passes old apart
  refine ⟨keepsAttached, fun value silent settled => ?_⟩
  by_cases same : context.working.qualifierOwner? qualifier = some owner
  · rcases passes with ⟨attached, filled⟩ | ⟨_, rfl⟩
    · obtain ⟨tree, top, holds⟩ := wellFormed.grounded wellFormed.rooted
      rw [← top] at isListed
      obtain ⟨upper, container, upperOwned, _, upperLink, lowerLink, _⟩ :=
        wellFormed.exists_owner holds isListed
      rw [same] at upperOwned
      cases upperOwned
      obtain ⟨_, _, kind, path, _, hasPath, outcome⟩ :=
        along.fill wellFormed ahead upperLink lowerLink attached filled
      rcases outcome with ⟨_, unchanged⟩ | ⟨found, selects, _⟩
      · obtain ⟨tree, member, _⟩ := settled
        rw [unchanged (by rw [member]; rfl)]
        exact ⟨tree, member, ‹_›⟩
      · exact absurd ⟨path, hasPath, selects⟩
          (silent same ⟨state, ⟨_, _, listed, reached⟩, attached⟩ found)
    · exact settled
  · exact keepsSettled value same settled

/-- What an owner has after a turn it has in the end, unless a later qualifier of its own selects
something else. -/
private theorem kept_to_end (wellFormed : context.working.WellFormed)
    (listed : context.working.qualifiers Document.root .mappingInfo = before ++ qualifier :: rest)
    (reached : fillEach before context = .ok state) (passes : Passes state qualifier next)
    (remaining : fillEach rest next = .ok done)
    (owned : context.working.qualifierOwner? qualifier = some owner)
    (old : owner < context.working.size) :
    (next.working.isAttached owner = true → done.working.isAttached owner = true) ∧
      ∀ value, (∀ other ∈ rest, context.working.qualifierOwner? other = some owner →
          Processed context other → ∀ found, ¬Selects context other found) →
        Document.Settled context.working next.working owner value →
          Document.Settled context.working done.working owner value := by
  have further : fillEach (before ++ [qualifier]) context = .ok next :=
    (fillEach_append ..).mpr ⟨state, reached, (fillEach_cons ..).mpr ⟨next, passes, rfl⟩⟩
  have listedOther : ∀ {middle other later}, rest = middle ++ other :: later →
      context.working.qualifiers Document.root .mappingInfo =
        ((before ++ [qualifier]) ++ middle) ++ other :: later := by
    intro middle other later inRest
    rw [listed, inRest]
    simp
  have inside : ∀ {middle other later}, rest = middle ++ other :: later → other ∈ rest :=
    fun inRest => inRest ▸ List.mem_append_cons_self
  have apart : ∀ other ∈ rest, ∀ lower, context.working.qualifierOwner? other = some lower →
      ∀ levels, context.working.ancestor? owner (levels + 1) ≠ some lower :=
    fun other inside lower lowerOwned =>
      ((precedes_of_split wellFormed listed).2 other inside owner lower owned lowerOwned).1
  constructor
  · intro attached
    refine fillEach_induction (fun final => final.working.isAttached owner = true) ?_
      further attached remaining
    intro middle other later inRest first second reachedFirst passesOther
    exact (kept_by_turn wellFormed (listedOther inRest) reachedFirst passesOther old
      (apart other (inside inRest))).1
  · intro value silent settled
    refine fillEach_induction
      (fun final => Document.Settled context.working final.working owner value) ?_
      further settled remaining
    intro middle other later inRest first second reachedFirst passesOther
    exact (kept_by_turn wellFormed (listedOther inRest) reachedFirst passesOther old
      (apart other (inside inRest))).2 value (silent other (inside inRest))

theorem exists_container (wellFormed : context.working.WellFormed)
    (listed : qualifier ∈ context.working.qualifiers Document.root .mappingInfo) :
    ∃ owner container, context.working.qualifierOwner? qualifier = some owner ∧
      context.working.member? Key.qualifiers owner = some container ∧
      context.working.parent? container = some owner ∧
      context.working.parent? qualifier = some container := by
  obtain ⟨tree, top, holds⟩ := wellFormed.grounded wellFormed.rooted
  rw [← top] at listed
  obtain ⟨owner, container, owned, member, upper, lower, _⟩ := wellFormed.exists_owner holds listed
  exact ⟨owner, container, owned, member, upper, lower⟩

theorem Processed.listed (processed : Processed context qualifier) :
    qualifier ∈ context.working.qualifiers Document.root .mappingInfo := by
  obtain ⟨_, ⟨before, rest, split, _⟩, _⟩ := processed
  exact split ▸ List.mem_append_cons_self

private theorem passes_of_split (ran : context.mapScalars = .ok done)
    (listed : context.working.qualifiers Document.root .mappingInfo = before ++ qualifier :: rest)
    (reached : fillEach before context = .ok state) :
    ∃ next, Passes state qualifier next ∧ fillEach rest next = .ok done := by
  rw [Context.mapScalars, listed] at ran
  obtain ⟨other, reachedOther, remaining⟩ := (fillEach_append ..).mp ran
  rw [reached] at reachedOther
  cases reachedOther
  exact (fillEach_cons ..).mp remaining

private theorem processed_of_turn (wellFormed : context.working.WellFormed)
    (ran : context.mapScalars = .ok done) (turn : Turn context qualifier state)
    (attached : state.working.isAttached qualifier = true) :
    (∃ next, fill { state with qualifier? := some qualifier } qualifier = .ok next) ∧
      ∃ owner, context.working.qualifierOwner? qualifier = some owner ∧
        done.working.isAttached owner = true := by
  obtain ⟨before, rest, split, reached⟩ := turn
  have listed : qualifier ∈ context.working.qualifiers Document.root .mappingInfo :=
    split ▸ List.mem_append_cons_self
  obtain ⟨owner, container, owned, member, upper, lower⟩ := exists_container wellFormed listed
  obtain ⟨next, passes, remaining⟩ := passes_of_split ran split reached
  have along := along_turn wellFormed split reached
  have present := wellFormed.parent_present upper
  have ownerAttached := (along.progress.owner_of_attached wellFormed upper lower attached).2.2
  have apart : ∀ other, context.working.qualifierOwner? qualifier = some other →
      ∀ levels, context.working.ancestor? owner (levels + 1) ≠ some other := by
    intro other otherOwned
    rw [owned] at otherOwned
    cases otherOwned
    exact wellFormed.ancestor?_ne_self owner
  have stays := (along.passes wellFormed listed (precedes_of_split wellFormed split).1 passes
    present apart).1 ownerAttached
  refine ⟨?_, owner, owned,
    (kept_to_end wellFormed split reached passes remaining owned present).1 stays⟩
  rcases passes with ⟨_, filled⟩ | ⟨detached, _⟩
  · exact ⟨next, filled⟩
  · rw [attached] at detached
    cases detached

private theorem exists_lastSelecting (wellFormed : context.working.WellFormed) {node : Json}
    (owned : context.working.qualifierOwner? qualifier = some owner)
    (processed : Processed context qualifier) (selects : Selects context qualifier node) :
    ∃ last found, LastSelecting context owner last found := by
  obtain ⟨other, container, otherOwned, member, upper, lower⟩ :=
    exists_container wellFormed processed.listed
  rw [owned] at otherOwned
  cases otherOwned
  have candidates : ∃ item ∈ context.working.children container,
      Processed context item ∧ ∃ found, Selects context item found :=
    ⟨qualifier, wellFormed.listed lower, processed, node, selects⟩
  obtain ⟨earlier, last, later, split, ⟨lastProcessed, found, lastSelects⟩, silent⟩ :=
    exists_last candidates
  exact ⟨last, found, lastProcessed, lastSelects, container, earlier, later, member, split,
    fun other inside isProcessed found selects =>
      silent other inside ⟨isProcessed, found, selects⟩⟩

private theorem value_of_lastSelecting (wellFormed : context.working.WellFormed)
    (ran : context.mapScalars = .ok done) {node : Json}
    (lastSelecting : LastSelecting context owner qualifier node) :
    ∃ kind place, context.working.modelType? owner = some kind ∧
      done.working.member? Key.value owner = some place ∧
      done.working.nodeToJson place = valueFor kind context.language node := by
  obtain ⟨processed, ⟨path, hasPath, selects⟩, container, earlier, later, member, split, silent⟩ :=
    lastSelecting
  obtain ⟨state, ⟨before, rest, listed, reached⟩, attached⟩ := processed
  obtain ⟨next, passes, remaining⟩ := passes_of_split ran listed reached
  have upper := wellFormed.parent?_of_member? member
  have lower : context.working.parent? qualifier = some container :=
    (wellFormed.child (split ▸ List.mem_append_cons_self)).2.2
  have owned := Document.qualifierOwner?_of_parents lower upper
  have present := wellFormed.parent_present upper
  have along := along_turn wellFormed listed reached
  have precedes := precedes_of_split wellFormed listed
  have settledNow : ∃ kind, context.working.modelType? owner = some kind ∧
      Document.Settled context.working next.working owner
        (valueFor kind context.language node) := by
    rcases passes with ⟨_, filled⟩ | ⟨detached, _⟩
    · obtain ⟨_, _, kind, samePath, isKind, hasSamePath, outcome⟩ :=
        along.fill wellFormed precedes.1 upper lower attached filled
      rw [hasPath] at hasSamePath
      cases hasSamePath
      rcases outcome with ⟨none, _⟩ | ⟨found, selectsFound, settled⟩
      · rw [selects] at none
        cases none
      · rw [selects] at selectsFound
        cases selectsFound
        exact ⟨kind, isKind, settled⟩
    · rw [attached] at detached
      cases detached
  obtain ⟨kind, isKind, settled⟩ := settledNow
  have silentLater : ∀ other ∈ rest, context.working.qualifierOwner? other = some owner →
      Processed context other → ∀ found, ¬Selects context other found := by
    intro other inside otherOwned
    obtain ⟨_, inOrder⟩ := precedes.2 other inside owner owner owned otherOwned
    obtain ⟨sameContainer, sameLink, sorted⟩ := inOrder rfl
    rw [Document.qualifierContainer?, lower] at sameLink
    cases sameLink
    have distinct := wellFormed.distinct container
    rw [split] at sorted distinct
    exact silent other (mem_of_pair_sublist distinct sorted)
  obtain ⟨value, found, held, same, _⟩ :=
    (kept_to_end wellFormed listed reached passes remaining owned present).2 _ silentLater settled
  have finalWellFormed : done.working.WellFormed := by
    have whole := (List.append_nil (context.working.qualifiers Document.root .mappingInfo)).symm
    exact (along_turn wellFormed whole ran).progress.wellFormed
  refine ⟨kind, value.number, isKind, found, ?_⟩
  rw [finalWellFormed.nodeToJson_eq held, same]

end Pass

/-- Every listed qualifier has its turn. If it is attached by then it is processed, and its owner is
attached in the end. Every owner with a processed qualifier that selects something has in the end the
value that the last of them selects. -/
theorem mapScalars_writes {context done : Context} (reachable : context.working.Reachable)
    (ran : context.mapScalars = .ok done) :
    (∀ qualifier ∈ context.working.qualifiers Document.root .mappingInfo,
      qualifier < context.working.size ∧ (∃ state, Turn context qualifier state) ∧
        ∀ state, Turn context qualifier state → state.working.isAttached qualifier = true →
          (∃ next, fill { state with qualifier? := some qualifier } qualifier = .ok next) ∧
            ∃ owner, context.working.qualifierOwner? qualifier = some owner ∧
              done.working.isAttached owner = true) ∧
    (∀ owner, (∃ qualifier node, context.working.qualifierOwner? qualifier = some owner ∧
        Processed context qualifier ∧ Selects context qualifier node) →
      ∃ qualifier node, LastSelecting context owner qualifier node) ∧
    ∀ owner qualifier node, LastSelecting context owner qualifier node →
      ∃ kind place, context.working.modelType? owner = some kind ∧
        done.working.member? Key.value owner = some place ∧
        done.working.nodeToJson place = valueFor kind context.language node := by
  have wellFormed := reachable.wellFormed
  refine ⟨?_, ?_, fun owner qualifier node => value_of_lastSelecting wellFormed ran⟩
  · intro qualifier listed
    obtain ⟨owner, container, owned, member, upper, lower⟩ := exists_container wellFormed listed
    refine ⟨Document.lt_size_of_parent? lower, ?_,
      fun state turn attached => processed_of_turn wellFormed ran turn attached⟩
    obtain ⟨before, rest, split⟩ := List.append_of_mem listed
    have whole := ran
    rw [Context.mapScalars, split] at whole
    obtain ⟨state, reached, _⟩ := (fillEach_append ..).mp whole
    exact ⟨state, before, rest, split, reached⟩
  · rintro owner ⟨qualifier, node, owned, processed, selects⟩
    exact exists_lastSelecting wellFormed owned processed selects

/-- An element with two mappings, of which the first is the last to select something, above another
mapping in its old value; the data has a mapping of its own. -/
theorem mapScalars_writes_first :
    let mapping (path : String) : Json :=
      .object [(Key.type, .text "SMT/MappingInfo"), (Key.value, .text path)]
    let inner : Json := .object
      [(Key.modelType, .text "Property"), (Key.qualifiers, .array [mapping "$.b"]),
        (Key.value, .text "")]
    let template : Json := .object [("submodelElements", .array [.object
      [(Key.modelType, .text "MultiLanguageProperty"),
        (Key.qualifiers, .array [mapping "$.a", mapping "$.c"]), (Key.value, inner)]])]
    let data : Json := .object [("a", mapping "$.b"), ("b", .text "other")]
    let context : Context :=
      { Context.start template data "en" "id" "now" with working := Document.ofJson template }
    context.working.Reachable ∧ LastSelecting context 2 5 (mapping "$.b") ∧
      ∃ done, context.mapScalars = .ok done ∧ ∃ place,
        done.working.member? Key.value 2 = some place ∧
          done.working.nodeToJson place =
            .array [.object [(Key.text, mapping "$.b"), (Key.language, .text "en")]] := by
  intro mapping inner template data context
  have reachable : context.working.Reachable := .ofJson template
  have lastSelecting : LastSelecting context 2 5 (mapping "$.b") :=
    { processed := ⟨context, ⟨[], [8, 14], by decide +kernel, rfl⟩, by decide +kernel⟩
      selects := ⟨"$.a", by decide +kernel, rfl⟩
      last := by
        refine ⟨4, [], [8], by decide +kernel, by decide +kernel, fun other inside _ found selects => ?_⟩
        have hasPath : context.working.qualifierValue? 8 = some "$.c" := by decide +kernel
        have selectsNone : Query.selectOneIn context.data "$.c" = .ok none := by rfl
        obtain ⟨path, samePath, selected⟩ := selects
        rw [List.mem_singleton.mp inside, hasPath] at samePath
        rw [← Option.some.inj samePath, selectsNone] at selected
        cases selected }
  have isKind : context.working.modelType? 2 = some .multiLanguage := by decide +kernel
  have succeeds : context.mapScalars.isOk = true := by decide +kernel
  cases ran : context.mapScalars with
  | error failure =>
      rw [ran] at succeeds
      cases succeeds
  | ok done =>
      obtain ⟨kind, place, sameKind, found, same⟩ :=
        (mapScalars_writes reachable ran).2.2 2 5 _ lastSelecting
      rw [isKind] at sameKind
      rw [← Option.some.inj sameKind] at same
      exact ⟨reachable, lastSelecting, done, rfl, place, found, same⟩

end Scalars

end TemplateFill
