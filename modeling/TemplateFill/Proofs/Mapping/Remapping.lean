import TemplateFill.Proofs.Mapping.Refilling

/-!
Mapping an instance again.

Expansion repeats qualifiers and leaves them leaves, and when it ends no collection is left to be
repeated. So an instance reads as filled already: each pass finds in its document what it would
write there.
-/

namespace TemplateFill

/-! ### Members that are written -/

namespace Json

variable {property : Json → Prop} {value whole : Json} {key : String}

theorem mem_children_setMember {child : Json}
    (inside : child ∈ (setMember key value whole).children) :
    child = value ∨ child ∈ whole.children := by
  cases whole with
  | scalar other => exact .inr inside
  | array elements => exact .inr inside
  | object members =>
      obtain ⟨member, listed, rfl⟩ := List.mem_map.mp inside
      rcases mem_putMember listed with rfl | old
      · exact .inl rfl
      · exact .inr (List.mem_map_of_mem old)

theorem Everywhere.setMember (every : whole.Everywhere property)
    (written : value.Everywhere property) (here : property (Json.setMember key value whole)) :
    (Json.setMember key value whole).Everywhere property := by
  refine everywhere_iff.mpr ⟨here, ?_⟩
  intro child inside
  rcases mem_children_setMember inside with rfl | old
  · exact written
  · exact (everywhere_iff.mp every).2 child old

theorem LeafQualifiers.setMember (leaf : whole.LeafQualifiers) (bare : value.Bare)
    (other : Key.qualifiers ≠ key) : (Json.setMember key value whole).LeafQualifiers := by
  apply Everywhere.setMember leaf bare.leafQualifiers
  rw [member?_setMember_of_ne value whole other]
  exact (everywhere_iff.mp leaf).1

theorem Lacks.setMember {kind : QualifierType} (lacks : whole.Lacks kind) (bare : value.Bare)
    (other : Key.qualifiers ≠ key) : (Json.setMember key value whole).Lacks kind := by
  apply Everywhere.setMember lacks (bare.lacks kind)
  rw [owned_congr (member?_setMember_of_ne value whole other)]
  exact (everywhere_iff.mp lacks).1

theorem Lacks.emptied {kind : QualifierType} (lacks : whole.Lacks kind) :
    (Json.setMember Key.qualifiers (.array []) whole).Lacks kind := by
  apply Everywhere.setMember lacks (bare_empty.lacks kind)
  cases whole with
  | scalar other => exact View.owned_of_none _ rfl
  | array elements => exact View.owned_of_none _ rfl
  | object members =>
      rw [View.owned_of_some _ (memberOf?_putMember_self Key.qualifiers (.array []) members)]
      rfl

theorem setMember_of_member? (found : whole.member? key = some value) :
    setMember key value whole = whole := by
  cases whole with
  | scalar other => cases found
  | array elements => cases found
  | object members => exact congrArg Json.object (putMember_of_memberOf? found)

end Json

theorem Document.WellFormed.lacks_iff {document : Document} (wellFormed : document.WellFormed)
    (kind : QualifierType) : document.toJson.Lacks kind ↔ document.qualifiers root kind = [] := by
  obtain ⟨tree, top, holds, whole⟩ := wellFormed.exists_root
  have carried : Json.view.qualifiersBelow (Json.view.hasTag kind.tag) tree.toJson =
      (Tree.view.qualifiersBelow (Tree.view.hasTag kind.tag) tree).map Tree.toJson :=
    Tree.toJson_carries.qualifiersBelow trivial fun _ _ =>
      Tree.toJson_carries.hasTag trivial kind.tag
  rw [Json.lacks_iff, View.select_query, whole, carried, ← top, wellFormed.qualifiers_eq holds,
    List.map_eq_nil_iff, List.map_eq_nil_iff]

/-! ### Expansion -/

theorem Tree.Mirrors.leafQualifiers {mirrors : Tree → Tree → Prop} {image source : Tree}
    (isMirror : Mirrors mirrors) (top : mirrors image source)
    (leaf : source.toJson.LeafQualifiers) : image.toJson.LeafQualifiers := by
  unfold Json.LeafQualifiers Json.Bare at leaf ⊢
  simp only [Json.everywhere_toJson, member?_toJson, Option.map_eq_some_iff, Option.map_eq_none_iff,
    forall_exists_index, and_imp, forall_apply_eq_imp_iff₂] at leaf ⊢
  intro below within container found deeper inside
  obtain ⟨owner, ownerIn, ownerMirrors⟩ := isMirror.preorder top within
  obtain ⟨original, present, containerMirrors⟩ := isMirror.member ownerMirrors found
  obtain ⟨part, partIn, partMirrors⟩ := isMirror.preorder containerMirrors inside
  have none := leaf owner ownerIn original present part partIn
  cases nested : deeper.member? Key.qualifiers with
  | none => rfl
  | some member =>
      obtain ⟨_, impossible, _⟩ := isMirror.member partMirrors nested
      rw [none] at impossible
      cases impossible

namespace Expansion

variable {before after : Context}

theorem leafQualifiers_of_round (sound : before.working.Sound)
    (done : round before = .ok (some after)) (leaf : before.working.toJson.LeafQualifiers) :
    after.working.toJson.LeafQualifiers := by
  obtain ⟨tree, top, holds, whole⟩ := sound.wellFormed.exists_root
  have distinct := (Document.attachedKeysDistinct_iff sound.wellFormed holds top).mp sound.keys
  obtain ⟨container, owner, list, qualifier, path, entries, copies, expands⟩ :=
    exists_expands sound.wellFormed holds top done
  have mirrors : Precursor tree container owner copies
      (tree.graft (container.exchange owner.number copies)) tree :=
    .kept tree.self_mem_preorder (expands.root_not_mem sound.wellFormed holds top)
  have afterTop : (tree.graft (container.exchange owner.number copies)).number = Document.root := by
    rw [Tree.number_graft, top]
  rw [Document.toJson, ← afterTop, expands.wellFormed.nodeToJson_eq expands.holds]
  rw [whole] at leaf
  exact (expands.mirrors sound.wellFormed holds distinct).leafQualifiers mirrors leaf

theorem Rounds.leafQualifiers (rounds : Rounds before after) (sound : before.working.Sound)
    (leaf : before.working.toJson.LeafQualifiers) : after.working.toJson.LeafQualifiers := by
  induction rounds with
  | refl => exact leaf
  | tail earlier last ih => exact leafQualifiers_of_round (Rounds.sound earlier sound) last ih

theorem restoreTags_of_none {document : Document}
    (none : document.qualifiers Document.root .processedCollectionMappingInfo = []) :
    restoreTags document = document := by
  rw [restoreTags, none]
  rfl

end Expansion

/-- A value in which no collection is to be repeated, and none was. -/
structure Json.Expanded (value : Json) : Prop where
  collections : value.Lacks .collectionMappingInfo
  marks : value.Lacks .processedCollectionMappingInfo

namespace Context

variable {context after : Context}

theorem expanded_expandCollections (sound : context.Sound)
    (unmarked : context.working.toJson.Lacks .processedCollectionMappingInfo)
    (leaf : context.working.toJson.LeafQualifiers) (done : context.expandCollections = .ok after) :
    after.working.toJson.Expanded ∧ after.working.toJson.LeafQualifiers := by
  obtain ⟨last, rounds, ⟨ran, finished⟩ | ⟨failure, failed, _⟩⟩ :=
    Expansion.exists_last sound.working.wellFormed
  · have lastSound := rounds.sound sound.working
    have none : last.working.qualifiers Document.root .processedCollectionMappingInfo = [] := by
      rw [List.eq_nil_iff_forall_not_mem]
      intro node listed
      obtain ⟨source, marked, _⟩ := Expansion.exists_stems sound.working rounds listed
      rw [(sound.working.wellFormed.lacks_iff _).mp unmarked] at marked
      cases marked
    rw [expandCollections, ran] at done
    cases done
    rw [Expansion.restoreTags_of_none none]
    constructor
    · exact ⟨(lastSound.wellFormed.lacks_iff _).mpr finished,
        (lastSound.wellFormed.lacks_iff _).mpr none⟩
    · exact rounds.leafQualifiers sound.working leaf
  · rw [expandCollections, failed] at done
    cases done

theorem fill?_of_mapScalars (done : context.mapScalars = .ok after)
    (wellFormed : context.working.WellFormed) :
    Json.fill? context.data context.language context.working.toJson =
      some after.working.toJson := by
  rw [← Scalars.mapScalars_toJson wellFormed, done]
  rfl

end Context

/-! ### Instances that stay as they are -/

structure Json.Stable (filled data : Json) (language newId : String) : Prop where
  isInstance : filled.IsInstance newId
  expanded : filled.Expanded
  fixed : Json.fill? data language filled = some filled

namespace Context

variable {context : Context}

def Keeps (context : Context) (result : Except Failure Context) : Prop :=
  ∃ after, result = .ok after ∧ after.working.WellFormed ∧
    after.working.toJson = context.working.toJson

theorem keeps_setRootMember (wellFormed : context.working.WellFormed) {key : String} {value : Json}
    (found : context.working.toJson.member? key = some value) :
    context.Keeps (context.setRootMember key value) := by
  have present := wellFormed.isSome_member?_toJson key
  rw [found] at present
  obtain ⟨place, member⟩ := Option.isSome_iff_exists.mp present.symm
  have done : context.setRootMember key value =
      .ok { context with working := context.working.replaceValue place value } :=
    setRootMember_eq_ok.mpr ⟨_, place, Document.setMember_of_some value member, rfl⟩
  obtain ⟨_, written, afterWF⟩ := toJson_setRootMember done wellFormed
  exact ⟨_, done, afterWF, written.trans (Json.setMember_of_member? found)⟩

theorem keeps_expandCollections (wellFormed : context.working.WellFormed)
    (expanded : context.working.toJson.Expanded) : context.Keeps context.expandCollections := by
  have none := (wellFormed.lacks_iff _).mp expanded.collections
  have unmarked := (wellFormed.lacks_iff _).mp expanded.marks
  have done := Expansion.expandCollections_of_none none
  rw [Expansion.restoreTags_of_none unmarked] at done
  exact ⟨_, done, wellFormed, rfl⟩

theorem keeps_mapScalars (wellFormed : context.working.WellFormed)
    (fixed : Json.fill? context.data context.language context.working.toJson =
      some context.working.toJson) : context.Keeps context.mapScalars := by
  have computed := Scalars.mapScalars_toJson wellFormed
  rw [fixed] at computed
  cases done : context.mapScalars with
  | error failure =>
      rw [done] at computed
      cases computed
  | ok after =>
      rw [done] at computed
      obtain ⟨afterWF, _⟩ := keepsMember_fillEach done wellFormed (by decide : Key.id ≠ Key.value)
      exact ⟨after, rfl, afterWF, Option.some.inj computed⟩

theorem keeps_stripQualifiers (wellFormed : context.working.WellFormed)
    (empty : ∀ found, context.working.toJson.member? Key.qualifiers = some found →
      found = .array []) : context.Keeps context.stripQualifiers := by
  unfold stripQualifiers
  have present := wellFormed.isSome_member?_toJson Key.qualifiers
  split
  · rename_i member
    rw [member] at present
    obtain ⟨found, isMember⟩ := Option.isSome_iff_exists.mp present
    exact keeps_setRootMember wellFormed (empty found isMember ▸ isMember)
  · exact ⟨context, rfl, wellFormed, rfl⟩

theorem keeps_replaceIdentifier (wellFormed : context.working.WellFormed)
    (found : context.working.toJson.member? Key.id = some (.text context.newId)) :
    context.Keeps context.replaceIdentifier := by
  have written := keeps_setRootMember wellFormed found
  have present := wellFormed.isSome_member?_toJson Key.id
  unfold replaceIdentifier
  split
  · rename_i place member
    unfold setRootMember at written
    rw [Document.setMember_of_some _ member] at written
    exact written
  · rename_i absent
    rw [absent, found] at present
    cases present

end Context

/-- A pass over an instance that is stable leaves it as it is. -/
theorem Pass.keeps_run {context : Context} {pass : Pass} (other : pass ≠ .cloneTemplate)
    (wellFormed : context.working.WellFormed)
    (stable : context.working.toJson.Stable context.data context.language context.newId) :
    context.Keeps (pass.run context) := by
  cases pass with
  | cloneTemplate => exact absurd rfl other
  | markAsInstance => exact Context.keeps_setRootMember wellFormed stable.isInstance.kind
  | expandCollections => exact Context.keeps_expandCollections wellFormed stable.expanded
  | mapScalars => exact Context.keeps_mapScalars wellFormed stable.fixed
  | stripQualifiers => exact Context.keeps_stripQualifiers wellFormed stable.isInstance.qualifiers
  | replaceIdentifier => exact Context.keeps_replaceIdentifier wellFormed stable.isInstance.id

theorem Pipeline.keeps_run {pipeline : Pipeline} (others : .cloneTemplate ∉ pipeline)
    {context : Context} (wellFormed : context.working.WellFormed)
    (stable : context.working.toJson.Stable context.data context.language context.newId) :
    context.Keeps (pipeline.run context) := by
  induction pipeline generalizing context with
  | nil => exact ⟨context, rfl, wellFormed, rfl⟩
  | cons pass rest ih =>
      have first : pass ≠ .cloneTemplate := fun same => others (same ▸ List.mem_cons_self ..)
      have started : (context.log ("Started " ++ pass.name)).Keeps (pass.run _) :=
        Pass.keeps_run first wellFormed stable
      obtain ⟨after, ran, afterWF, same⟩ := started
      have inputs := Pass.sameInputs_run ran wellFormed
      have logged : pass.runLogged context = .ok (after.log ("Finished " ++ pass.name)) :=
        runLogged_eq_ok.mpr ⟨after, ran, rfl⟩
      have afterStable : after.working.toJson.Stable after.data after.language after.newId := by
        rw [same, inputs.data, inputs.language, inputs.newId]
        exact stable
      have later : Pass.cloneTemplate ∉ rest := fun inside => others (List.mem_cons_of_mem _ inside)
      have finished : (after.log ("Finished " ++ pass.name)).Keeps (run rest _) :=
        ih later afterWF afterStable
      obtain ⟨last, done, lastWF, lastSame⟩ := finished
      exact ⟨last, bind_eq_ok.mpr ⟨_, logged, done⟩, lastWF, lastSame.trans same⟩

theorem mapTemplate_of_stable {data filled : Json} {language newId : String}
    (stable : filled.Stable data language newId) (moment : String) :
    mapTemplate filled data language newId moment = .ok filled := by
  obtain ⟨cloned, clones⟩ : ∃ cloned, Pass.cloneTemplate.runLogged
      (.start filled data language newId moment) = .ok cloned := ⟨_, rfl⟩
  have isCopy : cloned.working = Document.ofJson filled := Pass.cloneTemplate_runLogged clones
  have same : cloned.working.toJson = filled := by rw [isCopy, Document.toJson_ofJson]
  have inputs := Pass.sameInputs_runLogged clones (Document.ofJson_wellFormed _)
  have others : Pass.cloneTemplate ∉ Pipeline.standard.tail := by decide
  obtain ⟨last, done, _, kept⟩ : cloned.Keeps (Pipeline.run Pipeline.standard.tail cloned) := by
    apply Pipeline.keeps_run others (isCopy ▸ Document.ofJson_wellFormed filled)
    rw [same, inputs.data, inputs.language, inputs.newId]
    exact stable
  unfold mapTemplate
  rw [bind_eq_ok]
  refine ⟨last, bind_eq_ok.mpr ⟨cloned, clones, done⟩, ?_⟩
  rw [kept, same]
  rfl

/-! ### What a run answers -/

namespace Pass

variable {context next : Context}

theorem expanded_runLogged (sound : context.Sound)
    (unmarked : context.working.toJson.Lacks .processedCollectionMappingInfo)
    (leaf : context.working.toJson.LeafQualifiers)
    (done : expandCollections.runLogged context = .ok next) :
    next.working.toJson.Expanded ∧ next.working.toJson.LeafQualifiers := by
  obtain ⟨after, ran, rfl⟩ := Pipeline.runLogged_eq_ok.mp done
  have spec := Context.expanded_expandCollections (sound.log _) unmarked leaf ran
  exact spec

theorem fill?_runLogged (done : mapScalars.runLogged context = .ok next)
    (wellFormed : context.working.WellFormed) :
    Json.fill? context.data context.language context.working.toJson =
      some next.working.toJson := by
  obtain ⟨after, ran, rfl⟩ := Pipeline.runLogged_eq_ok.mp done
  have spec := Context.fill?_of_mapScalars ran wellFormed
  exact spec

end Pass

theorem Json.Settles.stable {data value filled stripped : Json} {language newId : String}
    (settles : Settles data language value filled) (expanded : value.Expanded)
    (strips : filled.Strips stripped)
    (isInstance : (Json.setMember Key.id (.text newId) stripped).IsInstance newId) :
    (Json.setMember Key.id (.text newId) stripped).Stable data language newId := by
  have lacks : ∀ kind, value.Lacks kind →
      (Json.setMember Key.id (.text newId) stripped).Lacks kind := by
    intro kind missing
    apply Lacks.setMember _ (bare_text newId) (by decide)
    rcases strips.written with rfl | rfl
    · exact (settles.lacks kind missing).emptied
    · exact settles.lacks kind missing
  have parts : ∀ child ∈ stripped.children, fill? data language child = some child := by
    intro child inside
    rcases strips.written with rfl | rfl
    · rcases mem_children_setMember inside with rfl | old
      · exact fill?_of_bare bare_empty
      · exact settles.parts child old
    · exact settles.parts child inside
  have none : (Json.setMember Key.id (.text newId) stripped).ownMappings = [] := by
    cases found : (Json.setMember Key.id (.text newId) stripped).member? Key.qualifiers with
    | none => exact View.owned_of_none _ found
    | some container =>
        apply (View.owned_of_some _ found).trans
        rw [isInstance.qualifiers container found]
        rfl
  refine ⟨isInstance, ⟨lacks _ expanded.collections, lacks _ expanded.marks⟩, ?_⟩
  apply fill?_of_children none
  intro child inside
  rcases mem_children_setMember inside with rfl | old
  · exact fill?_of_bare (bare_text newId)
  · exact parts child old

theorem stable_of_mapTemplate {template data filled : Json} {language newId moment : String}
    (templateDistinct : template.KeysDistinct) (dataDistinct : data.KeysDistinct)
    (unmarked : template.Lacks .processedCollectionMappingInfo) (leaf : template.LeafQualifiers)
    (bare : data.Bare) (done : mapTemplate template data language newId moment = .ok filled) :
    filled.Stable data language newId := by
  obtain ⟨_, isInstance⟩ := isInstance_of_mapTemplate done
  obtain ⟨marked, expanded, mapped, runs⟩ := runs_of_mapTemplate done
  have started := runs.starts.sound
    (Context.sound_start templateDistinct dataDistinct language newId moment)
  have sound : marked.Sound := ⟨started.template, started.data, started.working⟩
  have expandedSound := Pipeline.sound_runLogged sound runs.expands
  have unmarkedStill : marked.working.toJson.Lacks .processedCollectionMappingInfo :=
    runs.marks ▸ unmarked.setMember (Json.bare_text _) (by decide)
  have leafStill : marked.working.toJson.LeafQualifiers :=
    runs.marks ▸ leaf.setMember (Json.bare_text _) (by decide)
  obtain ⟨isExpanded, leaves⟩ :=
    Pass.expanded_runLogged sound unmarkedStill leafStill runs.expands
  have fills := Pass.fill?_runLogged runs.maps expandedSound.working.wellFormed
  rw [runs.inputs.data, runs.inputs.language] at fills
  have settles := Json.fill?_settles bare _ leaves _ fills
  obtain ⟨stripped, strips, _, _, rfl⟩ := runs.finishes
  exact settles.stable isExpanded strips isInstance

/-- Mapping an instance again with the data and the identifier it comes from answers it again.

In the template and the data no object may have a key twice. No collection of the template may be
marked as expanded, none of its `qualifiers` may lie inside others, and the data may have none. -/
theorem mapTemplate_again {template data filled : Json} {language newId moment : String}
    (templateDistinct : template.KeysDistinct) (dataDistinct : data.KeysDistinct)
    (unmarked : template.Lacks .processedCollectionMappingInfo) (leaf : template.LeafQualifiers)
    (bare : data.Bare) (done : mapTemplate template data language newId moment = .ok filled)
    (otherMoment : String) : mapTemplate filled data language newId otherMoment = .ok filled := by
  apply mapTemplate_of_stable
  exact stable_of_mapTemplate templateDistinct dataDistinct unmarked leaf bare done

/-- A collection of properties that is repeated for each entry of a list, and a property that keeps
its own value. -/
theorem mapTemplate_again_rows :
    let qualifier (tag value : String) : Json :=
      .object [(Key.type, .text tag), (Key.value, .text value)]
    let property (value : String) (qualifiers : List Json) : Json :=
      .object [(Key.modelType, .text "Property"), (Key.value, .text value),
        (Key.qualifiers, .array qualifiers)]
    let row : Json := .object [(Key.idShort, .text "row"),
      (Key.modelType, .text "SubmodelElementCollection"),
      (Key.qualifiers, .array [qualifier "SMT/CollectionMappingInfo" "$.rows[*]"]),
      (Key.value, .array [property "" [qualifier "SMT/Cardinality" "One",
        qualifier "SMT/MappingInfo" "$.rows[*].n"]])]
    let template : Json := .object [(Key.id, .text "urn:t"),
      (Key.qualifiers, .array [qualifier "SMT/Cardinality" "One"]),
      ("submodelElements", .array [row, property "kg" [qualifier "SMT/MappingInfo" "$.unit"]])]
    let data : Json :=
      .object [("rows", .array [.object [("n", .text "a")], .object [("n", .text "b")]])]
    template.KeysDistinct ∧ data.KeysDistinct ∧ template.Lacks .processedCollectionMappingInfo ∧
      template.LeafQualifiers ∧ data.Bare ∧ ∃ filled,
        mapTemplate template data "en" "urn:i" "now" = .ok filled ∧
          mapTemplate filled data "en" "urn:i" "later" = .ok filled := by
  intro qualifier property row template data
  have templateDistinct : template.KeysDistinct := by decide +kernel
  have dataDistinct : data.KeysDistinct := by decide +kernel
  have unmarked : template.Lacks .processedCollectionMappingInfo := by decide +kernel
  have leaf : template.LeafQualifiers := by decide +kernel
  have bare : data.Bare := by decide +kernel
  have evaluated : (mapWithin? 2 template data "en" "urn:i" "now").isSome = true := by
    decide +kernel
  obtain ⟨filled, evaluated⟩ := Option.isSome_iff_exists.mp evaluated
  have maps := mapTemplate_of_mapWithin? evaluated
  have again := mapTemplate_again templateDistinct dataDistinct unmarked leaf bare maps "later"
  exact ⟨templateDistinct, dataDistinct, unmarked, leaf, bare, filled, maps, again⟩

end TemplateFill
