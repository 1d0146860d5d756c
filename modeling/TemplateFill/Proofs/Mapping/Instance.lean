import TemplateFill.Proofs.Document.Refinement
import TemplateFill.Proofs.Mapping.RootMembers

/-!
The root of an instance.

A template that is mapped is an object with an identifier. The instance says so in its `kind`, has
the new identifier, and has no qualifiers of its own, whatever the passes in between have repeated,
removed and overwritten.
-/

namespace TemplateFill

/-! ### Inputs -/

structure Context.SameInputs (before after : Context) : Prop where
  template : after.template = before.template
  data : after.data = before.data
  language : after.language = before.language
  newId : after.newId = before.newId

namespace Context

variable {context after first second third : Context}

theorem SameInputs.refl (context : Context) : context.SameInputs context := ⟨rfl, rfl, rfl, rfl⟩

theorem SameInputs.trans (early : first.SameInputs second) (late : second.SameInputs third) :
    first.SameInputs third :=
  { template := late.template.trans early.template
    data := late.data.trans early.data
    language := late.language.trans early.language
    newId := late.newId.trans early.newId }

theorem setRootMember_eq_ok {key : String} {value : Json} :
    context.setRootMember key value = .ok after ↔
      ∃ document place, context.working.setMember Document.root key value = .ok (document, place) ∧
        after = { context with working := document } := by
  unfold setRootMember
  rw [bind_eq_ok]
  constructor
  · rintro ⟨⟨document, place⟩, written, done⟩
    rw [edited_eq_ok] at written
    cases done
    exact ⟨document, place, written, rfl⟩
  · rintro ⟨document, place, written, rfl⟩
    exact ⟨(document, place), edited_eq_ok.mpr written, rfl⟩

theorem sameInputs_setRootMember {key : String} {value : Json}
    (done : context.setRootMember key value = .ok after) : context.SameInputs after := by
  obtain ⟨document, place, _, rfl⟩ := setRootMember_eq_ok.mp done
  exact ⟨rfl, rfl, rfl, rfl⟩

theorem sameInputs_rounds (rounds : Expansion.Rounds context after) : context.SameInputs after := by
  induction rounds with
  | refl => exact .refl context
  | tail _ last ih =>
      obtain ⟨qualifier, _, ran⟩ := Expansion.round_eq_some.mp last
      obtain ⟨_, _, _, _, _, _, _, _, _, _, _, _, _, _, rfl⟩ :=
        Expansion.expandQualifier_eq_ok.mp ran
      exact ⟨ih.template, ih.data, ih.language, ih.newId⟩

theorem sameInputs_expandCollections (done : context.expandCollections = .ok after)
    (wellFormed : context.working.WellFormed) : context.SameInputs after := by
  obtain ⟨last, rounds, ⟨ran, _⟩ | ⟨failure, failed, _⟩⟩ := Expansion.exists_last wellFormed
  · rw [expandCollections, ran] at done
    cases done
    have same := sameInputs_rounds rounds
    exact ⟨same.template, same.data, same.language, same.newId⟩
  · rw [expandCollections, failed] at done
    cases done

theorem sameInputs_fillEach {qualifiers : List NodeId}
    (done : Scalars.fillEach qualifiers context = .ok after) : context.SameInputs after := by
  induction qualifiers generalizing context with
  | nil =>
      cases done
      exact .refl _
  | cons qualifier rest ih =>
      obtain ⟨next, ⟨_, filled⟩ | ⟨_, rfl⟩, remaining⟩ := (Scalars.fillEach_cons ..).mp done
      · obtain ⟨_, _, _, _, _, _, _, same, _⟩ := Scalars.fill_ok filled
        have late := ih remaining
        exact ⟨late.template.trans same.template, late.data.trans same.data,
          late.language.trans same.language, late.newId.trans same.newId⟩
      · exact ih remaining

end Context

theorem Pass.sameInputs_run {context after : Context} {pass : Pass}
    (done : pass.run context = .ok after) (wellFormed : context.working.WellFormed) :
    context.SameInputs after := by
  cases pass with
  | cloneTemplate =>
      cases done
      exact ⟨rfl, rfl, rfl, rfl⟩
  | markAsInstance => exact Context.sameInputs_setRootMember done
  | expandCollections => exact Context.sameInputs_expandCollections done wellFormed
  | mapScalars => exact Context.sameInputs_fillEach done
  | stripQualifiers =>
      change context.stripQualifiers = .ok after at done
      unfold Context.stripQualifiers at done
      split at done
      · exact Context.sameInputs_setRootMember done
      · cases done
        exact .refl context
  | replaceIdentifier =>
      change context.replaceIdentifier = .ok after at done
      unfold Context.replaceIdentifier at done
      split at done
      · cases done
        exact ⟨rfl, rfl, rfl, rfl⟩
      · cases done

/-! ### Writing over the root -/

theorem memberOf?_putMember_self {α : Type} (key : String) (value : α)
    (members : List (String × α)) : memberOf? key (putMember key value members) = some value := by
  induction members with
  | nil => exact if_pos rfl
  | cons member rest ih =>
      obtain ⟨name, old⟩ := member
      rw [putMember]
      split
      · rename_i same
        rw [memberOf?, if_pos same]
      · rename_i different
        rw [memberOf?, if_neg different, ih]

theorem memberOf?_putMember_of_ne {α : Type} {key other : String} (value : α)
    (members : List (String × α)) (different : other ≠ key) :
    memberOf? other (putMember key value members) = memberOf? other members := by
  induction members with
  | nil => exact if_neg (Ne.symm different)
  | cons member rest ih =>
      obtain ⟨name, old⟩ := member
      rw [putMember]
      split
      · rename_i same
        rw [memberOf?, memberOf?, if_neg (same ▸ Ne.symm different),
          if_neg (same ▸ Ne.symm different)]
      · rw [memberOf?, memberOf?, ih]

theorem Json.member?_setMember_of_ne {key other : String} (value whole : Json)
    (different : other ≠ key) :
    (Json.setMember key value whole).member? other = whole.member? other := by
  cases whole with
  | object members => exact memberOf?_putMember_of_ne value members different
  | scalar _ => rfl
  | array _ => rfl

namespace Document

variable {document edited : Document} {member : NodeId} {key : String} {value : Json}

theorem WellFormed.exists_root (wellFormed : document.WellFormed) :
    ∃ tree : Tree, tree.number = root ∧ document.Holds tree ∧ document.toJson = tree.toJson := by
  obtain ⟨tree, top, holds⟩ := wellFormed.grounded wellFormed.rooted
  refine ⟨tree, top, holds, ?_⟩
  rw [toJson, ← top, wellFormed.nodeToJson_eq holds]

theorem WellFormed.isSome_member?_toJson (wellFormed : document.WellFormed) (key : String) :
    (document.toJson.member? key).isSome = (document.member? key root).isSome := by
  obtain ⟨tree, top, holds, whole⟩ := wellFormed.exists_root
  rw [whole, Tree.member?_toJson, ← top, holds.member?, Option.isSome_map, Option.isSome_map]

theorem WellFormed.member?_toJson_of_text (wellFormed : document.WellFormed) {text : String} :
    document.stringMember? key root = some text ↔
      document.toJson.member? key = some (.text text) := by
  obtain ⟨tree, top, holds, whole⟩ := wellFormed.exists_root
  rw [whole, ← top, holds.stringMember?, Tree.member?_toJson]
  constructor
  · intro found
    obtain ⟨number, member⟩ := Tree.exists_scalar_of_stringMember? found
    rw [member, Option.map_some, Tree.toJson]
    rfl
  · intro found
    obtain ⟨member, present, isText⟩ := Option.map_eq_some_iff.mp found
    rw [Tree.stringMember?, present, Option.bind_some, ← Tree.string?_toJson, isText]
    rfl

theorem KeepsMember.text_toJson {before after : Document} (keeps : KeepsMember key before after)
    (wellFormed : before.WellFormed) (afterWF : after.WellFormed) {text : String}
    (found : before.toJson.member? key = some (.text text)) :
    after.toJson.member? key = some (.text text) :=
  afterWF.member?_toJson_of_text.mp
    (keeps.text text (wellFormed.member?_toJson_of_text.mpr found))

theorem KeepsMember.present_toJson {before after : Document}
    (keeps : KeepsMember key before after) (wellFormed : before.WellFormed)
    (afterWF : after.WellFormed) (found : (after.toJson.member? key).isSome = true) :
    (before.toJson.member? key).isSome = true := by
  rw [afterWF.isSome_member?_toJson] at found
  rw [wellFormed.isSome_member?_toJson]
  exact keeps.present found

theorem WellFormed.toJson_setMember_root (wellFormed : document.WellFormed)
    (done : document.setMember root key value = .ok (edited, member)) :
    (∃ members, document.toJson = .object members) ∧
      edited.toJson = Json.setMember key value document.toJson ∧ edited.WellFormed := by
  obtain ⟨tree, top, holds, whole⟩ := wellFormed.exists_root
  obtain ⟨members, recorded⟩ := exists_members_of_setMember done
  refine ⟨?_, (refines_setMember wellFormed done).changed root [] rfl rfl,
    (wellFormed.memberWrite done).wellFormed⟩
  rw [← top, holds.content] at recorded
  cases tree with
  | object number members => exact ⟨_, whole.trans (by rw [Tree.toJson])⟩
  | scalar number value => cases recorded
  | array number elements => cases recorded

end Document

/-! ### Passes in order -/

theorem Pipeline.standard_eq_ok {context done : Context} :
    standard.run context = .ok done ↔ ∃ cloned marked expanded mapped stripped,
      Pass.cloneTemplate.runLogged context = .ok cloned ∧
      Pass.markAsInstance.runLogged cloned = .ok marked ∧
      Pass.expandCollections.runLogged marked = .ok expanded ∧
      Pass.mapScalars.runLogged expanded = .ok mapped ∧
      Pass.stripQualifiers.runLogged mapped = .ok stripped ∧
      Pass.replaceIdentifier.runLogged stripped = .ok done := by
  unfold standard
  simp only [run, bind_eq_ok, Except.ok.injEq, exists_eq_right, exists_and_left]

structure Json.IsInstance (newId : String) (filled : Json) : Prop where
  object : ∃ members, filled = .object members
  kind : filled.member? Key.kind = some (.text instanceKind)
  id : filled.member? Key.id = some (.text newId)
  qualifiers : ∀ found, filled.member? Key.qualifiers = some found → found = .array []

structure Json.IsTemplate (template : Json) : Prop where
  object : ∃ members, template = .object members
  id : (template.member? Key.id).isSome = true

theorem Json.member?_setMember_self {whole : Json} (object : ∃ members, whole = .object members)
    (key : String) (value : Json) : (Json.setMember key value whole).member? key = some value := by
  obtain ⟨members, rfl⟩ := object
  exact memberOf?_putMember_self key value members

structure Json.Strips (value stripped : Json) : Prop where
  written : stripped = Json.setMember Key.qualifiers (.array []) value ∨ stripped = value
  empty : ∀ found, stripped.member? Key.qualifiers = some found → found = .array []

theorem Json.Strips.member?_of_ne {value stripped : Json} (strips : value.Strips stripped)
    {key : String} (other : key ≠ Key.qualifiers) : stripped.member? key = value.member? key := by
  rcases strips.written with rfl | rfl
  · exact member?_setMember_of_ne _ _ other
  · rfl

namespace Context

variable {context after : Context}

theorem toJson_setRootMember {key : String} {value : Json}
    (done : context.setRootMember key value = .ok after)
    (wellFormed : context.working.WellFormed) :
    (∃ members, context.working.toJson = .object members) ∧
      after.working.toJson = Json.setMember key value context.working.toJson ∧
        after.working.WellFormed := by
  obtain ⟨document, place, written, rfl⟩ := setRootMember_eq_ok.mp done
  exact wellFormed.toJson_setMember_root written

theorem toJson_stripQualifiers (done : context.stripQualifiers = .ok after)
    (wellFormed : context.working.WellFormed) :
    after.working.WellFormed ∧ context.working.toJson.Strips after.working.toJson := by
  unfold stripQualifiers at done
  split at done
  · obtain ⟨object, written, afterWF⟩ := toJson_setRootMember done wellFormed
    refine ⟨afterWF, .inl written, ?_⟩
    intro found present
    rw [written, Json.member?_setMember_self object] at present
    exact (Option.some.inj present).symm
  · rename_i absent
    cases done
    refine ⟨wellFormed, .inr rfl, ?_⟩
    intro found present
    have missing := wellFormed.isSome_member?_toJson Key.qualifiers
    rw [absent, present] at missing
    cases missing

theorem toJson_replaceIdentifier (done : context.replaceIdentifier = .ok after)
    (wellFormed : context.working.WellFormed) :
    (context.working.toJson.member? Key.id).isSome = true ∧
      (∃ members, context.working.toJson = .object members) ∧
        after.working.toJson =
          Json.setMember Key.id (.text context.newId) context.working.toJson := by
  unfold replaceIdentifier at done
  split at done
  · rename_i place found
    cases done
    have written : context.working.setMember Document.root Key.id (.text context.newId) =
        .ok (context.working.replaceValue place (.text context.newId), place) := by
      rw [Document.setMember, found]
    obtain ⟨object, same, _⟩ := wellFormed.toJson_setMember_root written
    rw [wellFormed.isSome_member?_toJson, found]
    exact ⟨rfl, object, same⟩
  · cases done

end Context

/-! ### Logged passes -/

namespace Pass

variable {context next : Context} {pass : Pass}

theorem sameInputs_runLogged (done : pass.runLogged context = .ok next)
    (wellFormed : context.working.WellFormed) : context.SameInputs next := by
  obtain ⟨after, ran, rfl⟩ := Pipeline.runLogged_eq_ok.mp done
  have same := sameInputs_run ran wellFormed
  exact ⟨same.template, same.data, same.language, same.newId⟩

theorem cloneTemplate_runLogged (done : cloneTemplate.runLogged context = .ok next) :
    next.working = Document.ofJson context.template := by
  obtain ⟨after, ran, rfl⟩ := Pipeline.runLogged_eq_ok.mp done
  cases ran
  rfl

theorem markAsInstance_runLogged (done : markAsInstance.runLogged context = .ok next)
    (wellFormed : context.working.WellFormed) :
    (∃ members, context.working.toJson = .object members) ∧
      next.working.toJson = Json.setMember Key.kind (.text instanceKind) context.working.toJson ∧
        next.working.WellFormed := by
  obtain ⟨after, ran, rfl⟩ := Pipeline.runLogged_eq_ok.mp done
  have spec := Context.toJson_setRootMember ran wellFormed
  exact spec

theorem expandCollections_runLogged (done : expandCollections.runLogged context = .ok next)
    (wellFormed : context.working.WellFormed) {key : String} (other : key ≠ Key.type) :
    next.working.WellFormed ∧ context.working.KeepsMember key next.working := by
  obtain ⟨after, ran, rfl⟩ := Pipeline.runLogged_eq_ok.mp done
  have spec := Context.keepsMember_expandCollections ran wellFormed other
  exact spec

theorem mapScalars_runLogged (done : mapScalars.runLogged context = .ok next)
    (wellFormed : context.working.WellFormed) {key : String} (other : key ≠ Key.value) :
    next.working.WellFormed ∧ context.working.KeepsMember key next.working := by
  obtain ⟨after, ran, rfl⟩ := Pipeline.runLogged_eq_ok.mp done
  have spec := Context.keepsMember_fillEach ran wellFormed other
  exact spec

theorem stripQualifiers_runLogged (done : stripQualifiers.runLogged context = .ok next)
    (wellFormed : context.working.WellFormed) :
    next.working.WellFormed ∧ context.working.toJson.Strips next.working.toJson := by
  obtain ⟨after, ran, rfl⟩ := Pipeline.runLogged_eq_ok.mp done
  have spec := Context.toJson_stripQualifiers ran wellFormed
  exact spec

theorem replaceIdentifier_runLogged (done : replaceIdentifier.runLogged context = .ok next)
    (wellFormed : context.working.WellFormed) :
    (context.working.toJson.member? Key.id).isSome = true ∧
      (∃ members, context.working.toJson = .object members) ∧
        next.working.toJson =
          Json.setMember Key.id (.text context.newId) context.working.toJson := by
  obtain ⟨after, ran, rfl⟩ := Pipeline.runLogged_eq_ok.mp done
  have spec := Context.toJson_replaceIdentifier ran wellFormed
  exact spec

end Pass

/-- A run of all passes that succeeds: the states that the passes in the middle lead from and to,
and what the others write. -/
structure Context.Runs (start marked expanded mapped : Context) (filled : Json) : Prop where
  object : ∃ members, start.template = .object members
  marks : marked.working.toJson = Json.setMember Key.kind (.text instanceKind) start.template
  starts : Pipeline.standard.Starts start .expandCollections
    (marked.log ("Started " ++ Pass.expandCollections.name))
  wellFormed : marked.working.WellFormed
  expands : Pass.expandCollections.runLogged marked = .ok expanded
  inputs : start.SameInputs expanded
  maps : Pass.mapScalars.runLogged expanded = .ok mapped
  finishes : ∃ stripped, mapped.working.toJson.Strips stripped ∧
    (∃ members, stripped = .object members) ∧ (stripped.member? Key.id).isSome = true ∧
    filled = Json.setMember Key.id (.text start.newId) stripped

theorem runs_of_mapTemplate {template data filled : Json} {language newId moment : String}
    (done : mapTemplate template data language newId moment = .ok filled) :
    ∃ marked expanded mapped, (Context.start template data language newId moment).Runs marked
      expanded mapped filled := by
  unfold mapTemplate at done
  obtain ⟨last, ran, same⟩ := (bind_eq_ok ..).mp done
  cases same
  obtain ⟨cloned, marked, expanded, mapped, stripped, clones, marks, expands, maps, strips,
    replaces⟩ := Pipeline.standard_eq_ok.mp ran
  have isCopy : cloned.working = Document.ofJson template := Pass.cloneTemplate_runLogged clones
  have clonedWF : cloned.working.WellFormed := isCopy ▸ Document.ofJson_wellFormed template
  have clonedJson : cloned.working.toJson = template := by rw [isCopy, Document.toJson_ofJson]
  obtain ⟨object, markedJson, markedWF⟩ := Pass.markAsInstance_runLogged marks clonedWF
  obtain ⟨expandedWF, _⟩ := Pass.expandCollections_runLogged expands markedWF
    (by decide : Key.id ≠ Key.type)
  obtain ⟨mappedWF, _⟩ := Pass.mapScalars_runLogged maps expandedWF
    (by decide : Key.id ≠ Key.value)
  obtain ⟨strippedWF, emptied⟩ := Pass.stripQualifiers_runLogged strips mappedWF
  obtain ⟨hasId, strippedObject, finalJson⟩ := Pass.replaceIdentifier_runLogged replaces strippedWF
  have toExpanded := ((Pass.sameInputs_runLogged clones (Document.ofJson_wellFormed _)).trans
    (Pass.sameInputs_runLogged marks clonedWF)).trans (Pass.sameInputs_runLogged expands markedWF)
  have toStripped := (Pass.sameInputs_runLogged maps expandedWF).trans
    (Pass.sameInputs_runLogged strips mappedWF)
  rw [(toExpanded.trans toStripped).newId] at finalJson
  refine ⟨marked, expanded, mapped, ?_⟩
  rw [clonedJson] at object markedJson
  exact
    { object, marks := markedJson, wellFormed := markedWF, expands, inputs := toExpanded, maps
      starts := .later clones (.later marks (.here marked))
      finishes := ⟨stripped.working.toJson, emptied, strippedObject, hasId, finalJson⟩ }

/-- What is mapped is a template, and what comes out is an instance under the new identifier. -/
theorem isInstance_of_mapTemplate {template data filled : Json} {language newId moment : String}
    (done : mapTemplate template data language newId moment = .ok filled) :
    template.IsTemplate ∧ filled.IsInstance newId := by
  obtain ⟨marked, expanded, mapped, runs⟩ := runs_of_mapTemplate done
  obtain ⟨stripped, strips, object, hasId, rfl⟩ := runs.finishes
  have between : ∀ key, key ≠ Key.type → key ≠ Key.value →
      mapped.working.WellFormed ∧ marked.working.KeepsMember key mapped.working := by
    intro key notType notValue
    obtain ⟨expandedWF, early⟩ := Pass.expandCollections_runLogged runs.expands runs.wellFormed
      notType
    obtain ⟨mappedWF, late⟩ := Pass.mapScalars_runLogged runs.maps expandedWF notValue
    exact ⟨mappedWF, early.trans late⟩
  obtain ⟨mappedWF, keepsKind⟩ := between Key.kind (by decide) (by decide)
  obtain ⟨_, keepsId⟩ := between Key.id (by decide) (by decide)
  have markedKind : marked.working.toJson.member? Key.kind = some (.text instanceKind) := by
    rw [runs.marks, Json.member?_setMember_self runs.object]
  constructor
  · refine ⟨runs.object, ?_⟩
    rw [strips.member?_of_ne (by decide)] at hasId
    have markedId := keepsId.present_toJson runs.wellFormed mappedWF hasId
    rwa [runs.marks, Json.member?_setMember_of_ne _ _ (by decide)] at markedId
  · constructor
    case object =>
      obtain ⟨members, rfl⟩ := object
      exact ⟨_, rfl⟩
    case kind =>
      rw [Json.member?_setMember_of_ne _ _ (by decide), strips.member?_of_ne (by decide)]
      exact keepsKind.text_toJson runs.wellFormed mappedWF markedKind
    case id =>
      rw [Json.member?_setMember_self object]
      rfl
    case qualifiers =>
      intro found present
      rw [Json.member?_setMember_of_ne _ _ (by decide)] at present
      exact strips.empty found present

/-! ### Runs that can be evaluated -/

theorem Document.keysDistinct_ofJson_iff {value : Json} :
    (ofJson value).KeysDistinct ↔ value.KeysDistinct := by
  constructor
  · intro distinct
    have wellFormed := ofJson_wellFormed value
    have kept := wellFormed.keysDistinct_nodeToJson distinct wellFormed.rooted
    rwa [← toJson, toJson_ofJson] at kept
  · exact keysDistinct_ofJson

instance : DecidablePred Json.KeysDistinct := fun _ =>
  decidable_of_iff _ Document.keysDistinct_ofJson_iff

def mapWithin? (rounds : Nat) (template data : Json) (language newId moment : String) :
    Option Json := do
  let context := Context.start template data language newId moment
  let cloned ← (Pass.cloneTemplate.runLogged context).toOption
  let marked ← (Pass.markAsInstance.runLogged cloned).toOption
  let last ← Expansion.expandWithin? rounds (marked.log ("Started " ++ Pass.expandCollections.name))
  let expanded : Context :=
    { last with qualifier? := none, working := Expansion.restoreTags last.working }
  let after := expanded.log ("Finished " ++ Pass.expandCollections.name)
  let done ← (Pipeline.run [.mapScalars, .stripQualifiers, .replaceIdentifier] after).toOption
  return done.working.toJson

theorem mapTemplate_of_mapWithin? {rounds : Nat} {template data filled : Json}
    {language newId moment : String}
    (found : mapWithin? rounds template data language newId moment = some filled) :
    mapTemplate template data language newId moment = .ok filled := by
  unfold mapWithin? at found
  obtain ⟨cloned, clones, found⟩ := exists_of_toOption found
  obtain ⟨marked, marks, found⟩ := exists_of_toOption found
  obtain ⟨last, expanded, found⟩ := Option.bind_eq_some_iff.mp found
  obtain ⟨done, finishes, found⟩ := exists_of_toOption found
  cases found
  have ran : (marked.log ("Started " ++ Pass.expandCollections.name)).expandCollections =
      .ok { last with qualifier? := none, working := Expansion.restoreTags last.working } :=
    bind_eq_ok.mpr ⟨last, Expansion.expandAll_of_expandWithin? expanded, rfl⟩
  have expands : Pass.expandCollections.runLogged marked = .ok _ :=
    Pipeline.runLogged_eq_ok.mpr ⟨_, ran, rfl⟩
  unfold mapTemplate
  rw [bind_eq_ok]
  exact ⟨done, (bind_eq_ok ..).mpr ⟨cloned, clones, (bind_eq_ok ..).mpr ⟨marked, marks,
    (bind_eq_ok ..).mpr ⟨_, expands, finishes⟩⟩⟩, rfl⟩

end TemplateFill
