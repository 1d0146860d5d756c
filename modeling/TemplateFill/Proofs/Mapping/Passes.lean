import TemplateFill.Mapping.Pipeline
import TemplateFill.Proofs.Mapping.Marks
import TemplateFill.Proofs.Mapping.Rounds
import TemplateFill.Proofs.Mapping.Scalars

/-!
Passes in a row.

A pass starts when all passes in front of it have succeeded. If no object of the template and of the
data has a key twice, then none below the root of the working document has in any state in which a
pass starts: passes write constants, texts, and values that a path selects in the data.
-/

namespace TemplateFill

/-! ### Values of the data -/

namespace Tree

theorem keysDistinct_carries : View.Carries view Json.view toJson KeysDistinct :=
  { member? := fun tree _ => toJson_carries.member? tree trivial
    element? := fun tree _ => toJson_carries.element? tree trivial
    children := fun tree _ => toJson_carries.children tree trivial
    scalar? := fun tree _ => toJson_carries.scalar? tree trivial
    descendants := fun tree _ => toJson_carries.descendants tree trivial
    memberWithin := fun _ distinct _ found present =>
      (keysDistinct_iff.mp distinct).2 found (mem_children_of_member? present)
    elementWithin := fun _ distinct _ found present =>
      (keysDistinct_iff.mp distinct).2 found (mem_children_of_element? present)
    childWithin := fun _ distinct => (keysDistinct_iff.mp distinct).2
    descendantWithin := by
      intro tree distinct below inside deeper within
      rw [descendants_view] at inside
      exact distinct deeper (preorder_trans inside within) }

end Tree

theorem Query.keysDistinct_of_selectOneIn {data found : Json} {path : String}
    (distinct : data.KeysDistinct) (selects : Query.selectOneIn data path = .ok (some found)) :
    found.KeysDistinct := by
  obtain ⟨query, _, selects⟩ := bind_eq_ok.mp selects
  have value : (Tree.ofJson 0 data).toJson = data := Tree.toJson_place ..
  have apart : (Tree.ofJson 0 data).KeysDistinct := Tree.keysDistinct_place distinct
  obtain ⟨mapped, kept⟩ := Tree.keysDistinct_carries.select_root apart query.segments
  rw [value] at mapped
  rw [selectOne, select, mapped] at selects
  split at selects
  · cases selects
  · rename_i node single
    cases selects
    obtain ⟨tree, inside, rfl⟩ := List.mem_map.mp (single ▸ List.mem_singleton.mpr rfl)
    exact Tree.keysDistinct_toJson.mpr (kept tree inside)
  · cases selects

theorem Json.keysDistinct_text (text : String) : (Json.text text).KeysDistinct := .scalar _

theorem Scalars.keysDistinct_valueFor (kind : ModelType) (language : String) {value : Json}
    (distinct : value.KeysDistinct) : (valueFor kind language value).KeysDistinct := by
  unfold valueFor
  split
  · refine .array fun element inside => ?_
    rw [List.mem_singleton.mp inside]
    refine .object (show [Key.text, Key.language].Nodup by decide) fun member listed => ?_
    rcases List.mem_pair.mp listed with rfl | rfl
    · exact distinct
    · exact Json.keysDistinct_text language
  · exact distinct

theorem Expansion.sound_restoreTags {document : Document} (sound : document.Sound) :
    (restoreTags document).Sound := by
  obtain ⟨tree, top, holds⟩ := sound.wellFormed.grounded sound.wellFormed.rooted
  obtain ⟨texts, restoredWF, restoredHolds, _⟩ := restoreTags_holds sound.wellFormed holds top
  have distinct := (Document.attachedKeysDistinct_iff sound.wellFormed holds top).mp sound.keys
  have restoredTop : (tree.retext texts).number = Document.root := by rw [Tree.number_retext, top]
  exact ⟨restoredWF, (Document.attachedKeysDistinct_iff restoredWF restoredHolds restoredTop).mpr
    (distinct.retext texts)⟩

theorem Expansion.expandCollections_of_none {context : Context}
    (none : context.working.qualifiers Document.root .collectionMappingInfo = []) :
    context.expandCollections =
      .ok { context with qualifier? := .none, working := restoreTags context.working } := by
  rw [Context.expandCollections, (Run.done (round_eq_none_iff.mpr none)).expandAll_eq]
  rfl

/-! ### States between passes -/

namespace Context

structure Sound (context : Context) : Prop where
  template : context.template.KeysDistinct
  data : context.data.KeysDistinct
  working : context.working.Sound

variable {context after : Context}

theorem sound_start {template data : Json} (templateDistinct : template.KeysDistinct)
    (dataDistinct : data.KeysDistinct) (language newId moment : String) :
    (start template data language newId moment).Sound :=
  { template := templateDistinct
    data := dataDistinct
    working := Document.sound_ofJson (.object List.nodup_nil nofun) }

namespace Sound

theorem log (sound : context.Sound) (message : String) : (context.log message).Sound :=
  ⟨sound.template, sound.data, sound.working⟩

theorem setRootMember (sound : context.Sound) {key : String} {value : Json}
    (distinct : value.KeysDistinct) (done : context.setRootMember key value = .ok after) :
    after.Sound := by
  obtain ⟨⟨document, member⟩, written, done⟩ := bind_eq_ok.mp done
  rw [Context.edited_eq_ok] at written
  cases done
  exact ⟨sound.template, sound.data, sound.working.setMember distinct written⟩

theorem stripQualifiers (sound : context.Sound) (done : context.stripQualifiers = .ok after) :
    after.Sound := by
  rw [Context.stripQualifiers] at done
  split at done
  · have empty : (Json.array []).KeysDistinct := .array nofun
    exact sound.setRootMember empty done
  · cases done
    exact sound

theorem replaceIdentifier (sound : context.Sound) (done : context.replaceIdentifier = .ok after) :
    after.Sound := by
  rw [Context.replaceIdentifier] at done
  split at done
  · rename_i id found
    cases done
    have link := sound.working.wellFormed.parent?_of_member? found
    have written := sound.working.replaceValue (Document.lt_size_of_parent? link)
      (Json.keysDistinct_text context.newId)
    exact ⟨sound.template, sound.data, written⟩
  · cases done

theorem fill (sound : context.Sound) {qualifier : NodeId}
    (done : Scalars.fill context qualifier = .ok after) : after.Sound := by
  obtain ⟨owner, kind, path, ensured, _, _, _, same, first, second⟩ := Scalars.fill_ok done
  have ensuredSound : ensured.Sound := by
    rcases first with rfl | ⟨_, place, written⟩
    · exact sound.working
    · exact sound.working.setMember (Json.keysDistinct_text "") written
  refine ⟨same.template ▸ sound.template, same.data ▸ sound.data, ?_⟩
  rcases second with ⟨_, rfl⟩ | ⟨node, place, selects, written⟩
  · exact ensuredSound
  · have distinct := Query.keysDistinct_of_selectOneIn sound.data selects
    exact ensuredSound.setMember (Scalars.keysDistinct_valueFor _ _ distinct) written

theorem withQualifier (sound : context.Sound) (qualifier? : Option NodeId) :
    Sound { context with qualifier? } :=
  ⟨sound.template, sound.data, sound.working⟩

theorem fillEach (sound : context.Sound) {qualifiers : List NodeId}
    (done : Scalars.fillEach qualifiers context = .ok after) : after.Sound := by
  induction qualifiers generalizing context with
  | nil =>
      cases done
      exact sound
  | cons qualifier rest ih =>
      obtain ⟨next, ⟨_, filled⟩ | ⟨_, rfl⟩, remaining⟩ := (Scalars.fillEach_cons ..).mp done
      · exact ih ((sound.withQualifier _).fill filled) remaining
      · exact ih sound remaining

theorem rounds (sound : context.Sound) (rounds : Expansion.Rounds context after) : after.Sound := by
  obtain ⟨template, data⟩ := rounds.inputs
  exact ⟨template ▸ sound.template, data ▸ sound.data, rounds.sound sound.working⟩

theorem expandCollections (sound : context.Sound) (done : context.expandCollections = .ok after) :
    after.Sound := by
  obtain ⟨last, rounds, ⟨ran, _⟩ | ⟨failure, failed, _⟩⟩ :=
    Expansion.exists_last sound.working.wellFormed
  · rw [Context.expandCollections, ran] at done
    cases done
    have lastSound := sound.rounds rounds
    exact ⟨lastSound.template, lastSound.data, Expansion.sound_restoreTags lastSound.working⟩
  · rw [Context.expandCollections, failed] at done
    cases done

end Sound

end Context

theorem Pass.sound_run {context after : Context} (sound : context.Sound) (pass : Pass)
    (done : pass.run context = .ok after) : after.Sound := by
  cases pass with
  | cloneTemplate =>
      cases done
      exact ⟨sound.template, sound.data, Document.sound_ofJson sound.template⟩
  | markAsInstance => exact sound.setRootMember (Json.keysDistinct_text _) done
  | expandCollections => exact sound.expandCollections done
  | mapScalars => exact sound.fillEach done
  | stripQualifiers => exact sound.stripQualifiers done
  | replaceIdentifier => exact sound.replaceIdentifier done

/-! ### Pipelines -/

namespace Pipeline

inductive Starts : Pipeline → Context → Pass → Context → Prop
  | here {pass : Pass} {rest : Pipeline} (context : Context) :
      Starts (pass :: rest) context pass (context.log ("Started " ++ pass.name))
  | later {first pass : Pass} {rest : Pipeline} {context next state : Context}
      (ran : first.runLogged context = .ok next) (starts : Starts rest next pass state) :
      Starts (first :: rest) context pass state

variable {pipeline : Pipeline} {context state : Context} {pass : Pass} {failure : Failure}

theorem runLogged_eq_ok {next : Context} : pass.runLogged context = .ok next ↔
    ∃ after, pass.run (context.log ("Started " ++ pass.name)) = .ok after ∧
      next = after.log ("Finished " ++ pass.name) := by
  rw [Pass.runLogged, bind_eq_ok]
  constructor
  · rintro ⟨after, done, same⟩
    cases same
    exact ⟨after, done, rfl⟩
  · rintro ⟨after, done, rfl⟩
    exact ⟨after, done, rfl⟩

theorem runLogged_eq_error : pass.runLogged context = .error failure ↔
    pass.run (context.log ("Started " ++ pass.name)) = .error failure := by
  rw [Pass.runLogged, bind_eq_error]
  constructor
  · rintro (failed | ⟨after, _, impossible⟩)
    · exact failed
    · cases impossible
  · exact Or.inl

/-- A pipeline fails with the failure of a pass that starts. -/
theorem run_eq_error : pipeline.run context = .error failure ↔
    ∃ pass state, pipeline.Starts context pass state ∧ pass.run state = .error failure := by
  induction pipeline generalizing context with
  | nil =>
      constructor
      · exact nofun
      · rintro ⟨_, _, ⟨⟩, _⟩
  | cons first rest ih =>
      rw [run, bind_eq_error, runLogged_eq_error]
      constructor
      · rintro (failed | ⟨next, ran, failed⟩)
        · exact ⟨first, _, .here context, failed⟩
        · obtain ⟨pass, state, starts, here⟩ := ih.mp failed
          exact ⟨pass, state, .later ran starts, here⟩
      · rintro ⟨pass, state, _ | ⟨ran, starts⟩, failed⟩
        · exact Or.inl failed
        · exact Or.inr ⟨_, ran, ih.mpr ⟨pass, state, starts, failed⟩⟩

theorem sound_runLogged {next : Context} (sound : context.Sound)
    (done : pass.runLogged context = .ok next) : next.Sound := by
  obtain ⟨after, ran, rfl⟩ := runLogged_eq_ok.mp done
  exact (pass.sound_run (sound.log _) ran).log _

theorem Starts.sound (starts : pipeline.Starts context pass state) (sound : context.Sound) :
    state.Sound := by
  induction starts with
  | here context => exact sound.log _
  | later ran _ ih => exact ih (sound_runLogged sound ran)

end Pipeline

end TemplateFill
