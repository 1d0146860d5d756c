import TemplateFill.Proofs.Batch.Calls
import TemplateFill.Proofs.Batch.Turns
import TemplateFill.Proofs.Mapping.Instance

/-!
The protocol that each task of a batch keeps to.

The calls of a task say what it may post and what its report has to be. That all runs keep to this
follows by induction on their turns, since a turn adds one call to those of one task. So it holds of
every interleaving of the tasks and of every service, and what the other tasks do makes no
difference.
-/

namespace TemplateFill

open Call (draws posts)

/-! ### What calls and reports say about each other -/

def Named (templateId : String) (calls : List Call) : Prop :=
  ∃ template name, .fetch (Text.base64Url templateId) (.ok template) ∈ calls ∧
    template.stringMember? Key.idShort = some name

/-- The template was fetched and has a short name, an identifier was drawn, and the instance that
the template is mapped to can be posted to the shell. -/
def Ready (order : Order) (templateId : String) (calls : List Call) (filled : Json)
    (submodelId : String) : Prop :=
  ∃ template newId more, .fetch (Text.base64Url templateId) (.ok template) ∈ calls ∧
    (∃ name, template.stringMember? Key.idShort = some name) ∧
    .drawIds 1 (.ok (newId :: more)) ∈ calls ∧
    Prepares order template newId filled submodelId

/-- What the calls of a task obey, however far it has come. -/
structure Lawful (order : Order) (templateId : String) (calls : List Call) : Prop where
  /-- The instance is posted first, and the reference once the instance is stored. -/
  posts : posts calls = [] ∨ ∃ filled submodelId answer,
    Ready order templateId calls filled submodelId ∧
      (posts calls = [instancePost order filled answer] ∨
        posts calls = [instancePost order filled (.ok ()), referencePost order submodelId answer])
  draws : draws calls = [] ∨ draws calls = [1] ∧ Named templateId calls

/-- What the calls of a finished task say about its report. -/
structure Settles (order : Order) (templateId : String) (calls : List Call) (report : Report) :
    Prop where
  requested : report.templateId = templateId
  success : report.success = true ↔ (posts calls).map Call.Post.answer = [.ok (), .ok ()]
  /-- A template that fails earlier posts nothing. -/
  posted : posts calls ≠ [] ↔ ∃ filled submodelId, Ready order templateId calls filled submodelId
  drawn : Named templateId calls → draws calls = [1]
  undrawn : ¬Named templateId calls → draws calls = []

section Laws

variable {order : Order} {templateId submodelId : String} {template filled : Json}
  {calls : List Call} {stage : Stage} {report : Report}

theorem Named.of_fetched {name : String} (named : template.stringMember? Key.idShort = some name)
    (later : List Call) :
    Named templateId (.fetch (Text.base64Url templateId) (.ok template) :: later) :=
  ⟨template, name, List.mem_cons_self .., named⟩

theorem Ready.of_prepares {name newId : String} {more : List String}
    (named : template.stringMember? Key.idShort = some name)
    (prepares : Prepares order template newId filled submodelId) (later : List Call) :
    Ready order templateId (.fetch (Text.base64Url templateId) (.ok template) ::
      .drawIds 1 (.ok (newId :: more)) :: later) filled submodelId :=
  ⟨template, newId, more, List.mem_cons_self .., ⟨name, named⟩,
    List.mem_cons_of_mem _ (List.mem_cons_self ..), prepares⟩

theorem Ends.lawful (ends : Ends order templateId calls stage) :
    Lawful order templateId calls := by
  cases ends with
  | unfetched _ | unnamed _ => exact ⟨Or.inl rfl, Or.inl rfl⟩
  | undrawn named _ | drewNone named | unmapped named _ | shellBlank named _ _
  | submodelBlank named _ _ _ => exact ⟨Or.inl rfl, Or.inr ⟨rfl, .of_fetched named _⟩⟩
  | @unposted _ filled _ _ submodelId _ named prepares failure =>
      exact ⟨Or.inr ⟨filled, submodelId, .error failure, .of_prepares named prepares _, Or.inl rfl⟩,
        Or.inr ⟨rfl, .of_fetched named _⟩⟩
  | @unreferenced _ filled _ _ submodelId _ named prepares failure =>
      exact ⟨Or.inr ⟨filled, submodelId, .error failure, .of_prepares named prepares _, Or.inr rfl⟩,
        Or.inr ⟨rfl, .of_fetched named _⟩⟩
  | @stored _ filled _ _ submodelId _ named prepares =>
      exact ⟨Or.inr ⟨filled, submodelId, .ok (), .of_prepares named prepares _, Or.inr rfl⟩,
        Or.inr ⟨rfl, .of_fetched named _⟩⟩

theorem Stage.Follows.lawful (follows : stage.Follows order templateId calls) :
    Lawful order templateId calls := by
  cases stage with
  | fetching =>
      obtain rfl := follows
      exact ⟨Or.inl rfl, Or.inl rfl⟩
  | drawing template =>
      obtain ⟨rfl, _⟩ := follows
      exact ⟨Or.inl rfl, Or.inl rfl⟩
  | posting newId filled submodelId =>
      obtain ⟨template, name, more, rfl, named, _⟩ := follows
      exact ⟨Or.inl rfl, Or.inr ⟨rfl, .of_fetched named _⟩⟩
  | referencing newId submodelId =>
      obtain ⟨template, name, more, filled, rfl, named, prepares⟩ := follows
      exact ⟨Or.inr ⟨filled, submodelId, .ok (), .of_prepares named prepares _, Or.inl rfl⟩,
        Or.inr ⟨rfl, .of_fetched named _⟩⟩
  | finished report errorLine? => exact Ends.lawful follows

/-- With the template that was fetched, an instance is ready only if it was mapped under the drawn
identifier. -/
theorem Ready.prepares {other : Json} {newId : String} {more : List String}
    {filled : Json} (ready : Ready order templateId [.fetch (Text.base64Url templateId) (.ok other),
      .drawIds 1 (.ok (newId :: more))] filled submodelId) :
    Prepares order other newId filled submodelId := by
  obtain ⟨template, drawnId, later, fetched, _, drawn, prepares⟩ := ready
  have sameTemplate : template = other := by simpa using fetched
  have sameId : drawnId = newId ∧ later = more := by simpa using drawn
  rwa [sameTemplate, sameId.1] at prepares

theorem Ends.posts_ne_nil (ends : Ends order templateId calls stage)
    (ready : Ready order templateId calls filled submodelId) : posts calls ≠ [] := by
  cases ends with
  | unfetched failure =>
      obtain ⟨template, newId, more, fetched, _⟩ := ready
      simp at fetched
  | unnamed nameless =>
      obtain ⟨template, newId, more, fetched, _, drawn, _⟩ := ready
      simp at drawn
  | undrawn _ _ | drewNone _ =>
      obtain ⟨template, newId, more, fetched, _, drawn, _⟩ := ready
      simp at drawn
  | unmapped named failed =>
      have mapped := ready.prepares.mapped
      rw [failed] at mapped
      cases mapped
  | shellBlank named mapped blank =>
      have shell := ready.prepares.shell
      rw [blank] at shell
      cases shell
  | submodelBlank named mapped shell blank =>
      have prepares := ready.prepares
      obtain rfl := Except.ok.inj (mapped.symm.trans prepares.mapped)
      have filledIn := prepares.submodel
      rw [blank _ prepares.holds] at filledIn
      cases filledIn
  | unposted _ _ _ | unreferenced _ _ _ | stored _ _ => exact nofun

theorem Ends.posted_iff (ends : Ends order templateId calls stage) :
    posts calls ≠ [] ↔ ∃ filled submodelId, Ready order templateId calls filled submodelId := by
  constructor
  · intro some
    rcases ends.lawful.posts with none | ⟨filled, submodelId, _, ready, _⟩
    · exact absurd none some
    · exact ⟨filled, submodelId, ready⟩
  · rintro ⟨filled, submodelId, ready⟩
    exact ends.posts_ne_nil ready

theorem Ends.requested (ends : Ends order templateId calls stage)
    (reported : stage.report? = some report) : report.templateId = templateId := by
  cases ends <;> exact (Option.some.inj reported) ▸ rfl

theorem Ends.success_iff (ends : Ends order templateId calls stage)
    (reported : stage.report? = some report) :
    report.success = true ↔ (posts calls).map Call.Post.answer = [.ok (), .ok ()] := by
  cases ends with
  | stored named prepares =>
      obtain rfl := Option.some.inj reported
      exact ⟨fun _ => rfl, fun _ => rfl⟩
  | _ =>
      obtain rfl := Option.some.inj reported
      exact ⟨nofun, nofun⟩

theorem Ends.draws_iff (ends : Ends order templateId calls stage) :
    (Named templateId calls → draws calls = [1]) ∧
      (¬Named templateId calls → draws calls = []) := by
  cases ends with
  | unfetched failure =>
      refine ⟨?_, fun _ => rfl⟩
      rintro ⟨template, name, fetched, named⟩
      simp at fetched
  | @unnamed other nameless =>
      refine ⟨?_, fun _ => rfl⟩
      rintro ⟨template, name, fetched, named⟩
      have same : template = other := by simpa using fetched
      rw [same, nameless] at named
      cases named
  | undrawn named _ | drewNone named | unmapped named _ | shellBlank named _ _
  | submodelBlank named _ _ _ | unposted named _ _ | unreferenced named _ _ | stored named _ =>
      exact ⟨fun _ => rfl, absurd (.of_fetched named _)⟩

theorem Ends.settles (ends : Ends order templateId calls stage)
    (reported : stage.report? = some report) : Settles order templateId calls report :=
  { requested := ends.requested reported
    success := ends.success_iff reported
    posted := ends.posted_iff
    drawn := ends.draws_iff.1
    undrawn := ends.draws_iff.2 }

end Laws

/-! ### Runs -/

namespace Batch

variable {World : Type} {services : Services World} {order : Order} {templateIds : List String}
  {turns : List Nat} {batch : Batch} {world : World} {log : CallLog}

/-- A turn of a task that is finished, or of none, changes nothing. Any other turn makes one call,
and changes that task alone. -/
theorem turn_cases (services : Services World) (order : Order) (batch : Batch) (position : Nat)
    (world : World) (log : CallLog) :
    ((∀ task, batch.tasks[position]? = some task → task.stage.report? ≠ none) ∧
      batch.turn services order position world = (batch, world) ∧
      batch.turn (services.logged position) order position (world, log) = (batch, world, log)) ∨
    ∃ task call next lines after, batch.tasks[position]? = some task ∧
      task.stage.Asks order task.templateId call next ∧
      batch.turn services order position world =
        (⟨batch.tasks.set position { task with stage := next }, lines⟩, after) ∧
      batch.turn (services.logged position) order position (world, log) =
        (⟨batch.tasks.set position { task with stage := next }, lines⟩, after,
          log ++ [(position, call)]) := by
  unfold turn
  cases found : batch.tasks[position]? with
  | none => exact Or.inl ⟨nofun, rfl, rfl⟩
  | some task =>
      dsimp only
      cases finished : task.isFinished with
      | true =>
          refine Or.inl ⟨?_, rfl, rfl⟩
          rintro _ ⟨⟩
          exact Option.isSome_iff_ne_none.mp finished
      | false =>
          have working : task.stage.report? = none :=
            Option.isNone_iff_eq_none.mp (Option.isSome_eq_false_iff.mp finished)
          obtain ⟨call, next, after, asks, plain, logged⟩ :=
            Stage.exists_call working services position world log
          refine Or.inr ⟨task, call, next, batch.errorLines ++ lineLeft next, after, rfl, asks, ?_⟩
          simp only [Bool.false_eq_true, if_false, bind, StateT.bind, plain, logged]
          exact ⟨rfl, rfl⟩

/-- What holds of a batch and of its log behind some turns. -/
structure Keeps (order : Order) (templateIds : List String) (turns : List Nat) (log : CallLog)
    (batch : Batch) : Prop where
  requested : batch.tasks.map Task.templateId = templateIds
  follows : ∀ (position : Nat) (task : Task), batch.tasks[position]? = some task →
    task.stage.Follows order task.templateId (log.of position)
  known : ∀ entry ∈ log, entry.1 < templateIds.length
  working : ∀ (position : Nat) (task : Task), batch.tasks[position]? = some task →
    task.stage.report? = none → (log.of position).length = turns.count position

theorem keeps_start (order : Order) (templateIds : List String) :
    Keeps order templateIds [] [] (start templateIds) := by
  have fetching : ∀ (position : Nat) (task : Task),
      (start templateIds).tasks[position]? = some task → task.stage = .fetching := by
    intro position task found
    rw [start, List.getElem?_map] at found
    obtain ⟨templateId, _, rfl⟩ := Option.map_eq_some_iff.mp found
    rfl
  refine ⟨?_, fun position task found => ?_, nofun, fun position task found => ?_⟩
  · rw [start, List.map_map]
    exact List.map_id _
  · rw [fetching position task found]
    rfl
  · exact fun _ => rfl

theorem of_append_singleton (log : CallLog) (position other : Nat) (call : Call) :
    CallLog.of (log ++ [(position, call)]) other =
      if position = other then log.of other ++ [call] else log.of other := by
  by_cases same : position = other
  · simp [CallLog.of, List.filter_append, same]
  · simp [CallLog.of, List.filter_append, same]

theorem Keeps.turn (keeps : Keeps order templateIds turns log batch) (services : Services World)
    (position : Nat) (world : World) :
    ∃ next after later, batch.turn services order position world = (next, after) ∧
      batch.turn (services.logged position) order position (world, log) = (next, after, later) ∧
      Keeps order templateIds (turns ++ [position]) later next := by
  have counted : ∀ other, (turns ++ [position]).count other =
      turns.count other + if position = other then 1 else 0 := by
    intro other
    rw [List.count_append, List.count_singleton]
    simp only [beq_iff_eq]
  rcases turn_cases services order batch position world log with
    ⟨finished, plain, logged⟩ | ⟨task, call, next, lines, after, found, asks, plain, logged⟩
  · refine ⟨_, _, _, plain, logged, keeps.requested, keeps.follows, keeps.known, ?_⟩
    intro other task found
    rw [counted]
    by_cases same : position = other
    · exact fun unfinished => absurd unfinished (finished task (same ▸ found))
    · rw [if_neg same]
      exact keeps.working other task found
  · refine ⟨_, _, _, plain, logged, ?_, ?_, ?_, ?_⟩
    · rw [← keeps.requested]
      exact map_set_of_eq found rfl
    · intro other current given
      rw [of_append_singleton]
      rcases getElem?_set_cases given with ⟨rfl, rfl⟩ | ⟨different, given⟩
      · rw [if_pos rfl]
        exact asks.follows (keeps.follows position task found)
      · rw [if_neg different]
        exact keeps.follows other current given
    · intro entry inside
      rcases List.mem_append.mp inside with old | new
      · exact keeps.known entry old
      · rw [List.mem_singleton.mp new, ← keeps.requested, List.length_map]
        exact (List.getElem?_eq_some_iff.mp found).1
    · intro other current given
      rw [counted, of_append_singleton]
      rcases getElem?_set_cases given with ⟨rfl, rfl⟩ | ⟨different, given⟩
      · rw [if_pos rfl, if_pos rfl, List.length_append,
          keeps.working position task found asks.working]
        exact fun _ => rfl
      · rw [if_neg different, if_neg different]
        exact keeps.working other current given

/-- A run keeps what holds of a batch, and the log changes nothing else. -/
theorem Keeps.run {earlier : List Nat} (keeps : Keeps order templateIds earlier log batch)
    (services : Services World) (turns : List Nat) (world : World) :
    ∃ last after later, batch.run services order turns world = (last, after) ∧
      batch.runLogged services order turns (world, log) = (last, after, later) ∧
      Keeps order templateIds (earlier ++ turns) later last := by
  induction turns generalizing earlier log batch world with
  | nil => exact ⟨batch, world, log, rfl, rfl, by rwa [List.append_nil]⟩
  | cons position turns ih =>
      obtain ⟨next, between, entered, plain, logged, kept⟩ := keeps.turn services position world
      obtain ⟨last, after, later, ran, ranLogged, keptToEnd⟩ := ih kept between
      refine ⟨last, after, later, ?_, ?_, by rwa [List.append_assoc] at keptToEnd⟩
      · rw [Batch.run, List.foldlM_cons]
        simp only [bind, StateT.bind, plain]
        exact ran
      · rw [runLogged, List.foldlM_cons]
        simp only [bind, StateT.bind, logged]
        exact ranLogged

end Batch

end TemplateFill
