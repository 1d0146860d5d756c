import TemplateFill.Batch.Run

/-!
The calls that a batch makes, and the stages that they lead through.

The services can be made to keep a log: each call is entered with its answer, under the position of
the task whose turn it is. A task makes one call in each of its turns until it ends, and the calls
that it has made say which stage it has come to. There are ten ways for them to end.
-/

namespace TemplateFill

inductive Call where
  | fetch (encodedId : String) (answer : Except ServiceError Json)
  | drawIds (count : Nat) (answer : Except ServiceError (List String))
  | post (path body : String) (answer : Except ServiceError Unit)

abbrev CallLog := List (Nat × Call)

def CallLog.of (log : CallLog) (position : Nat) : List Call :=
  (log.filter fun entry => entry.1 == position).map Prod.snd

namespace Call

def draws (calls : List Call) : List Nat :=
  calls.filterMap fun
    | drawIds count _ => some count
    | _ => none

structure Post where
  path : String
  body : String
  answer : Except ServiceError Unit

def posts (calls : List Call) : List Post :=
  calls.filterMap fun
    | post path body answer => some ⟨path, body, answer⟩
    | _ => none

end Call

/-! ### Services with a log -/

variable {World : Type}

def enter {α : Type} (position : Nat) (call : α → Call) (ask : StateM World α) :
    StateM (World × CallLog) α := fun (world, log) =>
  let (answer, after) := ask world
  (answer, after, log ++ [(position, call answer)])

/-- The services, with a log of the calls that the task at a position makes. -/
def Services.logged (services : Services World) (position : Nat) : Services (World × CallLog) :=
  { fetch := fun encodedId => enter position (.fetch encodedId) (services.fetch encodedId)
    drawIds := fun count => enter position (.drawIds count) (services.drawIds count)
    post := fun path body => enter position (.post path body) (services.post path body) }

/-- A run that logs the calls of each turn under the position of the task that takes it. -/
def Batch.runLogged (services : Services World) (order : Order) (turns : List Nat) (batch : Batch) :
    StateM (World × CallLog) Batch :=
  turns.foldlM (fun batch position => batch.turn (services.logged position) order position) batch

/-! ### One turn -/

/-- What a task at a stage asks, and the stage that the answer leads to. -/
inductive Stage.Asks (order : Order) (templateId : String) : Stage → Call → Stage → Prop
  | fetch (answer : Except ServiceError Json) :
      Asks order templateId .fetching (.fetch (Text.base64Url templateId) answer)
        (.fetched templateId answer)
  | drawIds (template : Json) (answer : Except ServiceError (List String)) :
      Asks order templateId (.drawing template) (.drawIds 1 answer)
        (.drawn order templateId template answer)
  | postInstance (newId : String) (filled : Json) (submodelId : String)
      (answer : Except ServiceError Unit) :
      Asks order templateId (.posting newId filled submodelId)
        (.post order.config.submodelPath filled.compact answer)
        (.posted order templateId newId submodelId answer)
  | postReference (newId submodelId : String) (answer : Except ServiceError Unit) :
      Asks order templateId (.referencing newId submodelId)
        (.post (RepositoryConfig.below order.config.referencePath order.shellId)
          (Reference.toSubmodel submodelId).toJson.compact answer)
        (.referenced order templateId newId answer)

section Turn

variable {services : Services World} {order : Order} {templateId : String} {stage next : Stage}
  {call : Call} {world after : World} {log : CallLog}

/-- An unfinished task makes one call in its turn, with or without a log. -/
theorem Stage.exists_call (working : stage.report? = none) (services : Services World)
    (position : Nat) (world : World) (log : CallLog) :
    ∃ call next after, Stage.Asks order templateId stage call next ∧
      stage.turn services order templateId world = (next, after) ∧
      stage.turn (services.logged position) order templateId (world, log) =
        (next, after, log ++ [(position, call)]) := by
  cases stage with
  | fetching =>
      exact ⟨_, _, _, .fetch (services.fetch (Text.base64Url templateId) world).1, rfl, rfl⟩
  | drawing template =>
      exact ⟨_, _, _, .drawIds template (services.drawIds 1 world).1, rfl, rfl⟩
  | posting newId filled submodelId =>
      exact ⟨_, _, _, .postInstance newId filled submodelId
        (services.post order.config.submodelPath filled.compact world).1, rfl, rfl⟩
  | referencing newId submodelId =>
      exact ⟨_, _, _, .postReference newId submodelId
        (services.post (RepositoryConfig.below order.config.referencePath order.shellId)
          (Reference.toSubmodel submodelId).toJson.compact world).1, rfl, rfl⟩
  | finished report errorLine? => cases working

theorem Stage.Asks.working (asks : Stage.Asks order templateId stage call next) :
    stage.report? = none := by
  cases asks <;> rfl

end Turn

/-! ### Calls of a task -/

section Task

variable {order : Order} {templateId : String}

/-- The instance of a fetched template under a drawn identifier, ready to be posted. -/
structure Prepares (order : Order) (template : Json) (newId : String) (filled : Json)
    (submodelId : String) : Prop where
  mapped : mapTemplate template order.data order.language newId order.moment.spaced = .ok filled
  shell : Text.isBlankText order.shellId = false
  holds : filled.stringMember? Key.id = some submodelId
  submodel : Text.isBlankText submodelId = false

def instancePost (order : Order) (filled : Json) (answer : Except ServiceError Unit) : Call.Post :=
  ⟨order.config.submodelPath, filled.compact, answer⟩

def referencePost (order : Order) (submodelId : String) (answer : Except ServiceError Unit) :
    Call.Post :=
  ⟨RepositoryConfig.below order.config.referencePath order.shellId,
    (Reference.toSubmodel submodelId).toJson.compact, answer⟩

def Call.Post.call (posted : Call.Post) : Call := .post posted.path posted.body posted.answer

/-- The calls with which the work on a template ends, and the stage that it ends in. -/
inductive Ends (order : Order) (templateId : String) : List Call → Stage → Prop
  | unfetched (failure : ServiceError) :
      Ends order templateId [.fetch (Text.base64Url templateId) (.error failure)]
        (.fetchFailed templateId failure)
  | unnamed {template : Json} (nameless : template.stringMember? Key.idShort = none) :
      Ends order templateId [.fetch (Text.base64Url templateId) (.ok template)]
        (.shortNameMissing templateId)
  | undrawn {template : Json} {name : String}
      (named : template.stringMember? Key.idShort = some name) (failure : ServiceError) :
      Ends order templateId
        [.fetch (Text.base64Url templateId) (.ok template), .drawIds 1 (.error failure)]
        (.drawFailed templateId failure)
  | drewNone {template : Json} {name : String}
      (named : template.stringMember? Key.idShort = some name) :
      Ends order templateId
        [.fetch (Text.base64Url templateId) (.ok template), .drawIds 1 (.ok [])]
        (.drawFailed templateId Stage.noIdentifier)
  | unmapped {template : Json} {name newId : String} {more : List String} {failure : Failure}
      (named : template.stringMember? Key.idShort = some name)
      (failed : mapTemplate template order.data order.language newId order.moment.spaced =
        .error failure) :
      Ends order templateId
        [.fetch (Text.base64Url templateId) (.ok template), .drawIds 1 (.ok (newId :: more))]
        (.mapFailed templateId failure)
  | shellBlank {template filled : Json} {name newId : String} {more : List String}
      (named : template.stringMember? Key.idShort = some name)
      (mapped : mapTemplate template order.data order.language newId order.moment.spaced =
        .ok filled)
      (blank : Text.isBlankText order.shellId = true) :
      Ends order templateId
        [.fetch (Text.base64Url templateId) (.ok template), .drawIds 1 (.ok (newId :: more))]
        (.storeFailed order templateId "The aas id cannot be empty!")
  | submodelBlank {template filled : Json} {name newId : String} {more : List String}
      (named : template.stringMember? Key.idShort = some name)
      (mapped : mapTemplate template order.data order.language newId order.moment.spaced =
        .ok filled)
      (shell : Text.isBlankText order.shellId = false)
      (blank : ∀ submodelId, filled.stringMember? Key.id = some submodelId →
        Text.isBlankText submodelId = true) :
      Ends order templateId
        [.fetch (Text.base64Url templateId) (.ok template), .drawIds 1 (.ok (newId :: more))]
        (.storeFailed order templateId "The submodel id cannot be empty!")
  | unposted {template filled : Json} {name newId submodelId : String} {more : List String}
      (named : template.stringMember? Key.idShort = some name)
      (prepares : Prepares order template newId filled submodelId) (failure : ServiceError) :
      Ends order templateId
        [.fetch (Text.base64Url templateId) (.ok template), .drawIds 1 (.ok (newId :: more)),
          (instancePost order filled (.error failure)).call]
        (.storeFailed order templateId failure.message)
  | unreferenced {template filled : Json} {name newId submodelId : String} {more : List String}
      (named : template.stringMember? Key.idShort = some name)
      (prepares : Prepares order template newId filled submodelId) (failure : ServiceError) :
      Ends order templateId
        [.fetch (Text.base64Url templateId) (.ok template), .drawIds 1 (.ok (newId :: more)),
          (instancePost order filled (.ok ())).call,
          (referencePost order submodelId (.error failure)).call]
        (.storeFailed order templateId failure.message)
  | stored {template filled : Json} {name newId submodelId : String} {more : List String}
      (named : template.stringMember? Key.idShort = some name)
      (prepares : Prepares order template newId filled submodelId) :
      Ends order templateId
        [.fetch (Text.base64Url templateId) (.ok template), .drawIds 1 (.ok (newId :: more)),
          (instancePost order filled (.ok ())).call, (referencePost order submodelId (.ok ())).call]
        (.finished (.succeeded templateId newId) none)

/-- The calls with which a task comes to a stage. -/
def Stage.Follows (order : Order) (templateId : String) (calls : List Call) : Stage → Prop
  | .fetching => calls = []
  | .drawing template =>
      calls = [.fetch (Text.base64Url templateId) (.ok template)] ∧
        ∃ name, template.stringMember? Key.idShort = some name
  | .posting newId filled submodelId => ∃ template name more,
      calls =
        [.fetch (Text.base64Url templateId) (.ok template), .drawIds 1 (.ok (newId :: more))] ∧
      template.stringMember? Key.idShort = some name ∧
      Prepares order template newId filled submodelId
  | .referencing newId submodelId => ∃ template name more filled,
      calls = [.fetch (Text.base64Url templateId) (.ok template),
        .drawIds 1 (.ok (newId :: more)), (instancePost order filled (.ok ())).call] ∧
      template.stringMember? Key.idShort = some name ∧
      Prepares order template newId filled submodelId
  | .finished report errorLine? => Ends order templateId calls (.finished report errorLine?)

theorem Stage.Follows.ends {stage : Stage} {calls : List Call} {report : Report}
    (follows : stage.Follows order templateId calls) (reported : stage.report? = some report) :
    Ends order templateId calls stage := by
  cases stage with
  | finished _ _ => exact follows
  | _ => cases reported

theorem Stage.Follows.length_lt {stage : Stage} {calls : List Call}
    (follows : stage.Follows order templateId calls) (working : stage.report? = none) :
    calls.length < Batch.turnsToFinish := by
  cases stage with
  | fetching =>
      obtain rfl := follows
      exact Nat.zero_lt_succ 3
  | drawing template =>
      obtain ⟨rfl, _⟩ := follows
      exact Nat.succ_lt_succ (Nat.zero_lt_succ 2)
  | posting newId filled submodelId =>
      obtain ⟨template, name, more, rfl, _⟩ := follows
      exact Nat.succ_lt_succ (Nat.succ_lt_succ (Nat.zero_lt_succ 1))
  | referencing newId submodelId =>
      obtain ⟨template, name, more, filled, rfl, _⟩ := follows
      exact Nat.lt_succ_self 3
  | finished report errorLine? => cases working

theorem Stage.follows_fetched (answer : Except ServiceError Json) :
    (Stage.fetched templateId answer).Follows order templateId
      [.fetch (Text.base64Url templateId) answer] := by
  cases answer with
  | error failure => exact Ends.unfetched failure
  | ok template =>
      rw [fetched]
      cases named : template.stringMember? Key.idShort with
      | none => exact Ends.unnamed named
      | some name => exact ⟨rfl, name, named⟩

theorem Stage.follows_mapped {template filled : Json} {name newId : String} {more : List String}
    (named : template.stringMember? Key.idShort = some name)
    (mapped : mapTemplate template order.data order.language newId order.moment.spaced =
      .ok filled) :
    (Stage.mapped order templateId newId filled).Follows order templateId
      [.fetch (Text.base64Url templateId) (.ok template), .drawIds 1 (.ok (newId :: more))] := by
  rw [Stage.mapped]
  split
  · rename_i blank
    exact Ends.shellBlank named mapped blank
  · rename_i shell
    rw [Bool.not_eq_true] at shell
    split
    · rename_i missing
      rw [Option.filter_eq_none_iff] at missing
      refine Ends.submodelBlank named mapped shell fun submodelId holds => ?_
      have unfilled := missing submodelId holds
      rwa [Bool.not_eq_true', Bool.not_eq_false] at unfilled
    · rename_i submodelId found
      obtain ⟨held, filledIn⟩ := Option.filter_eq_some_iff.mp found
      rw [Bool.not_eq_true'] at filledIn
      exact ⟨template, name, more, rfl, named, mapped, shell, held, filledIn⟩

theorem Stage.drawn_of_mapTemplate {template filled : Json} {newId : String}
    (mapped : mapTemplate template order.data order.language newId order.moment.spaced =
      .ok filled) (templateId : String) (more : List String) :
    Stage.drawn order templateId template (.ok (newId :: more)) =
      Stage.mapped order templateId newId filled := by
  rw [drawn, firstDrawn]
  dsimp only
  rw [mapped]

theorem Stage.follows_drawn {template : Json} {name : String}
    (named : template.stringMember? Key.idShort = some name)
    (answer : Except ServiceError (List String)) :
    (Stage.drawn order templateId template answer).Follows order templateId
      [.fetch (Text.base64Url templateId) (.ok template), .drawIds 1 answer] := by
  match answer with
  | .error failure => exact Ends.undrawn named failure
  | .ok [] => exact Ends.drewNone named
  | .ok (newId :: more) =>
      cases mapped : mapTemplate template order.data order.language newId order.moment.spaced with
      | error failure =>
          rw [drawn, firstDrawn]
          dsimp only
          rw [mapped]
          exact Ends.unmapped named mapped
      | ok filled =>
          rw [drawn_of_mapTemplate mapped]
          exact follows_mapped named mapped

theorem Stage.Asks.follows {stage next : Stage} {call : Call} {calls : List Call}
    (asks : Stage.Asks order templateId stage call next)
    (before : stage.Follows order templateId calls) :
    next.Follows order templateId (calls ++ [call]) := by
  cases asks with
  | fetch answer =>
      obtain rfl := before
      exact follows_fetched answer
  | drawIds template answer =>
      obtain ⟨rfl, name, named⟩ := before
      exact follows_drawn named answer
  | postInstance newId filled submodelId answer =>
      obtain ⟨template, name, more, rfl, named, prepares⟩ := before
      cases answer with
      | error failure => exact Ends.unposted named prepares failure
      | ok _ => exact ⟨template, name, more, filled, rfl, named, prepares⟩
  | postReference newId submodelId answer =>
      obtain ⟨template, name, more, filled, rfl, named, prepares⟩ := before
      cases answer with
      | error failure => exact Ends.unreferenced named prepares failure
      | ok _ => exact Ends.stored named prepares

end Task

end TemplateFill
