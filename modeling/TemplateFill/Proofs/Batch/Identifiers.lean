import TemplateFill.Proofs.Batch.Protocol

/-!
The identifier of an instance, from its drawing to the report.

What is posted carries the identifier that was drawn, because the instance that mapping yields has
it: the instance itself, the reference to it, and the report of the success.
-/

namespace TemplateFill

open Call (posts)

/-! ### The drawn identifier -/

section Task

variable {order : Order} {templateId newId submodelId : String} {template filled : Json}
  {calls : List Call} {stage : Stage} {report : Report}

theorem Json.stringMember?_of_member? {key text : String} {value : Json}
    (found : value.member? key = some (.text text)) : value.stringMember? key = some text := by
  rw [Json.stringMember?, found]
  rfl

theorem Prepares.drawn (prepares : Prepares order template newId filled submodelId) :
    submodelId = newId ∧ filled.member? Key.id = some (.text newId) := by
  obtain ⟨_, isInstance⟩ := isInstance_of_mapTemplate prepares.mapped
  have holds := Json.stringMember?_of_member? isInstance.id
  exact ⟨Option.some.inj (prepares.holds.symm.trans holds), isInstance.id⟩

/-- The calls behind the drawing of an identifier. -/
inductive Posted (order : Order) (newId : String) (filled : Json) : List Call → Prop
  | nothing : Posted order newId filled []
  | instanceOnly (answer : Except ServiceError Unit) :
      Posted order newId filled [(instancePost order filled answer).call]
  | both (answer : Except ServiceError Unit) :
      Posted order newId filled
        [(instancePost order filled (.ok ())).call, (referencePost order newId answer).call]

theorem Ends.posted (ends : Ends order templateId calls stage) :
    posts calls = [] ∨ ∃ template newId more filled later,
      calls = .fetch (Text.base64Url templateId) (.ok template) ::
        .drawIds 1 (.ok (newId :: more)) :: later ∧
      Prepares order template newId filled newId ∧ Posted order newId filled later := by
  cases ends with
  | unfetched _ | unnamed _ | undrawn _ _ | drewNone _ | unmapped _ _ | shellBlank _ _ _
  | submodelBlank _ _ _ _ => exact .inl rfl
  | unposted named prepares failure =>
      obtain ⟨rfl, _⟩ := prepares.drawn
      exact .inr ⟨_, _, _, _, _, rfl, prepares, .instanceOnly _⟩
  | unreferenced named prepares failure =>
      obtain ⟨rfl, _⟩ := prepares.drawn
      exact .inr ⟨_, _, _, _, _, rfl, prepares, .both _⟩
  | stored named prepares =>
      obtain ⟨rfl, _⟩ := prepares.drawn
      exact .inr ⟨_, _, _, _, _, rfl, prepares, .both _⟩

theorem Stage.Follows.posted (follows : stage.Follows order templateId calls) :
    posts calls = [] ∨ ∃ template newId more filled later,
      calls = .fetch (Text.base64Url templateId) (.ok template) ::
        .drawIds 1 (.ok (newId :: more)) :: later ∧
      Prepares order template newId filled newId ∧ Posted order newId filled later := by
  cases stage with
  | fetching =>
      obtain rfl := follows
      exact .inl rfl
  | drawing template =>
      obtain ⟨rfl, _⟩ := follows
      exact .inl rfl
  | posting newId filled submodelId =>
      obtain ⟨template, name, more, rfl, _⟩ := follows
      exact .inl rfl
  | referencing newId submodelId =>
      obtain ⟨template, name, more, filled, rfl, _, prepares⟩ := follows
      obtain ⟨rfl, _⟩ := prepares.drawn
      exact .inr ⟨template, _, more, filled, _, rfl, prepares, .instanceOnly _⟩
  | finished report errorLine? => exact Ends.posted follows

/-- The template is mapped under a blank identifier, and that of the shell is not blank. -/
def DrewBlank (order : Order) (templateId : String) (calls : List Call) : Prop :=
  ∃ template newId more filled,
    calls = [.fetch (Text.base64Url templateId) (.ok template), .drawIds 1 (.ok (newId :: more))] ∧
    (∃ name, template.stringMember? Key.idShort = some name) ∧
    mapTemplate template order.data order.language newId order.moment.spaced = .ok filled ∧
    Text.isBlankText newId = true ∧ Text.isBlankText order.shellId = false

def Refused (message : String) (calls : List Call) : Prop :=
  ∃ post ∈ posts calls, ∃ failure, post.answer = .error failure ∧ failure.message = message

/-- What the identifier drawn for a task has to do with its calls and with the stage it is at. -/
structure Identified (order : Order) (templateId : String) (calls : List Call) (stage : Stage) :
    Prop where
  follows : stage.Follows order templateId calls
  /-- Whatever is posted carries the identifier: the instance, or the reference to it. -/
  posted : ∀ posted ∈ posts calls, ∃ newId more, .drawIds 1 (.ok (newId :: more)) ∈ calls ∧
    ((∃ filled answer, posted = instancePost order filled answer ∧
        filled.member? Key.id = some (.text newId)) ∨
      ∃ answer, posted = referencePost order newId answer)
  /-- A success names the identifier of the instance and of the reference. -/
  succeeded : ∀ report, stage.report? = some report → report.success = true →
    ∃ more filled, .drawIds 1 (.ok (report.submodelId :: more)) ∈ calls ∧
      filled.member? Key.id = some (.text report.submodelId) ∧
      posts calls =
        [instancePost order filled (.ok ()), referencePost order report.submodelId (.ok ())]
  /-- The identifier counts as missing if it is blank and that of the shell is not. -/
  blank : ∀ template newId more later filled,
    calls = .fetch (Text.base64Url templateId) (.ok template) ::
      .drawIds 1 (.ok (newId :: more)) :: later →
    mapTemplate template order.data order.language newId order.moment.spaced = .ok filled →
      (later = [] ∧ stage = .storeFailed order templateId "The submodel id cannot be empty!" ↔
        Text.isBlankText newId = true ∧ Text.isBlankText order.shellId = false)
  /-- Nothing else is reported so, unless the repository itself answers in these words. -/
  missing : stage.report? = some (.failed templateId "The submodel id cannot be empty!") ↔
    DrewBlank order templateId calls ∨ Refused "The submodel id cannot be empty!" calls

theorem append_ne_of_head?_ne {start rest text : String} (first : Char)
    (starts : start.toList.head? = some first) (differs : text.toList.head? ≠ some first) :
    start ++ rest ≠ text := by
  rintro rfl
  rw [String.toList_append, List.head?_append, starts] at differs
  exact differs rfl

theorem Ends.missing (ends : Ends order templateId calls stage)
    (reported : stage.report? = some (.failed templateId "The submodel id cannot be empty!")) :
    DrewBlank order templateId calls ∨ Refused "The submodel id cannot be empty!" calls := by
  cases ends with
  | unfetched failure =>
      have message : _ = "The submodel id cannot be empty!" :=
        congrArg Report.message (Option.some.inj reported)
      exact absurd message (append_ne_of_head?_ne 'F' rfl (by decide))
  | unnamed nameless =>
      have message :
          "template idShort of " ++ templateId ++ _ = "The submodel id cannot be empty!" :=
        congrArg Report.message (Option.some.inj reported)
      rw [String.append_assoc] at message
      exact absurd message (append_ne_of_head?_ne 't' rfl (by decide))
  | undrawn _ _ | drewNone _ =>
      have message : "could not generate submodel id" = "The submodel id cannot be empty!" :=
        congrArg Report.message (Option.some.inj reported)
      exact absurd message (by decide)
  | unmapped named failed =>
      have diagnostics := congrArg Report.diagnostics? (Option.some.inj reported)
      cases diagnostics
  | shellBlank named mapped blank =>
      have message : "The aas id cannot be empty!" = "The submodel id cannot be empty!" :=
        congrArg Report.message (Option.some.inj reported)
      exact absurd message (by decide)
  | submodelBlank named mapped shell blank =>
      obtain ⟨_, isInstance⟩ := isInstance_of_mapTemplate mapped
      exact .inl ⟨_, _, _, _, rfl, ⟨_, named⟩, mapped,
        blank _ (Json.stringMember?_of_member? isInstance.id), shell⟩
  | unposted named prepares failure =>
      have message := congrArg Report.message (Option.some.inj reported)
      exact .inr ⟨_, List.mem_cons_self .., failure, rfl, message⟩
  | unreferenced named prepares failure =>
      have message := congrArg Report.message (Option.some.inj reported)
      exact .inr ⟨_, List.mem_cons_of_mem _ (List.mem_cons_self ..), failure, rfl, message⟩
  | stored named prepares =>
      have success := congrArg Report.success (Option.some.inj reported)
      cases success

theorem Prepares.not_blank (prepares : Prepares order template newId filled submodelId) :
    Text.isBlankText newId ≠ true := by
  rw [← prepares.drawn.1, prepares.submodel]
  exact Bool.false_ne_true

theorem Ends.storeFailed_of_blank {more : List String} {later : List Call}
    (ends : Ends order templateId (.fetch (Text.base64Url templateId) (.ok template) ::
      .drawIds 1 (.ok (newId :: more)) :: later) stage)
    (mapped : mapTemplate template order.data order.language newId order.moment.spaced =
      .ok filled)
    (blank : Text.isBlankText newId = true) (shell : Text.isBlankText order.shellId = false) :
    later = [] ∧ stage = .storeFailed order templateId "The submodel id cannot be empty!" := by
  cases ends with
  | unmapped _ failed =>
      rw [mapped] at failed
      cases failed
  | shellBlank _ _ missing =>
      rw [shell] at missing
      cases missing
  | submodelBlank _ _ _ _ => exact ⟨rfl, rfl⟩
  | unposted _ prepares _ => exact absurd blank prepares.not_blank
  | unreferenced _ prepares _ => exact absurd blank prepares.not_blank
  | stored _ prepares => exact absurd blank prepares.not_blank

theorem Stage.Follows.storeFailed_of_blank {more : List String} {later : List Call}
    (follows : stage.Follows order templateId (.fetch (Text.base64Url templateId) (.ok template) ::
      .drawIds 1 (.ok (newId :: more)) :: later))
    (mapped : mapTemplate template order.data order.language newId order.moment.spaced =
      .ok filled)
    (blank : Text.isBlankText newId = true) (shell : Text.isBlankText order.shellId = false) :
    later = [] ∧ stage = .storeFailed order templateId "The submodel id cannot be empty!" := by
  cases stage with
  | fetching => cases follows
  | drawing _ => cases follows.1
  | posting _ _ _ =>
      obtain ⟨_, _, _, same, _, prepares⟩ := follows
      cases same
      exact absurd blank prepares.not_blank
  | referencing _ _ =>
      obtain ⟨_, _, _, _, same, _, prepares⟩ := follows
      cases same
      exact absurd blank prepares.not_blank
  | finished report errorLine? => exact Ends.storeFailed_of_blank follows mapped blank shell

theorem Stage.Follows.identified_posted (follows : stage.Follows order templateId calls)
    {post : Call.Post} (inside : post ∈ posts calls) :
    ∃ newId more, .drawIds 1 (.ok (newId :: more)) ∈ calls ∧
      ((∃ filled answer, post = instancePost order filled answer ∧
          filled.member? Key.id = some (.text newId)) ∨
        ∃ answer, post = referencePost order newId answer) := by
  rcases follows.posted with none | ⟨template, newId, more, filled, later, rfl, prepares, shape⟩
  · rw [none] at inside
    cases inside
  · refine ⟨newId, more, List.mem_cons_of_mem _ (List.mem_cons_self ..), ?_⟩
    obtain ⟨_, holds⟩ := prepares.drawn
    cases shape with
    | nothing => cases inside
    | instanceOnly answer => exact .inl ⟨filled, answer, List.mem_singleton.mp inside, holds⟩
    | both answer =>
        rcases List.mem_cons.mp inside with first | second
        · exact .inl ⟨filled, .ok (), first, holds⟩
        · exact .inr ⟨answer, List.mem_singleton.mp second⟩

theorem Ends.identified_success (ends : Ends order templateId calls stage)
    (reported : stage.report? = some report) (success : report.success = true) :
    ∃ more filled, .drawIds 1 (.ok (report.submodelId :: more)) ∈ calls ∧
      filled.member? Key.id = some (.text report.submodelId) ∧
      posts calls =
        [instancePost order filled (.ok ()), referencePost order report.submodelId (.ok ())] := by
  cases ends with
  | stored named prepares =>
      obtain rfl := Option.some.inj reported
      obtain ⟨rfl, holds⟩ := prepares.drawn
      exact ⟨_, _, List.mem_cons_of_mem _ (List.mem_cons_self ..), holds, rfl⟩
  | _ =>
      obtain rfl := Option.some.inj reported
      cases success

theorem Ends.refused {message : String} (ends : Ends order templateId calls stage)
    (refused : Refused message calls) :
    stage.report? = some (.failed templateId message) := by
  obtain ⟨post, inside, failure, answer, rfl⟩ := refused
  cases ends with
  | unfetched _ | unnamed _ | undrawn _ _ | drewNone _ | unmapped _ _ | shellBlank _ _ _
  | submodelBlank _ _ _ _ => cases inside
  | unposted _ _ _ =>
      obtain rfl := List.mem_singleton.mp inside
      cases answer
      rfl
  | unreferenced _ _ _ =>
      rcases List.mem_cons.mp inside with rfl | second
      · cases answer
      · obtain rfl := List.mem_singleton.mp second
        cases answer
        rfl
  | stored _ _ =>
      rcases List.mem_cons.mp inside with rfl | second
      · cases answer
      · obtain rfl := List.mem_singleton.mp second
        cases answer

/-- A refused post is the last call of its task, and its message is reported. -/
theorem Stage.Follows.refused {message : String} (follows : stage.Follows order templateId calls)
    (refused : Refused message calls) :
    stage.report? = some (.failed templateId message) := by
  cases stage with
  | finished report errorLine? => exact Ends.refused follows refused
  | fetching =>
      obtain ⟨post, inside, _⟩ := refused
      obtain rfl := follows
      cases inside
  | drawing _ =>
      obtain ⟨post, inside, _⟩ := refused
      obtain ⟨rfl, _⟩ := follows
      cases inside
  | posting _ _ _ =>
      obtain ⟨post, inside, _⟩ := refused
      obtain ⟨_, _, _, rfl, _⟩ := follows
      cases inside
  | referencing _ _ =>
      obtain ⟨post, inside, failure, answer, _⟩ := refused
      obtain ⟨_, _, _, _, rfl, _⟩ := follows
      obtain rfl := List.mem_singleton.mp inside
      cases answer

theorem Stage.Follows.missing_iff (follows : stage.Follows order templateId calls) :
    stage.report? = some (.failed templateId "The submodel id cannot be empty!") ↔
      DrewBlank order templateId calls ∨ Refused "The submodel id cannot be empty!" calls := by
  constructor
  · exact fun reported => (follows.ends reported).missing reported
  · rintro (⟨template, newId, more, filled, rfl, _, mapped, blank, shell⟩ | refused)
    · rw [(follows.storeFailed_of_blank mapped blank shell).2]
      rfl
    · exact follows.refused refused

theorem Stage.Follows.blank_iff {more : List String} {later : List Call}
    (follows : stage.Follows order templateId (.fetch (Text.base64Url templateId) (.ok template) ::
      .drawIds 1 (.ok (newId :: more)) :: later))
    (mapped : mapTemplate template order.data order.language newId order.moment.spaced =
      .ok filled) :
    later = [] ∧ stage = .storeFailed order templateId "The submodel id cannot be empty!" ↔
      Text.isBlankText newId = true ∧ Text.isBlankText order.shellId = false := by
  constructor
  · rintro ⟨rfl, failed⟩
    have reported :
        stage.report? = some (.failed templateId "The submodel id cannot be empty!") := by
      rw [failed]
      rfl
    rcases follows.missing_iff.mp reported with ⟨_, _, _, _, same, _, _, blank, shell⟩ | refused
    · cases same
      exact ⟨blank, shell⟩
    · obtain ⟨_, inside, _⟩ := refused
      cases inside
  · rintro ⟨blank, shell⟩
    exact follows.storeFailed_of_blank mapped blank shell

theorem Stage.Follows.identified (follows : stage.Follows order templateId calls) :
    Identified order templateId calls stage :=
  { follows
    posted := fun _ inside => follows.identified_posted inside
    succeeded := fun _ reported success =>
      (follows.ends reported).identified_success reported success
    blank := by
      rintro template newId more later filled rfl mapped
      exact follows.blank_iff mapped
    missing := follows.missing_iff }

end Task

/-! ### Templates and batches -/

end TemplateFill
