import TemplateFill.Mapping.Context
import TemplateFill.Path.Query
import TemplateFill.Proofs.Results

/-!
What the success or the failure of a step says about its parts.
-/

namespace TemplateFill

namespace Context

variable {α : Type} {context : Context} {value : α}

theorem require_eq_ok {cause : Cause} {found : Option α} :
    context.require cause found = .ok value ↔ found = some value := by
  cases found with
  | none => exact ⟨nofun, nofun⟩
  | some other =>
      constructor
      · rintro ⟨⟩
        rfl
      · rintro ⟨⟩
        rfl

theorem edited_eq_ok {result : Except EditError α} :
    context.edited result = .ok value ↔ result = .ok value := by
  cases result with
  | error failure => exact ⟨nofun, nofun⟩
  | ok other =>
      constructor
      · rintro ⟨⟩
        rfl
      · rintro ⟨⟩
        rfl

theorem selected_eq_ok {result : Except PathError α} :
    context.selected result = .ok value ↔ result = .ok value := by
  cases result with
  | error failure => exact ⟨nofun, nofun⟩
  | ok other =>
      constructor
      · rintro ⟨⟩
        rfl
      · rintro ⟨⟩
        rfl

/-! ### Failures -/

theorem require_eq_error {cause : Cause} {found : Option α} {failure : Failure} :
    context.require cause found = .error failure ↔
      found = none ∧ failure = context.failure cause := by
  cases found with
  | some other => exact ⟨nofun, nofun⟩
  | none =>
      constructor
      · rintro ⟨⟩
        exact ⟨rfl, rfl⟩
      · rintro ⟨_, rfl⟩
        rfl

theorem edited_eq_error {result : Except EditError α} {failure : Failure} :
    context.edited result = .error failure ↔
      ∃ error, result = .error error ∧ failure = context.failure (Cause.ofEditError error) := by
  cases result with
  | ok other => exact ⟨nofun, nofun⟩
  | error error =>
      constructor
      · rintro ⟨⟩
        exact ⟨error, rfl, rfl⟩
      · rintro ⟨_, ⟨⟩, rfl⟩
        rfl

theorem selected_eq_error {result : Except PathError α} {failure : Failure} :
    context.selected result = .error failure ↔
      ∃ error, result = .error error ∧ failure = context.failure (Cause.ofPathError error) := by
  cases result with
  | ok other => exact ⟨nofun, nofun⟩
  | error error =>
      constructor
      · rintro ⟨⟩
        exact ⟨error, rfl, rfl⟩
      · rintro ⟨_, ⟨⟩, rfl⟩
        rfl

/-! ### Inputs -/

/-- A later state of the same run, with the same qualifier: only the working document and the log may
differ. -/
structure SameRun (context after : Context) : Prop where
  template : after.template = context.template
  data : after.data = context.data
  language : after.language = context.language
  newId : after.newId = context.newId
  moment : after.moment = context.moment
  qualifier? : after.qualifier? = context.qualifier?

theorem sameRun_written (context : Context) (document : Document) (logs : List String) :
    context.SameRun { context with working := document, logs } :=
  ⟨rfl, rfl, rfl, rfl, rfl, rfl⟩

theorem SameRun.trans {between after : Context} (first : context.SameRun between)
    (last : between.SameRun after) : context.SameRun after :=
  { template := last.template.trans first.template
    data := last.data.trans first.data
    language := last.language.trans first.language
    newId := last.newId.trans first.newId
    moment := last.moment.trans first.moment
    qualifier? := last.qualifier?.trans first.qualifier? }

end Context

theorem Query.selectMany_eq_ok {ν : Type} {query : Query} {view : View ν} {root : ν} {mandatory : Bool}
    {nodes : List ν} :
    query.selectMany view root mandatory = .ok nodes ↔
      nodes = query.select view root ∧ (mandatory = true → nodes ≠ []) := by
  rw [Query.selectMany]
  split
  · rename_i missing
    rw [Bool.and_eq_true, List.isEmpty_iff] at missing
    refine ⟨nofun, fun ⟨same, needed⟩ => ?_⟩
    exact absurd (same.trans missing.2) (needed missing.1)
  · rename_i present
    rw [Bool.and_eq_true, List.isEmpty_iff, not_and] at present
    constructor
    · intro same
      cases same
      exact ⟨rfl, present⟩
    · rintro ⟨rfl, -⟩
      rfl

end TemplateFill
