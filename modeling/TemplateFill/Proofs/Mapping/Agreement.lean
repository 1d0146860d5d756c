import TemplateFill.Proofs.Mapping.Passes

/-!
Runs side by side.

Two runs over the same template and data agree if both succeed, in related states, or both fail, for
the same cause at the same place. Up to the pass over the scalars nothing reads the language or the
new identifier, so the states of the two runs are then the same but for those and for the log.
-/

namespace TemplateFill

/-- Both succeed, with related values, or both fail, with the same cause at the same place. -/
inductive Agree {α β : Type} (related : α → β → Prop) : Except Failure α → Except Failure β → Prop
  | ok {left : α} {right : β} (values : related left right) : Agree related (.ok left) (.ok right)
  | error {left right : Failure} (cause : left.cause = right.cause)
      (location : left.location? = right.location?) : Agree related (.error left) (.error right)

namespace Agree

variable {α β γ δ : Type} {related : α → β → Prop} {results : γ → δ → Prop}
  {left : Except Failure α} {right : Except Failure β}

theorem bind {leftRest : α → Except Failure γ} {rightRest : β → Except Failure δ}
    (first : Agree related left right)
    (rest : ∀ a b, related a b → Agree results (leftRest a) (rightRest b)) :
    Agree results (left >>= leftRest) (right >>= rightRest) := by
  cases first with
  | ok values => exact rest _ _ values
  | error cause location => exact .error cause location

theorem attach (agree : Agree related left right) :
    Agree (fun a b => left = .ok a ∧ right = .ok b ∧ related a b) left right := by
  cases agree with
  | ok values => exact .ok ⟨rfl, rfl, values⟩
  | error cause location => exact .error cause location

theorem map {leftRead : α → γ} {rightRead : β → δ} (agree : Agree related left right)
    (reads : ∀ a b, related a b → results (leftRead a) (rightRead b)) :
    Agree results (left.map leftRead) (right.map rightRead) := by
  cases agree with
  | ok values => exact .ok (reads _ _ values)
  | error cause location => exact .error cause location

end Agree

namespace Context

variable {α : Type} {left right : Context}

def SamePlace (left right : Context) : Prop :=
  left.qualifier?.bind left.working.location? = right.qualifier?.bind right.working.location?

theorem SamePlace.fail {β : Type} {related : α → β → Prop} (same : SamePlace left right)
    (cause : Cause) : Agree related (.error (left.failure cause)) (.error (right.failure cause)) :=
  .error rfl same

theorem SamePlace.require (same : SamePlace left right) (cause : Cause) (found : Option α) :
    Agree Eq (left.require cause found) (right.require cause found) := by
  cases found with
  | none => exact same.fail cause
  | some value => exact .ok rfl

theorem SamePlace.edited (same : SamePlace left right) (result : Except EditError α) :
    Agree Eq (left.edited result) (right.edited result) := by
  cases result with
  | error error => exact same.fail (Cause.ofEditError error)
  | ok value => exact .ok rfl

theorem SamePlace.selected (same : SamePlace left right) (result : Except PathError α) :
    Agree Eq (left.selected result) (right.selected result) := by
  cases result with
  | error error => exact same.fail (Cause.ofPathError error)
  | ok value => exact .ok rfl

/-- States that differ in the language, the new identifier and the log only. -/
structure SameState (left right : Context) : Prop where
  template : right.template = left.template
  data : right.data = left.data
  working : right.working = left.working
  qualifier? : right.qualifier? = left.qualifier?

theorem SameState.place (same : SameState left right) : SamePlace left right := by
  unfold SamePlace
  rw [same.qualifier?, same.working]

theorem SameState.withWorking (same : SameState left right) (document : Document) :
    SameState { left with working := document } { right with working := document } :=
  ⟨same.template, same.data, rfl, same.qualifier?⟩

theorem SameState.log (same : SameState left right) (message other : String) :
    SameState (left.log message) (right.log other) :=
  ⟨same.template, same.data, same.working, same.qualifier?⟩

theorem SameState.withQualifier (same : SameState left right) (qualifier? : Option NodeId) :
    SameState { left with qualifier? } { right with qualifier? } :=
  ⟨same.template, same.data, same.working, rfl⟩

theorem SameState.setRootMember (same : SameState left right) (key : String) (value : Json) :
    Agree SameState (left.setRootMember key value) (right.setRootMember key value) := by
  unfold Context.setRootMember
  rw [same.working]
  apply (same.place.edited _).bind
  rintro ⟨document, _⟩ _ rfl
  exact .ok (same.withWorking document)

end Context

namespace Expansion

open Context (SameState)

variable {left right : Context}

theorem agree_expandQualifier (same : SameState left right) (qualifier : NodeId) :
    Agree SameState (expandQualifier left qualifier) (expandQualifier right qualifier) := by
  have place := same.place
  unfold expandQualifier
  dsimp only
  rw [same.working, same.data]
  apply (place.require _ _).bind
  rintro owner _ rfl
  apply (place.require _ _).bind
  rintro modelType _ rfl
  split
  · exact place.fail _
  apply (place.require _ _).bind
  rintro container _ rfl
  apply (place.require _ _).bind
  rintro path _ rfl
  apply (place.selected _).bind
  rintro entries _ rfl
  apply (place.edited _).bind
  rintro copied _ rfl
  apply (place.edited _).bind
  rintro ⟨marked, _⟩ _ rfl
  exact .ok ⟨same.template, rfl, rfl, same.qualifier?⟩

inductive SameNext : Option Context → Option Context → Prop
  | none : SameNext none none
  | some {left right : Context} (same : SameState left right) : SameNext (some left) (some right)

theorem agree_round (same : SameState left right) :
    Agree SameNext (round left) (round right) := by
  have sameNext : nextQualifier? right.working = nextQualifier? left.working := by
    rw [same.working]
  unfold round
  rw [sameNext]
  cases nextQualifier? left.working with
  | none => exact .ok .none
  | some qualifier =>
      have expands := agree_expandQualifier (same.withQualifier (some qualifier)) qualifier
      exact expands.map fun _ _ next => .some next

theorem Run.agree {count : Nat} {result : Except Failure Context} (run : Run count left result)
    (same : SameState left right) : Agree SameState result (expandAll right) := by
  induction run generalizing right with
  | @done left last =>
      have step := agree_round same
      rw [last] at step
      rw [Expansion.expandAll_eq right]
      generalize round right = next at step
      cases step with
      | ok values =>
          cases values
          exact .ok same
  | @failed left failure last =>
      have step := agree_round same
      rw [last] at step
      rw [Expansion.expandAll_eq right]
      generalize round right = next at step
      cases step with
      | error cause location => exact .error cause location
  | @next left after count result first rest ih =>
      have step := agree_round same
      rw [first] at step
      rw [Expansion.expandAll_eq right]
      generalize round right = next at step
      cases step with
      | ok values =>
          cases values with
          | some same => exact ih same

theorem agree_expandCollections (same : SameState left right)
    (wellFormed : left.working.WellFormed) :
    Agree SameState left.expandCollections right.expandCollections := by
  obtain ⟨count, result, run⟩ := exists_run wellFormed
  unfold Context.expandCollections
  rw [run.expandAll_eq]
  apply (run.agree same).bind
  intro leftLast rightLast last
  have marks : restoreTags rightLast.working = restoreTags leftLast.working := by
    rw [last.working]
  exact .ok ⟨last.template, last.data, marks, rfl⟩

end Expansion

/-! ### Logged passes -/

theorem Pass.agree_runLogged {left right : Context} {pass : Pass}
    {related : Context → Context → Prop}
    (agree : Agree related (pass.run (left.log ("Started " ++ pass.name)))
      (pass.run (right.log ("Started " ++ pass.name))))
    (logged : ∀ a b message, related a b → related (a.log message) (b.log message)) :
    Agree related (pass.runLogged left) (pass.runLogged right) := by
  unfold Pass.runLogged
  apply agree.bind
  intro a b same
  exact .ok (logged a b _ same)

end TemplateFill
