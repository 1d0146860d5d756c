import TemplateFill.Proofs.Document.AttachedKeys
import TemplateFill.Proofs.Mapping.CopyValues
import TemplateFill.Proofs.Mapping.Termination

/-!
Rounds in a row.

The loop goes through states that rounds lead to one after the other. Each of them has a well-formed
document without a key twice below its root, and the last one decides how the loop ends.
-/

namespace TemplateFill

/-! ### Keys of a round -/

namespace Tree

theorem KeysDistinct.prepared {copy : Tree} (distinct : copy.KeysDistinct) (path : String)
    (binding : Binding) (position : Nat) : (copy.prepared path binding position).KeysDistinct :=
  ((distinct.without _).retext _).retext _

theorem IsCopy.keysDistinct {limit : NodeId} {path : String} {binding : Binding} {position : Nat}
    {owner copy : Tree} (isCopy : IsCopy limit path binding position owner copy)
    (distinct : owner.KeysDistinct) : copy.KeysDistinct := by
  obtain ⟨first, _, rfl⟩ := isCopy
  have fresh : (ofJson first owner.toJson).KeysDistinct :=
    keysDistinct_place (keysDistinct_toJson.mpr distinct)
  exact fresh.prepared path binding position

theorem KeysDistinct.exchange {container : Tree} (distinct : container.KeysDistinct)
    {copies : List Tree} (apart : ∀ copy ∈ copies, copy.KeysDistinct) (gone : NodeId) :
    (container.exchange gone copies).KeysDistinct := by
  cases container with
  | scalar number value => exact distinct
  | object number members =>
      show (Tree.filterChildren (·.number != gone) (.object number members)).KeysDistinct
      exact keysDistinct_filterChildren distinct
  | array number elements =>
      refine keysDistinct_iff.mpr ⟨trivial, List.forall_mem_append.mpr ⟨?_, apart⟩⟩
      intro element kept
      exact (keysDistinct_iff.mp distinct).2 element (List.mem_of_mem_filter kept)

end Tree

namespace Expansion

theorem round_eq_none_iff {context : Context} : round context = .ok none ↔
    context.working.qualifiers Document.root .collectionMappingInfo = [] := by
  rw [← leastBy_eq_none_iff, ← nextQualifier?, round]
  cases nextQualifier? context.working with
  | none => simp
  | some qualifier =>
      dsimp only
      cases expandQualifier { context with qualifier? := some qualifier } qualifier with
      | error failure => simp [Except.map]
      | ok after => simp [Except.map]

theorem round_eq_some {context after : Context} : round context = .ok (some after) ↔
    ∃ qualifier, nextQualifier? context.working = some qualifier ∧
      expandQualifier { context with qualifier? := some qualifier } qualifier = .ok after := by
  rw [round]
  cases nextQualifier? context.working with
  | none => simp
  | some qualifier =>
      simp only [Option.some.injEq, exists_eq_left']
      cases expandQualifier { context with qualifier? := some qualifier } qualifier with
      | error failure => simp [Except.map]
      | ok result => simp [Except.map]

theorem round_eq_error {context : Context} {failure : Failure} : round context = .error failure ↔
    ∃ qualifier, nextQualifier? context.working = some qualifier ∧
      expandQualifier { context with qualifier? := some qualifier } qualifier = .error failure := by
  rw [round]
  cases nextQualifier? context.working with
  | none => simp
  | some qualifier =>
      simp only [Option.some.injEq, exists_eq_left']
      cases expandQualifier { context with qualifier? := some qualifier } qualifier with
      | error other => simp [Except.map]
      | ok result => simp [Except.map]

/-! ### States of the loop -/

def Rounds : Context → Context → Prop :=
  Relation.ReflTransGen fun before after => round before = .ok (some after)

variable {context before after : Context} {tree container owner list qualifier : Tree}
  {path : String} {entries : List Json} {copies : List Tree}

theorem Expands.keysDistinct
    (expands : Expands context after tree container owner list qualifier path entries copies)
    (distinct : tree.KeysDistinct) :
    (tree.graft (container.exchange owner.number copies)).KeysDistinct := by
  have containerDistinct : container.KeysDistinct := fun below within =>
    distinct below (Tree.preorder_trans expands.within within)
  have ownerDistinct := (Tree.keysDistinct_iff.mp containerDistinct).2 owner expands.directly
  refine distinct.graft fun _ => containerDistinct.exchange (fun copy listed => ?_) owner.number
  obtain ⟨index, found⟩ := List.mem_iff_getElem?.mp listed
  exact (expands.areCopies index copy found).keysDistinct ownerDistinct

theorem sound_of_round (sound : context.working.Sound) (done : round context = .ok (some after)) :
    after.working.Sound := by
  obtain ⟨tree, top, holds⟩ := sound.wellFormed.grounded sound.wellFormed.rooted
  obtain ⟨container, owner, list, qualifier, path, entries, copies, expands⟩ :=
    exists_expands sound.wellFormed holds top done
  have distinct := (Document.attachedKeysDistinct_iff sound.wellFormed holds top).mp sound.keys
  have afterTop : (tree.graft (container.exchange owner.number copies)).number = Document.root := by
    rw [Tree.number_graft, top]
  have keys := Document.attachedKeysDistinct_iff expands.wellFormed expands.holds afterTop
  exact ⟨expands.wellFormed, keys.mpr (expands.keysDistinct distinct)⟩

theorem Rounds.sound (rounds : Rounds before after) (sound : before.working.Sound) :
    after.working.Sound := by
  induction rounds with
  | refl => exact sound
  | tail _ last ih => exact sound_of_round ih last

theorem Rounds.inputs (rounds : Rounds before after) :
    after.template = before.template ∧ after.data = before.data := by
  induction rounds with
  | refl => exact ⟨rfl, rfl⟩
  | tail _ last ih =>
      obtain ⟨qualifier, _, ran⟩ := round_eq_some.mp last
      obtain ⟨_, _, _, _, _, _, _, _, _, _, _, _, _, _, rfl⟩ := expandQualifier_eq_ok.mp ran
      exact ih

/-- A run of the loop ends with what a round returns in the last of its states. -/
theorem Run.exists_last {count : Nat} {result : Except Failure Context}
    (run : Run count context result) :
    ∃ last, Rounds context last ∧
      (round last = .ok none ∧ result = .ok last ∨
        ∃ failure, round last = .error failure ∧ result = .error failure) := by
  induction run with
  | @done context last => exact ⟨context, .refl, Or.inl ⟨last, rfl⟩⟩
  | @failed context failure last => exact ⟨context, .refl, Or.inr ⟨failure, last, rfl⟩⟩
  | next first _ ih =>
      obtain ⟨last, rounds, atEnd⟩ := ih
      exact ⟨last, .head first rounds, atEnd⟩

/-- The loop ends in a state that rounds lead to: either no collection qualifier is left, or a round
fails. -/
theorem exists_last (wellFormed : context.working.WellFormed) :
    ∃ last, Rounds context last ∧
      (expandAll context = .ok last ∧
        last.working.qualifiers Document.root .collectionMappingInfo = [] ∨
      ∃ failure, expandAll context = .error failure ∧ round last = .error failure) := by
  obtain ⟨count, result, run⟩ := exists_run wellFormed
  obtain ⟨last, rounds, ⟨done, rfl⟩ | ⟨failure, failed, rfl⟩⟩ := run.exists_last
  · exact ⟨last, rounds, Or.inl ⟨run.expandAll_eq, round_eq_none_iff.mp done⟩⟩
  · exact ⟨last, rounds, Or.inr ⟨failure, run.expandAll_eq, failed⟩⟩

end Expansion

end TemplateFill
