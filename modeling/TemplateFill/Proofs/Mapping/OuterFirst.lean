import TemplateFill.Proofs.Mapping.Discovery
import TemplateFill.Proofs.Mapping.Rounds
import TemplateFill.Proofs.Mapping.Wildcards

/-!
Outer collections go first.

The search finds the collections of an owner before those below it, and a round takes the first path
with the fewest `[*]`. A path that goes on behind the `[*]` of a list has at least as many as the path
of the list, so the collection of that list is taken before the ones in it.
-/

namespace TemplateFill

namespace Binding

theorem listIdentifier_isPrefix (path : String) :
    (ofPath path).listIdentifier.toList <+: path.toList := by
  by_cases listed : wildcard <:+: path.toList
  · obtain ⟨list, rest, split, _, identified, _⟩ := ofPath_of_isInfix listed
    rw [identified, split, List.append_assoc]
    exact List.prefix_append list _
  · rw [(ofPath_of_not_isInfix listed).1]

/-- A path that goes on behind the `[*]` of a list has at least as many as the path of the list. -/
theorem wildcards_le_of_isPrefix {outer inner : String}
    (inside : (ofPath outer).listIdentifier.toList ++ wildcard <+: inner.toList) :
    wildcards (some outer) ≤ wildcards (some inner) := by
  rw [wildcards, wildcards]
  by_cases listed : wildcard <:+: outer.toList
  · obtain ⟨list, rest, split, last, identified, _⟩ := ofPath_of_isInfix listed
    obtain ⟨later, continued⟩ := inside
    rw [identified] at continued
    have none := (Text.countOccurrences_eq_zero_iff wildcard_ne_nil).mpr last
    rw [split, ← continued, List.append_assoc, List.append_assoc, countOccurrences_append_wildcard,
      countOccurrences_append_wildcard, none]
    omega
  · rw [(Text.countOccurrences_eq_zero_iff wildcard_ne_nil).mpr listed]
    exact Nat.zero_le _

end Binding

namespace Expansion

theorem Rounds.wellFormed {before after : Context} (rounds : Rounds before after)
    (wellFormed : before.working.WellFormed) : after.working.WellFormed := by
  induction rounds with
  | refl => exact wellFormed
  | tail _ last ih =>
      obtain ⟨tree, top, holds⟩ := ih.grounded ih.rooted
      obtain ⟨_, _, _, _, _, _, _, expands⟩ := exists_expands ih holds top last
      exact expands.wellFormed

private theorem mem_of_pair_before {items before behind : List NodeId} {first second : NodeId}
    (split : items = before ++ second :: behind) (distinct : items.Nodup)
    (inOrder : [first, second].Sublist items) : first ∈ before := by
  have present : first ∈ items := inOrder.subset (List.mem_cons_self ..)
  rw [split] at present
  rcases List.mem_append.mp present with inside | later
  · exact inside
  · rcases List.mem_cons.mp later with same | later
    · rw [same] at inOrder
      exact absurd (List.mem_singleton.mpr rfl) (List.nodup_cons.mp (inOrder.nodup distinct)).1
    · have reversed : [second, first].Sublist items := by
        rw [split]
        exact ((List.singleton_sublist.mpr later).cons_cons second).trans
          (List.sublist_append_right before _)
      exact absurd reversed (Document.not_sublist_of_nodup distinct inOrder)

/-- The collections of the owners above are found before the one that is taken, so their paths have
more `[*]`. -/
theorem wildcards_lt_of_above {document : Document} (wellFormed : document.WellFormed)
    {qualifier outer owner above : NodeId} (next : nextQualifier? document = some qualifier)
    (owns : document.Owns owner qualifier) (attached : document.isAttached owner = true)
    (tagged : document.Tagged .collectionMappingInfo outer) (owned : document.Owns above outer)
    {levels : Nat} (proper : document.ancestor? owner (levels + 1) = some above) :
    Binding.wildcards (document.qualifierValue? qualifier) <
      Binding.wildcards (document.qualifierValue? outer) := by
  have discovers := wellFormed.discovers_qualifiers wellFormed.rooted .collectionMappingInfo
  obtain ⟨upward, toRoot⟩ := (wellFormed.isAttached_iff_ancestor? above).mp
    (wellFormed.isAttached_of_ancestor? attached proper)
  have listed := (discovers.mem_iff outer).mpr ⟨tagged, above, owned, upward, toRoot⟩
  obtain ⟨before, behind, split, larger, _⟩ := exists_split_of_leastBy next
  have sorted := discovers.outerFirst outer listed qualifier (mem_of_leastBy next) above owner
    levels owned owns proper
  exact larger outer (mem_of_pair_before split discovers.once sorted)

/-! ### Rounds -/

/-- In every state that rounds lead to, the collection that is taken next does not lie in the first
entry of a list that a collection above it is still to repeat: the path of the one taken does not go
on behind the `[*]` of that list, nor does the part of it that its entries are counted by. -/
theorem nextQualifier?_outermost {start context : Context}
    (wellFormed : start.working.WellFormed) (rounds : Rounds start context) {qualifier : NodeId}
    (next : nextQualifier? context.working = some qualifier) :
    context.working.Tagged .collectionMappingInfo qualifier ∧
      ∃ owner, context.working.Owns owner qualifier ∧ context.working.isAttached owner = true ∧
        ∀ outer above levels path outerPath,
          context.working.Tagged .collectionMappingInfo outer → context.working.Owns above outer →
          context.working.ancestor? owner (levels + 1) = some above →
          context.working.qualifierValue? qualifier = some path →
          context.working.qualifierValue? outer = some outerPath →
            let list := (Binding.ofPath outerPath).listIdentifier.toList
            ¬list ++ Binding.wildcard <+: path.toList ∧
              ¬list ++ Binding.wildcard <+: (Binding.ofPath path).listIdentifier.toList := by
  replace wellFormed := rounds.wellFormed wellFormed
  have discovers := wellFormed.discovers_qualifiers wellFormed.rooted .collectionMappingInfo
  obtain ⟨tagged, owner, owns, live⟩ := (discovers.mem_iff qualifier).mp (mem_of_leastBy next)
  have attached := (wellFormed.isAttached_iff_ancestor? owner).mpr live
  refine ⟨tagged, owner, owns, attached, ?_⟩
  intro outer above levels path outerPath outerTagged owned proper hasPath hasOuterPath list
  have fewer := wildcards_lt_of_above wellFormed next owns attached outerTagged owned proper
  rw [hasPath, hasOuterPath] at fewer
  have apart : ¬list ++ Binding.wildcard <+: path.toList := fun inside =>
    absurd (Binding.wildcards_le_of_isPrefix inside) (Nat.not_le.mpr fewer)
  exact ⟨apart, fun inside => apart (inside.trans (Binding.listIdentifier_isPrefix path))⟩

/-- In the second round a collection below another one is taken, since it has fewer `[*]`; the list
of the one above is not its own. -/
theorem nextQualifier?_outermost_unrelated :
    let collection (path : String) (elements : List Json) : Json := .object
      [(Key.modelType, .text "SubmodelElementCollection"),
        (Key.qualifiers, .array [.object
          [(Key.type, .text "SMT/CollectionMappingInfo"), (Key.value, .text path)]]),
        (Key.value, .array elements)]
    let template : Json := .object [("submodelElements", .array [collection "$.x[*].y[*]"
      [collection "$.b[*]" [], collection "$.b[*]" [], collection "$.x[*].y[*].z[*]" []]])]
    let data : Json := .object [("b", .array [.integer 1])]
    let start : Context :=
      { Context.start template data "en" "id" "now" with working := Document.ofJson template }
    start.working.WellFormed ∧ ∃ context, Rounds start context ∧
      nextQualifier? context.working = some 19 ∧ context.working.Owns 16 19 ∧
      context.working.Owns 2 5 ∧ context.working.ancestor? 16 2 = some 2 ∧
      context.working.qualifierValue? 5 = some "$.x[*].y[*]" ∧
      context.working.qualifierValue? 19 = some "$.b[*]" ∧
      ¬(Binding.ofPath "$.x[*].y[*]").listIdentifier.toList ++ Binding.wildcard <+:
        "$.b[*]".toList := by
  intro collection template data start
  have wellFormed : start.working.WellFormed := Document.ofJson_wellFormed template
  have facts : ∃ context ∈ (round start).toOption.join,
      nextQualifier? context.working = some 19 ∧ context.working.qualifierOwner? 19 = some 16 ∧
      context.working.member? Key.qualifiers 2 = some 4 ∧ 5 ∈ context.working.children 4 ∧
      context.working.stringMember? Key.type 5 = some "SMT/CollectionMappingInfo" ∧
      context.working.ancestor? 16 2 = some 2 ∧
      context.working.qualifierValue? 5 = some "$.x[*].y[*]" ∧
      context.working.qualifierValue? 19 = some "$.b[*]" := by
    decide +kernel
  obtain ⟨context, ran, next, isOwner, member, directly, tagged, above, hasOuterPath, hasPath⟩ :=
    facts
  have rounds : Rounds start context := .single (eq_ok_of_toOption_join ran)
  obtain ⟨_, owner, owns, _, outermost⟩ := nextQualifier?_outermost wellFormed rounds next
  have same := (rounds.wellFormed wellFormed).qualifierOwner?_of_owns owns
  rw [isOwner] at same
  cases same
  have owned : context.working.Owns 2 5 := ⟨4, member, directly⟩
  exact ⟨wellFormed, context, rounds, next, owns, owned, above, hasOuterPath, hasPath,
    (outermost 5 2 1 _ _ tagged owned above hasPath hasOuterPath).1⟩

end Expansion

end TemplateFill
