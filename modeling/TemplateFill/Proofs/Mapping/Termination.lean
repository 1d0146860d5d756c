import TemplateFill.Proofs.Document.Shape
import TemplateFill.Proofs.Mapping.Round

/-!
The rounds of expansion come to an end.

A round may leave more collection qualifiers than there were, and a larger document. But it takes
one subtree away and puts copies beside it of which each has lost at least the qualifier that caused
it, so the shape of the document gets lighter with every round. The texts that a round changes have
no part in the shape.
-/

namespace TemplateFill

namespace Tree

/-! ### Copies are lighter than their owner -/

theorem length_triggers (path : String) (tree : Tree) :
    (tree.triggers path).length =
      ((Json.view.qualifiersBelow (Json.view.hasTag QualifierType.collectionMappingInfo.tag)
        tree.toJson).filter fun qualifier =>
          qualifier.stringMember? Key.value == some path).length := by
  have carried := @View.Carries.qualifiersBelow _ _ _ _ _ _ toJson_carries tree trivial
    (view.hasTag QualifierType.collectionMappingInfo.tag)
    (Json.view.hasTag QualifierType.collectionMappingInfo.tag)
    fun node _ => toJson_carries.hasTag trivial _
  rw [carried, List.filter_map, List.length_map, triggers, List.length_map]
  refine congrArg List.length (List.filter_congr fun qualifier _ => ?_)
  rw [Function.comp_apply, stringMember?_toJson]

theorem lighter_pruned {path : String} {copy : Tree} (some : copy.triggers path ≠ []) :
    Shape.Lighter (copy.pruned path).shape copy.shape := by
  apply (lighter_without _ copy).2
  obtain ⟨number, inside⟩ := List.exists_mem_of_ne_nil _ some
  have listed := inside
  obtain ⟨found, within, rfl⟩ := List.mem_map.mp inside
  obtain ⟨child, directly, deeper⟩ := exists_child_of_qualifier (List.mem_filter.mp within).1
  exact ⟨child, directly, found, deeper, List.contains_iff_mem.mpr listed⟩

/-- A copy lacks the qualifier that caused it, and so is lighter than its owner. -/
theorem IsCopy.lighter {limit : NodeId} {path : String} {binding : Binding} {position : Nat}
    {owner copy : Tree} (isCopy : IsCopy limit path binding position owner copy)
    (some : owner.triggers path ≠ []) : Shape.Lighter copy.shape owner.shape := by
  obtain ⟨first, _, rfl⟩ := isCopy
  have value : (ofJson first owner.toJson).toJson = owner.toJson := toJson_place ..
  have triggered : (ofJson first owner.toJson).triggers path ≠ [] := by
    intro none
    have length := length_triggers path (ofJson first owner.toJson)
    rw [value, ← length_triggers path owner, none] at length
    exact some (List.length_eq_zero_iff.mp length.symm)
  rw [prepared, bound, numbered, shape_retext, shape_retext, ← shape_eq_of_toJson value]
  exact lighter_pruned triggered

private theorem perm_filter_number {list : List Tree} {tree : Tree} (inside : tree ∈ list)
    (distinct : (list.map number).Nodup) :
    (list.filter (fun other => other.number != tree.number) ++ [tree]).Perm list := by
  obtain ⟨before, after, rfl⟩ := List.append_of_mem inside
  rw [List.map_append, List.map_cons, List.nodup_middle, List.nodup_cons] at distinct
  have outside := distinct.1
  rw [← List.map_append] at outside
  have others : ∀ part : List Tree, (∀ other ∈ part, other ∈ before ++ after) →
      part.filter (fun other => other.number != tree.number) = part := by
    intro part included
    refine List.filter_eq_self.mpr fun other listed => bne_iff_ne.mpr ?_
    intro same
    exact outside (same ▸ List.mem_map_of_mem (included other listed))
  rw [List.filter_append, List.filter_cons_of_neg (by simp), others before fun _ listed =>
    List.mem_append_left _ listed, others after fun _ listed => List.mem_append_right _ listed]
  exact (List.perm_append_singleton tree (before ++ after)).trans List.perm_middle.symm

theorem lighter_exchange {container owner : Tree} {copies : List Tree}
    (inside : owner ∈ container.children) (distinct : (container.children.map number).Nodup)
    (lighter : ∀ copy ∈ copies, Shape.Lighter copy.shape owner.shape) :
    Shape.Lighter (container.exchange owner.number copies).shape container.shape := by
  have moved := (perm_filter_number inside distinct).map shape
  rw [List.map_append, List.map_singleton] at moved
  have ownerIn : owner.shape ∈ container.children.map shape := List.mem_map_of_mem inside
  cases container with
  | scalar number value => cases inside
  | array number elements =>
      rw [shape_eq, shape_eq (array number elements)]
      refine @Shape.Lighter.cut owner.shape (copies.map shape) _ _ ownerIn ?_ ?_
      · rw [exchange, children, List.map_append, List.append_assoc]
        apply (List.perm_append_comm.append_left _).trans
        rw [← List.append_assoc]
        exact moved.append_right _
      · intro shape listed
        obtain ⟨copy, present, rfl⟩ := List.mem_map.mp listed
        exact lighter copy present
  | object number members =>
      rw [shape_eq, shape_eq (object number members)]
      refine @Shape.Lighter.cut owner.shape [] _ _ ownerIn ?_ ?_
      · rw [List.append_nil]
        have filtered : (exchange owner.number copies (object number members)).children =
            (object number members).children.filter fun child => child.number != owner.number :=
          children_filterChildren (fun child => child.number != owner.number)
            (object number members)
        rwa [filtered]
      · intro shape listed
        cases listed

end Tree

namespace Expansion

variable {context after : Context} {tree : Tree}

/-! ### Rounds -/

/-- A round makes the shape of the document lighter. -/
theorem round_lighter (wellFormed : context.working.WellFormed)
    (holds : context.working.Holds tree) (top : tree.number = Document.root)
    (done : round context = .ok (some after)) :
    ∃ smaller : Tree, after.working.WellFormed ∧ after.working.Holds smaller ∧
      smaller.number = Document.root ∧ Shape.Lighter smaller.shape tree.shape := by
  obtain ⟨container, owner, list, qualifier, path, entries, copies, expands⟩ :=
    exists_expands wellFormed holds top done
  refine ⟨_, expands.wellFormed, expands.holds, by rw [Tree.number_graft, top], ?_⟩
  have containerHolds := holds.of_mem_preorder expands.within
  apply Tree.lighter_graft holds expands.within (by rw [Tree.number_exchange])
  refine Tree.lighter_exchange expands.directly ?_ ?_
  · exact wellFormed.nodup_children containerHolds
  · intro copy listed
    obtain ⟨index, present⟩ := List.mem_iff_getElem?.mp listed
    exact (expands.areCopies index copy present).lighter expands.triggers_ne_nil

/-! ### Runs -/

/-- A run of the expansion loop: how many rounds are begun, where it starts, and what it returns
after the last of them. -/
inductive Run : Nat → Context → Except Failure Context → Prop
  | done {context : Context} (last : round context = .ok none) : Run 1 context (.ok context)
  | failed {context : Context} {failure : Failure} (last : round context = .error failure) :
      Run 1 context (.error failure)
  | next {context after : Context} {rounds : Nat} {result : Except Failure Context}
      (first : round context = .ok (some after)) (rest : Run rounds after result) :
      Run (rounds + 1) context result

theorem expandAll_eq (context : Context) :
    expandAll context = (do
      match ← round context with
      | none => return context
      | some after => expandAll after) := by
  have : Nonempty Context := ⟨context⟩
  apply (repeatM_eq_of_monadTail context).trans
  unfold repeatM.body
  beta_reduce
  cases round context with
  | error failure => rfl
  | ok after? => cases after? <;> rfl

theorem Run.expandAll_eq {rounds : Nat} {result : Except Failure Context}
    (run : Run rounds context result) : expandAll context = result := by
  induction run with
  | done last => rw [Expansion.expandAll_eq, last]; rfl
  | failed last => rw [Expansion.expandAll_eq, last]; rfl
  | next first rest ih => rw [Expansion.expandAll_eq, first]; exact ih

theorem Run.unique {rounds others : Nat} {result other : Except Failure Context}
    (run : Run rounds context result) (again : Run others context other) :
    rounds = others ∧ result = other := by
  induction run generalizing others with
  | done last =>
      cases again with
      | done _ => exact ⟨rfl, rfl⟩
      | failed stuck => cases last.symm.trans stuck
      | next first _ => cases last.symm.trans first
  | failed last =>
      cases again with
      | done ended => cases last.symm.trans ended
      | failed stuck =>
          cases last.symm.trans stuck
          exact ⟨rfl, rfl⟩
      | next first _ => cases last.symm.trans first
  | next first rest ih =>
      cases again with
      | done ended => cases first.symm.trans ended
      | failed stuck => cases first.symm.trans stuck
      | next once rest =>
          cases first.symm.trans once
          obtain ⟨rfl, rfl⟩ := ih rest
          exact ⟨rfl, rfl⟩

def expandWithin? : Nat → Context → Option Context
  | 0, _ => none
  | rounds + 1, context => do
      match ← (round context).toOption with
      | none => return context
      | some after => expandWithin? rounds after

theorem expandAll_of_expandWithin? {rounds : Nat} {context last : Context}
    (found : expandWithin? rounds context = some last) : expandAll context = .ok last := by
  induction rounds generalizing context with
  | zero => cases found
  | succ rounds ih =>
      rw [expandWithin?] at found
      obtain ⟨after?, ran, found⟩ := exists_of_toOption found
      rw [expandAll_eq, ran]
      cases after? with
      | none =>
          cases found
          rfl
      | some after => exact ih found

theorem Run.of_expandWithin? {rounds : Nat} {last : Context}
    (enough : expandWithin? (rounds + 1) context = some last)
    (tooFew : expandWithin? rounds context = none) : Run (rounds + 1) context (.ok last) := by
  induction rounds generalizing context with
  | zero =>
      rw [expandWithin?] at enough
      obtain ⟨after?, ran, found⟩ := exists_of_toOption enough
      cases after? with
      | none =>
          cases found
          exact .done ran
      | some after => cases found
  | succ rounds ih =>
      rw [expandWithin?] at enough tooFew
      obtain ⟨after?, ran, found⟩ := exists_of_toOption enough
      rw [ran] at tooFew
      cases after? with
      | none => cases tooFew
      | some after => exact .next ran (ih found tooFew)

/-- From every document that a well-formed context works on, the loop ends after finitely many
rounds. -/
theorem exists_run (wellFormed : context.working.WellFormed) :
    ∃ rounds result, Run rounds context result := by
  obtain ⟨tree, top, holds⟩ := wellFormed.grounded wellFormed.rooted
  have accessible := Shape.acc_lighter tree.shape
  generalize same : tree.shape = shape at accessible
  induction accessible generalizing context tree with
  | intro shape _ ih =>
      cases last : round context with
      | error failure => exact ⟨1, _, .failed last⟩
      | ok after? =>
          cases after? with
          | none => exact ⟨1, _, .done last⟩
          | some after =>
              obtain ⟨smaller, afterWF, afterHolds, afterTop, lighter⟩ :=
                round_lighter wellFormed holds top last
              rw [same] at lighter
              obtain ⟨rounds, result, run⟩ :=
                ih smaller.shape lighter afterWF smaller afterTop afterHolds rfl
              exact ⟨rounds + 1, result, .next last run⟩

/-- For every working document and every data document the loop ends after finitely many rounds, and
returns what the last of them leads to. -/
theorem expandAll_terminates {context : Context} (reachable : context.working.Reachable) :
    ∃ rounds result, Run rounds context result ∧ expandAll context = result := by
  obtain ⟨rounds, result, run⟩ := exists_run reachable.wellFormed
  exact ⟨rounds, result, run, run.expandAll_eq⟩

/-- A list in a list with two entries each. The outer is expanded in the first round, each copy of
the inner in a round of its own, and the fourth round finds none left. -/
theorem expandAll_terminates_nested :
    let collection (path : String) (elements : List Json) : Json := .object
      [(Key.modelType, .text "SubmodelElementCollection"),
        (Key.qualifiers, .array [.object
          [(Key.type, .text "SMT/CollectionMappingInfo"), (Key.value, .text path)]]),
        (Key.value, .array elements)]
    let template : Json := .object [("submodelElements", .array
      [collection "$.a[*]" [collection "$.a[*].b[*]" []]])]
    let row : Json := .object [("b", .array [.null, .null])]
    let data : Json := .object [("a", .array [row, row])]
    let context : Context :=
      { Context.start template data "en" "id" "now" with working := Document.ofJson template }
    let expanded (elements : List Json) : Json := .object
      [(Key.modelType, .text "SubmodelElementCollection"), (Key.qualifiers, .array []),
        (Key.value, .array elements)]
    context.working.Reachable ∧ ∃ last, Run 4 context (.ok last) ∧ expandAll context = .ok last ∧
      last.working.toJson = .object [("submodelElements", .array
        [expanded [expanded [], expanded []], expanded [expanded [], expanded []]])] := by
  intro collection template row data context expanded
  have reachable : context.working.Reachable := .ofJson template
  have tooFew : expandWithin? 3 context = none :=
    Option.isNone_iff_eq_none.mp (by decide +kernel)
  have enough : (expandWithin? 4 context).map (fun last => last.working.toJson) =
      some (.object [("submodelElements", .array
        [expanded [expanded [], expanded []], expanded [expanded [], expanded []]])]) := by
    decide +kernel
  obtain ⟨last, found, shown⟩ := Option.map_eq_some_iff.mp enough
  have four := Run.of_expandWithin? found tooFew
  obtain ⟨rounds, result, run, same⟩ := expandAll_terminates reachable
  obtain ⟨rfl, rfl⟩ := run.unique four
  exact ⟨reachable, last, run, same, shown⟩

end Expansion

end TemplateFill
