import TemplateFill.Proofs.Document.Members

/-!
The documents that edits lead to.

Every document that structural edits lead to is well-formed, as long as no node is appended to
itself or to a node below it.
-/

namespace TemplateFill

namespace Document

variable {document : Document} {tree : Tree}

/-! ### Documents that edits lead to -/

theorem size_ofJson (value : Json) : (ofJson value).size = value.size := by
  rw [ofJson, Document.size, List.size_toArray, length_layOut]

theorem lays_ofJson (value : Json) : (ofJson value).Lays root (layOut root none value) := by
  intro position node found
  rw [root, Nat.zero_add]
  exact (List.getElem?_toArray ..).trans found

theorem ofJson_holds (value : Json) : (ofJson value).Holds (Tree.ofJson root value) :=
  (holds_ofJson (lays_ofJson value)).1

theorem ofJson_wellFormed (value : Json) : (ofJson value).WellFormed := by
  obtain ⟨held, detached⟩ := holds_ofJson (lays_ofJson value)
  have size := size_ofJson value
  have inside : ∀ node, node < (ofJson value).size → node ∈ (Tree.ofJson root value).numbers := by
    intro node present
    rw [Tree.mem_numbers_ofJson, root, Nat.zero_add, ← size]
    exact ⟨Nat.zero_le _, present⟩
  refine
    { rooted := by rw [size]; exact Tree.size_pos value
      rootless := detached
      listed := ?_
      distinct := ?_
      grounded := ?_ }
  · intro node parent link
    refine held.listed (inside node (lt_size_of_parent? link)) ?_ link
    intro same
    rw [same, Tree.number_ofJson, detached] at link
    cases link
  · intro node
    by_cases present : node < (ofJson value).size
    · exact held.nodup_children (Tree.nodup_numbers_ofJson root value) (inside node present)
    · rw [children_of_size_le (Nat.le_of_not_lt present)]
      exact List.nodup_nil
  · intro node present
    obtain ⟨below, within, same⟩ := Tree.exists_of_mem_numbers (inside node present)
    exact ⟨below, same, held.of_mem_preorder within⟩

/-- Laying a value out and reading it back changes nothing. -/
theorem toJson_ofJson (value : Json) : (ofJson value).toJson = value := by
  have read := (ofJson_wellFormed value).nodeToJson_eq (ofJson_holds value)
  rw [Tree.number_ofJson] at read
  exact read.trans (Tree.toJson_place ..)

private theorem sizeOfElements_replicate (count : Nat) :
    Json.sizeOfElements (List.replicate count .null) = count := by
  induction count with
  | zero => rfl
  | succ more ih =>
      rw [List.replicate_succ, Json.sizeOfElements, ih, Json.null, Json.size]
      exact Nat.add_comm 1 more

/-- Wherever the nodes of a value are laid out, some well-formed document holds them there. -/
theorem exists_holds_ofJson (first : NodeId) (value : Json) :
    ∃ document : Document, document.WellFormed ∧ document.Holds (Tree.ofJson first value) := by
  cases first with
  | zero => exact ⟨ofJson value, ofJson_wellFormed value, ofJson_holds value⟩
  | succ first =>
      have wellFormed := ofJson_wellFormed (.array (List.replicate first .null))
      have size := size_ofJson (.array (List.replicate first .null))
      rw [Json.size, sizeOfElements_replicate] at size
      generalize ofJson (.array (List.replicate first .null)) = document at wellFormed size
      have held := (holds_insert document none value).1
      rw [size] at held
      exact ⟨_, wellFormed.insert value, held⟩

/-- The documents that structural edits of existing nodes lead to from the document of a value, where
no node is appended to itself or to a node below it. -/
inductive Reachable : Document → Prop
  | ofJson (value : Json) : Reachable (ofJson value)
  | deepClone {document : Document} (reachable : Reachable document) {node : NodeId}
      (present : node < document.size) : Reachable (document.deepClone node).1
  | replaceValue {document : Document} (reachable : Reachable document) {node : NodeId}
      (present : node < document.size) (value : Json) :
      Reachable (document.replaceValue node value)
  | setMember {document edited : Document} (reachable : Reachable document)
      {object member : NodeId} (present : object < document.size) {key : String} {value : Json}
      (done : document.setMember object key value = .ok (edited, member)) : Reachable edited
  | removeMember {document : Document} (reachable : Reachable document) {object : NodeId}
      (present : object < document.size) (key : String) :
      Reachable (document.removeMember object key).1
  | removeNode {document : Document} (reachable : Reachable document) {node : NodeId}
      (present : node < document.size) : Reachable (document.removeNode node)
  | appendChild {document edited : Document} (reachable : Reachable document)
      {array child : NodeId} (present : array < document.size) (given : child < document.size)
      (noLoop : ∀ levels, document.ancestor? array levels ≠ some child)
      (done : document.appendChild array child = .ok edited) : Reachable edited
  | renameKey {document edited : Document} (reachable : Reachable document) {object : NodeId}
      (present : object < document.size) {before after : String} {renamed : Bool}
      (done : document.renameKey object before after = .ok (edited, renamed)) : Reachable edited

theorem Reachable.wellFormed (reachable : document.Reachable) : document.WellFormed := by
  induction reachable with
  | ofJson value => exact ofJson_wellFormed value
  | @deepClone document reachable node present before =>
      exact before.insert (document.nodeToJson node)
  | replaceValue reachable present value before =>
      exact (replaceValue_editAt before present value).wellFormed before
  | setMember reachable present done before => exact (before.memberWrite done).wellFormed
  | @removeMember document reachable object present key before =>
      rw [Document.removeMember]
      split
      · exact before
      · exact before.removeNode _
  | @removeNode document reachable node present before => exact before.removeNode node
  | @appendChild document edited reachable array child present given noLoop done before =>
      obtain ⟨_, _, _, _, _, edit⟩ := before.exists_editAt_appendChild given noLoop done
      exact edit.wellFormed before
  | @renameKey document edited reachable object present name new renamed done before =>
      obtain ⟨listed, recorded, _, ⟨rfl, _⟩ | ⟨_, rfl⟩⟩ := renameKey_cases done
      · exact before
      · obtain ⟨members, holds, rfl⟩ := before.exists_object recorded
        exact (renameMember_editAt before holds name new).wellFormed before

end Document

end TemplateFill
