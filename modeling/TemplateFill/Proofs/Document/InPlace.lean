import TemplateFill.Proofs.Document.History

/-!
Edits of a document in place, one write after the other.

A program that fails keeps what it has written. So an edit leaves no trace of a failure only if it
looks at all that can make it fail before its first write. Each edit does so: run in place, it is
refused on a document that is still as it was, or ends with the document behind the edit.
-/

namespace TemplateFill

open Document (root contentOf layOut layOutChildren dropChild renameMember size_release
  nodes_setContent)

/-- A program that writes to a document. What it wrote before a failure stays written. -/
abbrev InPlace := EStateM EditError Document

namespace InPlace

def setContent (node : NodeId) (content : Content) : InPlace Unit :=
  modify fun document => document.setContent node content

def setParent (node : NodeId) (parent? : Option NodeId) : InPlace Unit :=
  modify fun document => document.setParent node parent?

def insert (parent? : Option NodeId) (value : Json) : InPlace NodeId := do
  let first := (← get).size
  modify fun document => document.extend (layOut first parent? value)
  return first

def deepClone (node : NodeId) : InPlace NodeId := do
  insert none ((← get).nodeToJson node)

/-- Unlinks the children of a node, lays out those of a value and lists them. -/
def replaceValue (node : NodeId) (value : Json) : InPlace Unit := do
  ((← get).children node).forM fun child => setParent child none
  let first := (← get).size
  modify fun document => document.extend (layOutChildren first node value)
  setContent node (contentOf first value)

def setMember (object : NodeId) (key : String) (value : Json) : InPlace NodeId := do
  match (← get).member? key object with
  | some existing =>
      replaceValue existing value
      return existing
  | none =>
      match (← get).content object with
      | .object members =>
          let member ← insert (some object) value
          setContent object (.object (members ++ [(key, member)]))
          return member
      | _ => throw (.notAnObject object)

def removeNode (node : NodeId) : InPlace Unit := do
  match (← get).parent? node with
  | none => return
  | some parent =>
      setContent parent (dropChild node ((← get).content parent))
      setParent node none

def removeMember (object : NodeId) (key : String) : InPlace (Option NodeId) := do
  match (← get).member? key object with
  | none => return none
  | some member =>
      removeNode member
      return some member

def appendChild (array child : NodeId) : InPlace Unit := do
  if ((← get).parent? child).isSome || child = root then throw (.alreadyAttached child)
  else
    match (← get).content array with
    | .array elements =>
        setContent array (.array (elements ++ [child]))
        setParent child (some array)
    | _ => throw (.notAnArray array)

def renameKey (object : NodeId) (before after : String) : InPlace Bool := do
  match (← get).content object with
  | .object members =>
      if before = after then return (memberOf? before members).isSome
      else if (memberOf? after members).isSome then throw (.duplicateKey object after)
      else
        match members.dropWhile fun member => member.1 != before with
        | (_, member) :: behind =>
            let front := members.takeWhile fun member => member.1 != before
            setContent object (.object (front ++ behind))
            setContent object (.object (front ++ (after, member) :: behind))
            return true
        | [] => return false
  | _ => throw (.notAnObject object)

end InPlace

def Edit.perform : Edit → InPlace Unit
  | .deepClone node => discard (InPlace.deepClone node)
  | .replaceValue node value => InPlace.replaceValue node value
  | .setMember object key value => discard (InPlace.setMember object key value)
  | .removeMember object key => discard (InPlace.removeMember object key)
  | .removeNode node => InPlace.removeNode node
  | .appendChild array child => InPlace.appendChild array child
  | .renameKey object before after => discard (InPlace.renameKey object before after)

def Edit.attempt (document : Document) : Edit → Except EditError Document
  | .deepClone node => .ok (document.deepClone node).1
  | .replaceValue node value => .ok (document.replaceValue node value)
  | .setMember object key value => (document.setMember object key value).map Prod.fst
  | .removeMember object key => .ok (document.removeMember object key).1
  | .removeNode node => .ok (document.removeNode node)
  | .appendChild array child => document.appendChild array child
  | .renameKey object before after => (document.renameKey object before after).map Prod.fst

def Edit.refusal? (document : Document) : Edit → Option EditError
  | .setMember object _ _ =>
      match document.content object with
      | .object _ => none
      | _ => some (.notAnObject object)
  | .appendChild array child =>
      if (document.parent? child).isSome || child = root then some (.alreadyAttached child)
      else
        match document.content array with
        | .array _ => none
        | _ => some (.notAnArray array)
  | .renameKey object before after =>
      match document.content object with
      | .object members =>
          if before ≠ after ∧ (memberOf? after members).isSome then
            some (.duplicateKey object after)
          else none
      | _ => some (.notAnObject object)
  | _ => none

/-! ### Runs -/

namespace InPlace

variable {α β : Type} {document between : Document}

theorem get_bind (next : Document → InPlace α) (document : Document) :
    (get >>= next) document = next document document :=
  rfl

theorem bind_of_ok {first : InPlace β} {value : β} (ran : first document = .ok value between)
    (next : β → InPlace α) : (first >>= next) document = next value between := by
  change EStateM.bind first next document = next value between
  rw [EStateM.bind, ran]

theorem discard_eq (program : InPlace α) (document : Document) :
    (discard program : InPlace Unit) document =
      match program document with
      | .ok _ edited => .ok () edited
      | .error failure edited => .error failure edited := by
  change EStateM.map (fun _ => ()) program document = _
  rw [EStateM.map]
  cases program document <;> rfl

theorem forM_setParent (children : List NodeId) (document : Document) :
    (children.forM fun child => setParent child none) document =
      .ok () (document.release children) := by
  induction children generalizing document with
  | nil => rfl
  | cons child rest ih => exact ih (document.setParent child none)

theorem replaceValue_eq (document : Document) (node : NodeId) (value : Json) :
    replaceValue node value document = .ok () (document.replaceValue node value) := by
  rw [replaceValue, get_bind, bind_of_ok (forM_setParent _ document), get_bind, size_release]
  rfl

theorem setMember_eq (document : Document) (object : NodeId) (key : String) (value : Json) :
    setMember object key value document =
      match document.setMember object key value with
      | .ok (edited, member) => .ok member edited
      | .error failure => .error failure document := by
  rw [setMember, get_bind, Document.setMember]
  cases document.member? key object with
  | some existing => exact bind_of_ok (replaceValue_eq document existing value) _
  | none =>
      dsimp only
      rw [get_bind]
      cases document.content object <;> rfl

theorem removeNode_eq (document : Document) (node : NodeId) :
    removeNode node document = .ok () (document.removeNode node) := by
  rw [removeNode, get_bind, Document.removeNode]
  cases document.parent? node <;> rfl

theorem removeMember_eq (document : Document) (object : NodeId) (key : String) :
    removeMember object key document =
      .ok (document.removeMember object key).2 (document.removeMember object key).1 := by
  rw [removeMember, get_bind, Document.removeMember]
  cases document.member? key object with
  | none => rfl
  | some member => exact bind_of_ok (removeNode_eq document member) _

theorem appendChild_eq (document : Document) (array child : NodeId) :
    appendChild array child document =
      match document.appendChild array child with
      | .ok edited => .ok () edited
      | .error failure => .error failure document := by
  rw [appendChild, get_bind, Document.appendChild]
  split
  · rfl
  · rw [get_bind]
    cases document.content array <;> rfl

theorem setContent_setContent (document : Document) (node : NodeId) (first second : Content) :
    (document.setContent node first).setContent node second =
      document.setContent node second := by
  have same : ∀ other : NodeId,
      ((document.setContent node first).setContent node second).nodes[other]? =
        (document.setContent node second).nodes[other]? := by
    intro other
    rw [nodes_setContent, nodes_setContent, nodes_setContent]
    split
    · rw [Option.map_map]
      rfl
    · rfl
  exact congrArg Document.mk (Array.ext_getElem? same)

/-- A member that is renamed stands between the members before and behind it. -/
theorem renameMember_eq (before after : String) (members : List (String × α)) :
    renameMember before after members =
      match members.dropWhile fun member => member.1 != before with
      | (_, member) :: behind =>
          (members.takeWhile fun member => member.1 != before) ++ (after, member) :: behind
      | [] => members := by
  induction members with
  | nil => rfl
  | cons first rest ih =>
      obtain ⟨key, member⟩ := first
      rw [renameMember]
      by_cases same : key = before
      · subst same
        rw [if_pos rfl, List.dropWhile_cons_of_neg (by simp), List.takeWhile_cons_of_neg (by simp)]
        rfl
      · rw [if_neg same, List.dropWhile_cons_of_pos (by simpa using same),
          List.takeWhile_cons_of_pos (by simpa using same), ih]
        split <;> rfl

theorem isSome_memberOf?_iff (key : String) (members : List (String × α)) :
    (memberOf? key members).isSome = true ↔
      (members.dropWhile fun member => member.1 != key) ≠ [] := by
  induction members with
  | nil => simp [memberOf?]
  | cons first rest ih =>
      obtain ⟨name, member⟩ := first
      rw [memberOf?]
      by_cases same : name = key
      · rw [if_pos same, List.dropWhile_cons_of_neg (by simpa using same)]
        simp
      · rw [if_neg same, List.dropWhile_cons_of_pos (by simpa using same), ih]

theorem renameKey_eq (document : Document) (object : NodeId) (before after : String) :
    renameKey object before after document =
      match document.renameKey object before after with
      | .ok (edited, present) => .ok present edited
      | .error failure => .error failure document := by
  rw [renameKey, get_bind, Document.renameKey]
  cases document.content object with
  | scalar value => rfl
  | array elements => rfl
  | object members =>
      dsimp only
      by_cases same : before = after
      · rw [if_pos same, if_pos same]
        rfl
      · rw [if_neg same, if_neg same]
        by_cases taken : (memberOf? after members).isSome = true
        · rw [if_pos taken, if_pos taken]
          rfl
        · rw [if_neg taken, if_neg taken, renameMember_eq]
          have present := isSome_memberOf?_iff before members
          cases split : members.dropWhile fun member => member.1 != before with
          | nil =>
              rw [split] at present
              rw [if_neg fun given => present.mp given rfl]
              rfl
          | cons first behind =>
              rw [split] at present
              rw [if_pos (present.mpr (List.cons_ne_nil _ _))]
              exact congrArg (EStateM.Result.ok true) (setContent_setContent document object _ _)

end InPlace

namespace Edit

theorem perform_eq (document : Document) (edit : Edit) :
    edit.perform document =
      match edit.attempt document with
      | .ok edited => .ok () edited
      | .error failure => .error failure document := by
  cases edit with
  | deepClone node => rfl
  | replaceValue node value => exact InPlace.replaceValue_eq document node value
  | setMember object key value =>
      rw [perform, InPlace.discard_eq, InPlace.setMember_eq, attempt]
      cases document.setMember object key value <;> rfl
  | removeMember object key =>
      rw [perform, InPlace.discard_eq, InPlace.removeMember_eq]
      rfl
  | removeNode node => exact InPlace.removeNode_eq document node
  | appendChild array child => exact InPlace.appendChild_eq document array child
  | renameKey object before after =>
      rw [perform, InPlace.discard_eq, InPlace.renameKey_eq, attempt]
      cases document.renameKey object before after <;> rfl

theorem refusal?_eq (document : Document) (edit : Edit) :
    edit.refusal? document =
      match edit.attempt document with
      | .ok _ => none
      | .error failure => some failure := by
  cases edit with
  | setMember object key value =>
      rw [refusal?, attempt, Document.setMember]
      cases found : document.member? key object with
      | none => cases document.content object <;> rfl
      | some existing =>
          cases recorded : document.content object with
          | object members => rfl
          | _ =>
              rw [Document.member?, recorded] at found
              cases found
  | appendChild array child =>
      rw [refusal?, attempt, Document.appendChild]
      by_cases linked : ((document.parent? child).isSome || decide (child = root)) = true
      · simp only [if_pos linked]
      · simp only [if_neg linked]
        cases document.content array <;> rfl
  | renameKey object before after =>
      rw [refusal?, attempt, Document.renameKey]
      cases document.content object with
      | object members =>
          dsimp only
          by_cases same : before = after
          · simp only [if_pos same, if_neg fun both : before ≠ after ∧ _ => both.1 same]
            rfl
          · by_cases taken : (memberOf? after members).isSome = true
            · simp only [if_neg same, if_pos taken, if_pos (And.intro same taken)]
              rfl
            · have free : ¬(before ≠ after ∧ (memberOf? after members).isSome = true) :=
                fun both => taken both.2
              simp only [if_neg same, if_neg taken, if_neg free]
              by_cases present : (memberOf? before members).isSome = true
              · rw [if_pos present]
                rfl
              · rw [if_neg present]
                rfl
      | _ => rfl
  | _ => rfl

end Edit

end TemplateFill
