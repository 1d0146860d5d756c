import TemplateFill.Proofs.Document.Keys
import Mathlib.Logic.Relation

/-!
Histories: edits of a document, one after the other.

Every edit of a history keeps the links of the document a forest and its keys distinct. What a
reader of nodes relies on follows from these two: links upwards and downwards answer each other one
to one, and the attached nodes are those that the root leads to.
-/

namespace TemplateFill

/-- A structural edit, with the nodes and values it is asked for. -/
inductive Edit where
  | deepClone (node : NodeId)
  | replaceValue (node : NodeId) (value : Json)
  | setMember (object : NodeId) (key : String) (value : Json)
  | removeMember (object : NodeId) (key : String)
  | removeNode (node : NodeId)
  | appendChild (array child : NodeId)
  | renameKey (object : NodeId) (before after : String)

def Edit.nodes : Edit → List NodeId
  | .deepClone node => [node]
  | .replaceValue node _ => [node]
  | .setMember object _ _ => [object]
  | .removeMember object _ => [object]
  | .removeNode node => [node]
  | .appendChild array child => [array, child]
  | .renameKey object _ _ => [object]

namespace Document

/-- The document behind an edit. An edit that fails leaves the document as it was. -/
def apply (document : Document) : Edit → Document
  | .deepClone node => (document.deepClone node).1
  | .replaceValue node value => document.replaceValue node value
  | .setMember object key value =>
      match document.setMember object key value with
      | .ok (edited, _) => edited
      | .error _ => document
  | .removeMember object key => (document.removeMember object key).1
  | .removeNode node => document.removeNode node
  | .appendChild array child =>
      match document.appendChild array child with
      | .ok edited => edited
      | .error _ => document
  | .renameKey object before after =>
      match document.renameKey object before after with
      | .ok (edited, _) => edited
      | .error _ => document

def run (document : Document) (edits : List Edit) : Document := edits.foldl apply document

/-- An edit may be asked for existing nodes and for values without a key twice in an object. No node
is to be put under itself or under a node below it. -/
def Allows (document : Document) : Edit → Prop
  | .deepClone node => node < document.size
  | .replaceValue node value => node < document.size ∧ value.KeysDistinct
  | .setMember object _ value => object < document.size ∧ value.KeysDistinct
  | .removeMember object _ => object < document.size
  | .removeNode node => node < document.size
  | .appendChild array child =>
      array < document.size ∧ child < document.size ∧
        ∀ levels, document.ancestor? array levels ≠ some child
  | .renameKey object _ _ => object < document.size

def Knows (document : Document) (edit : Edit) : Prop := ∀ node ∈ edit.nodes, node < document.size

instance (document : Document) (edit : Edit) : Decidable (document.Knows edit) :=
  inferInstanceAs (Decidable (∀ node ∈ edit.nodes, node < document.size))

/-- An append that is not refused although it puts a node under itself or under a node below it. -/
def Loops (document : Document) : Edit → Prop
  | .appendChild array child =>
      (∃ edited, document.appendChild array child = .ok edited) ∧
        ∃ levels, document.ancestor? array levels = some child
  | _ => False

def AllowsAll (document : Document) : List Edit → Prop
  | [] => True
  | edit :: later => document.Allows edit ∧ (document.apply edit).AllowsAll later

variable {document edited : Document}

/-! ### One edit -/

theorem Allows.knows {edit : Edit} (allowed : document.Allows edit) : document.Knows edit := by
  cases edit with
  | deepClone node => simpa [Knows, Allows, Edit.nodes] using allowed
  | replaceValue node value => simpa [Knows, Edit.nodes] using allowed.1
  | setMember object key value => simpa [Knows, Edit.nodes] using allowed.1
  | removeMember object key => simpa [Knows, Allows, Edit.nodes] using allowed
  | removeNode node => simpa [Knows, Allows, Edit.nodes] using allowed
  | appendChild array child => simpa [Knows, Edit.nodes] using And.intro allowed.1 allowed.2.1
  | renameKey object before after => simpa [Knows, Allows, Edit.nodes] using allowed

theorem Allows.not_loops {edit : Edit} (allowed : document.Allows edit) :
    ¬document.Loops edit := by
  cases edit with
  | appendChild array child =>
      rintro ⟨_, levels, above⟩
      exact allowed.2.2 levels above
  | _ => exact id

theorem reachable_apply (reachable : document.Reachable) {edit : Edit}
    (known : document.Knows edit) (noLoop : ¬document.Loops edit) :
    (document.apply edit).Reachable := by
  have present : ∀ node ∈ edit.nodes, node < document.size := known
  cases edit with
  | deepClone node => exact reachable.deepClone (present node (by simp [Edit.nodes]))
  | replaceValue node value =>
      exact reachable.replaceValue (present node (by simp [Edit.nodes])) value
  | setMember object key value =>
      rw [apply]
      split
      · exact reachable.setMember (present object (by simp [Edit.nodes])) ‹_›
      · exact reachable
  | removeMember object key =>
      exact reachable.removeMember (present object (by simp [Edit.nodes])) key
  | removeNode node => exact reachable.removeNode (present node (by simp [Edit.nodes]))
  | appendChild array child =>
      rw [apply]
      split
      · rename_i edited done
        refine reachable.appendChild (present array (by simp [Edit.nodes]))
          (present child (by simp [Edit.nodes])) (fun levels above => ?_) done
        exact noLoop ⟨⟨edited, done⟩, levels, above⟩
      · exact reachable
  | renameKey object before after =>
      rw [apply]
      split
      · exact reachable.renameKey (present object (by simp [Edit.nodes])) ‹_›
      · exact reachable

theorem KeysDistinct.replaceValue (distinct : document.KeysDistinct)
    (wellFormed : document.WellFormed) {node : NodeId} (present : node < document.size)
    {value : Json} (apart : value.KeysDistinct) : (document.replaceValue node value).KeysDistinct :=
  (replaceValue_editAt wellFormed present value).keysDistinct distinct
    (Tree.keysDistinct_place apart)

theorem KeysDistinct.removeNode (distinct : document.KeysDistinct)
    (wellFormed : document.WellFormed) (node : NodeId) :
    (document.removeNode node).KeysDistinct := by
  cases link : document.parent? node with
  | none => rwa [removeNode_of_none link]
  | some parent =>
      obtain ⟨tree, child, holds, inside, rfl, rfl⟩ := wellFormed.exists_above link
      apply (removeNode_editAt wellFormed holds inside).keysDistinct distinct
      exact Tree.keysDistinct_filterChildren (holds.keysDistinct distinct)

/-- Setting a member edits one node. Its new tree has distinct keys if those of the value and of the
node's old tree are distinct. -/
theorem WellFormed.exists_editAt_setMember (wellFormed : document.WellFormed)
    {object member : NodeId} {key : String} {value : Json} (apart : value.KeysDistinct)
    (done : document.setMember object key value = .ok (edited, member)) :
    ∃ subtree : Tree, EditAt document edited subtree ∧
      ((∀ old : Tree, document.Holds old → old.number = subtree.number → old.KeysDistinct) →
        subtree.KeysDistinct) := by
  obtain ⟨found, rfl⟩ | ⟨missing, rfl, listed, recorded, rfl⟩ := setMember_cases done
  · have below := lt_size_of_parent? (wellFormed.parent?_of_member? found)
    exact ⟨_, replaceValue_editAt wellFormed below value, fun _ => Tree.keysDistinct_place apart⟩
  · obtain ⟨members, holds, rfl⟩ := wellFormed.exists_object recorded
    refine ⟨_, appendMember_editAt wellFormed holds key value, fun distinct => ?_⟩
    obtain ⟨top, children⟩ := Tree.keysDistinct_iff.mp (distinct _ holds rfl)
    have absent : memberOf? key members = none :=
      Option.map_eq_none_iff.mp ((holds.member? key).symm.trans missing)
    rw [Tree.keysDistinct_object] at top
    refine Tree.keysDistinct_iff.mpr ⟨?_, fun child inside => ?_⟩
    · exact Tree.keysDistinct_object.mpr (nodup_append_member _ top absent)
    · rw [Tree.children, List.map_append, List.mem_append] at inside
      rcases inside with old | new
      · exact children child old
      · rw [List.mem_singleton.mp new]
        exact Tree.keysDistinct_place apart

theorem KeysDistinct.setMember (distinct : document.KeysDistinct)
    (wellFormed : document.WellFormed) {object member : NodeId} {key : String} {value : Json}
    (apart : value.KeysDistinct)
    (done : document.setMember object key value = .ok (edited, member)) : edited.KeysDistinct := by
  obtain ⟨subtree, edit, keeps⟩ := wellFormed.exists_editAt_setMember apart done
  exact edit.keysDistinct distinct (keeps fun _ holds _ => holds.keysDistinct distinct)

theorem KeysDistinct.setContent (distinct : document.KeysDistinct) (node : NodeId)
    {content : Content} (apart : content.KeysDistinct) :
    (document.setContent node content).KeysDistinct := by
  intro other
  by_cases here : node = other
  · subst here
    by_cases present : node < document.size
    · rwa [content_setContent_self present]
    · exact keysDistinct_of_size_le (by rw [size_setContent]; exact Nat.le_of_not_lt present)
  · rw [content_setContent_of_ne here]
    exact distinct other

theorem KeysDistinct.appendChild (distinct : document.KeysDistinct) {array child : NodeId}
    (done : document.appendChild array child = .ok edited) : edited.KeysDistinct := by
  obtain ⟨_, _, listed, _, rfl⟩ := appendChild_cases done
  have apart : (Content.array (listed ++ [child])).KeysDistinct := trivial
  intro node
  rw [appendElement, content_setParent]
  exact distinct.setContent array apart node

theorem KeysDistinct.renameKey (distinct : document.KeysDistinct) {object : NodeId}
    {before after : String} {renamed : Bool}
    (done : document.renameKey object before after = .ok (edited, renamed)) :
    edited.KeysDistinct := by
  obtain ⟨listed, recorded, _, ⟨rfl, _⟩ | ⟨free, rfl⟩⟩ := renameKey_cases done
  · exact distinct
  · have apart := distinct object
    rw [recorded] at apart
    exact distinct.setContent object (nodup_renameMember apart free)

theorem KeysDistinct.apply (distinct : document.KeysDistinct) (wellFormed : document.WellFormed)
    {edit : Edit} (allowed : document.Allows edit) : (document.apply edit).KeysDistinct := by
  cases edit with
  | deepClone node => exact distinct.insert (wellFormed.keysDistinct_nodeToJson distinct allowed)
  | replaceValue node value => exact distinct.replaceValue wellFormed allowed.1 allowed.2
  | setMember object key value =>
      rw [Document.apply]
      split
      · exact distinct.setMember wellFormed allowed.2 ‹_›
      · exact distinct
  | removeMember object key =>
      rw [Document.apply, removeMember]
      split
      · exact distinct
      · exact distinct.removeNode wellFormed _
  | removeNode node => exact distinct.removeNode wellFormed node
  | appendChild array child =>
      rw [Document.apply]
      split
      · exact distinct.appendChild ‹_›
      · exact distinct
  | renameKey object before after =>
      rw [Document.apply]
      split
      · exact distinct.renameKey ‹_›
      · exact distinct

/-! ### Whole histories -/

theorem reachable_run {edits : List Edit} (reachable : document.Reachable)
    (distinct : document.KeysDistinct) (allowed : document.AllowsAll edits) :
    (document.run edits).Reachable ∧ (document.run edits).KeysDistinct := by
  induction edits generalizing document with
  | nil => exact ⟨reachable, distinct⟩
  | cons edit later ih =>
      obtain ⟨first, others⟩ := allowed
      exact ih (reachable_apply reachable first.knows first.not_loops)
        (distinct.apply reachable.wellFormed first) others

/-- What links, keys and scalars of a document obey. -/
structure Forest (document : Document) : Prop where
  /-- Children exist and are linked to the node that lists them. -/
  linked : ∀ node, ∀ child ∈ document.children node,
    child < document.size ∧ document.parent? child = some node
  /-- A node with a parent is listed by it once. -/
  once : ∀ node parent, document.parent? node = some parent →
    (document.children parent).count node = 1
  rootless : document.parent? root = none
  keys : ∀ node members, document.content node = .object members → (members.map Prod.fst).Nodup
  /-- A scalar has no parts and reads back as itself. -/
  scalars : ∀ node < document.size, ∀ value, document.content node = .scalar value →
    document.children node = [] ∧ document.nodeToJson node = .scalar value
  /-- No node lies above itself. -/
  acyclic : ∀ node levels, document.ancestor? node (levels + 1) ≠ some node
  /-- Attached are the nodes that the root leads to through children. -/
  attached : ∀ node, document.isAttached node = true ↔
    Relation.ReflTransGen (fun parent child => child ∈ document.children parent) root node

theorem WellFormed.reflTransGen_iff (wellFormed : document.WellFormed) {above node : NodeId} :
    Relation.ReflTransGen (fun parent child => child ∈ document.children parent) above node ↔
      ∃ levels, document.ancestor? node levels = some above := by
  constructor
  · intro leads
    induction leads using Relation.ReflTransGen.head_induction_on with
    | refl => exact ⟨0, rfl⟩
    | head first _ ih =>
        obtain ⟨levels, found⟩ := ih
        refine ⟨levels + 1, ?_⟩
        rw [ancestor?_succ, found]
        exact (wellFormed.child first).2.2
  · rintro ⟨levels, found⟩
    induction levels generalizing above with
    | zero =>
        cases found
        exact .refl
    | succ levels ih =>
        rw [ancestor?_succ] at found
        obtain ⟨below, climbed, link⟩ := Option.bind_eq_some_iff.mp found
        exact .head (wellFormed.listed link) (ih climbed)

theorem WellFormed.forest (wellFormed : document.WellFormed) (distinct : document.KeysDistinct) :
    document.Forest :=
  { linked := fun node child inside => (wellFormed.child inside).2
    once := fun node parent link =>
      List.count_eq_one_of_mem (wellFormed.distinct parent) (wellFormed.listed link)
    rootless := wellFormed.rootless
    keys := fun node members recorded => by
      have apart := distinct node
      rwa [recorded] at apart
    scalars := fun node present value recorded => by
      refine ⟨by rw [children, recorded]; rfl, ?_⟩
      obtain ⟨tree, rfl, holds⟩ := wellFormed.grounded present
      rw [wellFormed.nodeToJson_eq holds]
      rw [holds.content] at recorded
      cases tree with
      | scalar number value =>
          cases recorded
          rw [Tree.toJson]
      | array number elements => cases recorded
      | object number members => cases recorded
    acyclic := wellFormed.ancestor?_ne_self
    attached := fun node => by
      rw [wellFormed.isAttached_iff_ancestor?, wellFormed.reflTransGen_iff] }

/-- Whatever history of edits is run on the document of a value, its links stay a forest. -/
theorem forest_run (value : Json) (edits : List Edit) (distinct : value.KeysDistinct)
    (allowed : (ofJson value).AllowsAll edits) : ((ofJson value).run edits).Forest := by
  obtain ⟨reachable, keys⟩ := reachable_run (.ofJson value) (keysDistinct_ofJson distinct) allowed
  exact reachable.wellFormed.forest keys

/-- A copy is appended next to its source, and a member of the source is renamed and then replaced.
-/
theorem forest_run_copy :
    let value : Json := .object [("rows", .array [.object [("id", .integer 1)]])]
    let edits : List Edit :=
      [.deepClone 2, .appendChild 1 4, .renameKey 2 "id" "key", .setMember 2 "key" (.bool true)]
    value.KeysDistinct ∧ (ofJson value).AllowsAll edits ∧ ((ofJson value).run edits).Forest := by
  intro value edits
  have distinct : value.KeysDistinct := by
    refine .object (by decide) fun member inside => ?_
    cases List.mem_singleton.mp inside
    refine .array fun element inside => ?_
    cases List.mem_singleton.mp inside
    refine .object (by decide) fun member inside => ?_
    cases List.mem_singleton.mp inside
    exact .scalar _
  have allowed : (ofJson value).AllowsAll edits := by
    simp only [edits, AllowsAll, Allows, and_true]
    refine ⟨by decide, ⟨by decide, by decide, ?_⟩, by decide +kernel, by decide +kernel, .scalar _⟩
    rintro (_ | _ | levels) <;> first | decide | nofun
  exact ⟨distinct, allowed, forest_run value edits distinct allowed⟩

end Document

end TemplateFill
