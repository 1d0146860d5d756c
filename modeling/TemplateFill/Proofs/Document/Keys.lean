import TemplateFill.Proofs.Document.Reachable

/-!
Objects whose keys are distinct.

A value read from a text has no key twice in an object. The nodes of its document keep that under
every edit that writes such values only: a new member is added where its key is missing, and a
member is renamed to a missing key.
-/

namespace TemplateFill

inductive Json.KeysDistinct : Json → Prop
  | scalar (value : Scalar) : KeysDistinct (.scalar value)
  | array {elements : List Json} (each : ∀ element ∈ elements, KeysDistinct element) :
      KeysDistinct (.array elements)
  | object {members : List (String × Json)} (apart : (members.map Prod.fst).Nodup)
      (each : ∀ member ∈ members, KeysDistinct member.2) : KeysDistinct (.object members)

def Content.KeysDistinct : Content → Prop
  | .object members => (members.map Prod.fst).Nodup
  | _ => True

namespace Tree

def KeysDistinct (tree : Tree) : Prop :=
  ∀ below ∈ tree.preorder, below.content.KeysDistinct

variable {tree : Tree}

theorem keysDistinct_iff :
    tree.KeysDistinct ↔
      tree.content.KeysDistinct ∧ ∀ child ∈ tree.children, child.KeysDistinct := by
  constructor
  · intro distinct
    refine ⟨distinct tree tree.self_mem_preorder, fun child inside below within => ?_⟩
    exact distinct below (preorder_trans (child_mem_preorder inside) within)
  · rintro ⟨top, children⟩ below within
    rcases mem_preorder_iff.mp within with rfl | ⟨child, inside, deeper⟩
    · exact top
    · exact children child inside below deeper

theorem keysDistinct_object {number : NodeId} {members : List (String × Tree)} :
    (Tree.object number members).content.KeysDistinct ↔ (members.map Prod.fst).Nodup := by
  simp only [content, Content.KeysDistinct, List.map_map, Function.comp_def]

theorem keysDistinct_toJson : tree.toJson.KeysDistinct ↔ tree.KeysDistinct := by
  induction tree using induction with
  | step tree ih =>
      rw [keysDistinct_iff]
      cases tree with
      | scalar number value =>
          rw [toJson]
          exact ⟨fun _ => ⟨trivial, nofun⟩, fun _ => .scalar value⟩
      | array number elements =>
          rw [toJson]
          constructor
          · rintro (_ | each | _)
            exact ⟨trivial, fun child inside =>
              (ih child inside).mp (each _ (List.mem_map_of_mem inside))⟩
          · rintro ⟨-, each⟩
            apply Json.KeysDistinct.array
            intro element inside
            obtain ⟨child, directly, rfl⟩ := List.mem_map.mp inside
            exact (ih child directly).mpr (each child directly)
      | object number members =>
          rw [toJson, keysDistinct_object]
          constructor
          · rintro (_ | _ | ⟨apart, each⟩)
            rw [List.map_map] at apart
            refine ⟨apart, fun child inside => ?_⟩
            obtain ⟨member, present, rfl⟩ := List.mem_map.mp inside
            exact (ih member.2 inside).mp (each _ (List.mem_map_of_mem present))
          · rintro ⟨apart, each⟩
            apply Json.KeysDistinct.object
            · rwa [List.map_map]
            · intro member inside
              obtain ⟨old, present, rfl⟩ := List.mem_map.mp inside
              have directly : old.2 ∈ (Tree.object number members).children :=
                List.mem_map_of_mem present
              exact (ih old.2 directly).mpr (each old.2 directly)

theorem keysDistinct_place {number first : NodeId} {value : Json}
    (distinct : value.KeysDistinct) : (place number first value).KeysDistinct := by
  rw [← keysDistinct_toJson, toJson_place]
  exact distinct

theorem keysDistinct_filterChildren {keep : Tree → Bool} (distinct : tree.KeysDistinct) :
    (tree.filterChildren keep).KeysDistinct := by
  rw [keysDistinct_iff] at distinct ⊢
  obtain ⟨top, children⟩ := distinct
  constructor
  · cases tree with
    | scalar number value => trivial
    | array number elements => trivial
    | object number members =>
        rw [keysDistinct_object] at top
        exact keysDistinct_object.mpr (top.sublist (List.filter_sublist.map _))
  · intro child inside
    rw [children_filterChildren] at inside
    exact children child (List.mem_of_mem_filter inside)

end Tree

namespace Document

variable {document edited : Document} {tree subtree : Tree}

def KeysDistinct (document : Document) : Prop :=
  ∀ node, (document.content node).KeysDistinct

theorem Holds.keysDistinct (holds : document.Holds tree) (distinct : document.KeysDistinct) :
    tree.KeysDistinct := by
  intro below within
  rw [← (holds.of_mem_preorder within).content]
  exact distinct below.number

/-- Reading a node back gives a value without a key twice in an object. -/
theorem WellFormed.keysDistinct_nodeToJson (wellFormed : document.WellFormed)
    (distinct : document.KeysDistinct) {node : NodeId} (present : node < document.size) :
    (document.nodeToJson node).KeysDistinct := by
  obtain ⟨tree, rfl, holds⟩ := wellFormed.grounded present
  rw [wellFormed.nodeToJson_eq holds]
  exact Tree.keysDistinct_toJson.mpr (holds.keysDistinct distinct)

theorem keysDistinct_of_size_le {node : NodeId} (beyond : document.size ≤ node) :
    (document.content node).KeysDistinct := by
  rw [content_of_size_le beyond]
  trivial

instance (content : Content) : Decidable content.KeysDistinct :=
  match content with
  | .scalar _ => isTrue trivial
  | .array _ => isTrue trivial
  | .object members => inferInstanceAs (Decidable (members.map Prod.fst).Nodup)

instance (document : Document) : Decidable document.KeysDistinct :=
  decidable_of_iff (∀ node < document.size, (document.content node).KeysDistinct)
    ⟨fun each node => (Nat.lt_or_ge node document.size).elim (each node) keysDistinct_of_size_le,
      fun distinct node _ => distinct node⟩

theorem Holds.content_keysDistinct (holds : document.Holds tree) (distinct : tree.KeysDistinct)
    {node : NodeId} (inside : node ∈ tree.numbers) : (document.content node).KeysDistinct := by
  obtain ⟨below, within, rfl⟩ := Tree.exists_of_mem_numbers inside
  rw [(holds.of_mem_preorder within).content]
  exact distinct below within

theorem keysDistinct_ofJson {value : Json} (distinct : value.KeysDistinct) :
    (ofJson value).KeysDistinct := by
  intro node
  by_cases present : node < (ofJson value).size
  · apply (ofJson_holds value).content_keysDistinct (Tree.keysDistinct_place distinct)
    rw [Tree.numbers_ofJson, List.mem_range'_1, root, Nat.zero_add, ← size_ofJson]
    exact ⟨Nat.zero_le _, present⟩
  · exact keysDistinct_of_size_le (Nat.le_of_not_lt present)

theorem KeysDistinct.insert (distinct : document.KeysDistinct) {value : Json}
    (apart : value.KeysDistinct) : (document.insert none value).1.KeysDistinct := by
  intro node
  by_cases old : node < document.size
  · rw [Document.insert, content_extend old]
    exact distinct node
  · by_cases present : node < (document.insert none value).1.size
    · apply (holds_insert document none value).1.content_keysDistinct
        (Tree.keysDistinct_place apart)
      rw [Tree.numbers_ofJson, List.mem_range'_1]
      rw [size_insert] at present
      exact ⟨Nat.le_of_not_lt old, present⟩
    · exact keysDistinct_of_size_le (Nat.le_of_not_lt present)

theorem EditAt.keysDistinct (edit : EditAt document edited subtree)
    (distinct : document.KeysDistinct) (apart : subtree.KeysDistinct) : edited.KeysDistinct := by
  intro node
  by_cases here : node = subtree.number
  · rw [here]
    exact edit.held.content_keysDistinct apart subtree.number_mem_numbers
  · by_cases old : node < document.size
    · rw [edit.contents node old here]
      exact distinct node
    · by_cases present : node < edited.size
      · exact edit.held.content_keysDistinct apart
          (edit.fresh node (Nat.le_of_not_lt old) present).1
      · exact keysDistinct_of_size_le (Nat.le_of_not_lt present)

/-! ### Keys of members -/

theorem memberOf?_eq_none_iff {α : Type} {key : String} {members : List (String × α)} :
    memberOf? key members = none ↔ key ∉ members.map Prod.fst := by
  induction members with
  | nil => simp [memberOf?]
  | cons member rest ih =>
      obtain ⟨name, first⟩ := member
      rw [memberOf?, List.map_cons, List.mem_cons, not_or, ← ih]
      by_cases same : name = key
      · simp [same]
      · simp [same, Ne.symm same]

theorem memberOf?_of_mem {α : Type} {key : String} {value : α} {members : List (String × α)}
    (apart : (members.map Prod.fst).Nodup) (inside : (key, value) ∈ members) :
    memberOf? key members = some value := by
  induction members with
  | nil => cases inside
  | cons member rest ih =>
      obtain ⟨name, first⟩ := member
      rw [List.map_cons, List.nodup_cons] at apart
      rw [memberOf?]
      rcases List.mem_cons.mp inside with here | later
      · cases here
        exact if_pos rfl
      · have different : name ≠ key := by
          rintro rfl
          exact apart.1 (List.mem_map.mpr ⟨_, later, rfl⟩)
        rw [if_neg different]
        exact ih apart.2 later

theorem nodup_append_member {α : Type} {key : String} {members : List (String × α)} (value : α)
    (apart : (members.map Prod.fst).Nodup) (missing : memberOf? key members = none) :
    ((members ++ [(key, value)]).map Prod.fst).Nodup := by
  rw [List.map_append, List.map_singleton, List.nodup_append]
  refine ⟨apart, List.nodup_singleton _, ?_⟩
  intro left inLeft right inRight
  rw [List.mem_singleton.mp inRight]
  rintro rfl
  exact memberOf?_eq_none_iff.mp missing inLeft

theorem keys_renameMember_subset {α : Type} (before after : String)
    (members : List (String × α)) :
    (renameMember before after members).map Prod.fst ⊆ after :: members.map Prod.fst := by
  induction members with
  | nil => exact List.nil_subset _
  | cons member rest ih =>
      obtain ⟨name, first⟩ := member
      rw [renameMember]
      split
      · intro key inside
        simp only [List.map_cons, List.mem_cons] at inside ⊢
        exact inside.imp_right Or.inr
      · intro key inside
        have later := @ih key
        simp only [List.map_cons, List.mem_cons] at inside later ⊢
        rcases inside with here | further
        · exact Or.inr (Or.inl here)
        · exact (later further).imp_right Or.inr

theorem nodup_renameMember {α : Type} {before after : String} {members : List (String × α)}
    (apart : (members.map Prod.fst).Nodup) (missing : memberOf? after members = none) :
    ((renameMember before after members).map Prod.fst).Nodup := by
  rw [memberOf?_eq_none_iff] at missing
  induction members with
  | nil => exact apart
  | cons member rest ih =>
      obtain ⟨name, first⟩ := member
      rw [List.map_cons, List.nodup_cons] at apart
      rw [List.map_cons, List.mem_cons, not_or] at missing
      rw [renameMember]
      split
      · exact List.nodup_cons.mpr ⟨missing.2, apart.2⟩
      · refine List.nodup_cons.mpr ⟨fun inside => ?_, ih apart.2 missing.2⟩
        rcases List.mem_cons.mp (keys_renameMember_subset before after rest inside) with same | old
        · exact missing.1 same.symm
        · exact apart.1 old

end Document

end TemplateFill
