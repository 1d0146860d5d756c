import TemplateFill.Proofs.Document.History

/-!
Edits of one part of a document.

A region of nodes is sealed if no link leads out of it, upwards or downwards, and nodes to come belong
to it. Edits of its nodes then write nowhere else. This needs no forest: it holds as well behind an
append that loops.
-/

namespace TemplateFill

namespace Document

/-- The links of the region's nodes stay in it, and nodes to come belong to it. -/
structure Sealed (document : Document) (region : NodeId → Prop) : Prop where
  children : ∀ node, region node → ∀ child ∈ document.children node, region child
  parents : ∀ node parent, region node → document.parent? node = some parent → region parent
  fresh : ∀ node, document.size ≤ node → region node

/-- Only nodes of the region change, and it is sealed behind the change. -/
structure Within (region : NodeId → Prop) (before after : Document) : Prop where
  grows : before.size ≤ after.size
  kept : ∀ node, ¬region node → after.nodes[node]? = before.nodes[node]?
  isSealed : after.Sealed region

def Leads (region : NodeId → Prop) (node : Node) : Prop :=
  (∀ child ∈ node.content.children, region child) ∧
    ∀ parent, node.parent? = some parent → region parent

variable {document before after last : Document} {region : NodeId → Prop}

namespace Within

theorem refl (isSealed : document.Sealed region) : Within region document document :=
  ⟨Nat.le_refl _, fun _ _ => rfl, isSealed⟩

theorem trans (first : Within region before after) (second : Within region after last) :
    Within region before last :=
  { grows := Nat.le_trans first.grows second.grows
    kept := fun node outside => (second.kept node outside).trans (first.kept node outside)
    isSealed := second.isSealed }

end Within

/-! ### Single writes -/

namespace Sealed

theorem setContent (isSealed : document.Sealed region) {node : NodeId} (inside : region node)
    {content : Content} (children : ∀ child ∈ content.children, region child) :
    Within region document (document.setContent node content) := by
  refine
    { grows := Nat.le_of_eq (size_setContent ..).symm
      kept := fun other outside => ?_
      isSealed :=
        { children := fun other within child directly => ?_
          parents := fun other parent within link => ?_
          fresh := fun other beyond => ?_ } }
  · rw [nodes_setContent, if_neg]
    rintro rfl
    exact outside inside
  · by_cases same : node = other
    · subst same
      by_cases present : node < document.size
      · rw [Document.children, content_setContent_self present] at directly
        exact children child directly
      · rw [children_of_size_le (by rw [size_setContent]; exact Nat.le_of_not_lt present)] at directly
        cases directly
    · rw [Document.children, content_setContent_of_ne same] at directly
      exact isSealed.children other within child directly
  · rw [parent?_setContent] at link
    exact isSealed.parents other parent within link
  · rw [size_setContent] at beyond
    exact isSealed.fresh other beyond

theorem setParent (isSealed : document.Sealed region) {node : NodeId} (inside : region node)
    {parent? : Option NodeId} (above : ∀ parent, parent? = some parent → region parent) :
    Within region document (document.setParent node parent?) := by
  refine
    { grows := Nat.le_of_eq (size_setParent ..).symm
      kept := fun other outside => ?_
      isSealed :=
        { children := fun other within child directly => ?_
          parents := fun other parent within link => ?_
          fresh := fun other beyond => ?_ } }
  · rw [nodes_setParent, if_neg]
    rintro rfl
    exact outside inside
  · rw [Document.children, content_setParent] at directly
    exact isSealed.children other within child directly
  · by_cases same : node = other
    · subst same
      have present := lt_size_of_parent? link
      rw [size_setParent] at present
      rw [parent?_setParent_self present] at link
      exact above parent link
    · rw [parent?_setParent_of_ne same] at link
      exact isSealed.parents other parent within link
  · rw [size_setParent] at beyond
    exact isSealed.fresh other beyond

theorem extend (isSealed : document.Sealed region) {nodes : List Node}
    (lead : ∀ node ∈ nodes, Leads region node) :
    Within region document (document.extend nodes) := by
  have found : ∀ other, ¬other < document.size →
      (document.extend nodes).nodes[other]? = nodes[other - document.size]? := by
    intro other beyond
    rw [nodes_extend, if_neg beyond]
  refine
    { grows := by rw [size_extend]; exact Nat.le_add_right _ _
      kept := fun other outside => ?_
      isSealed :=
        { children := fun other within child directly => ?_
          parents := fun other parent within link => ?_
          fresh := fun other beyond => ?_ } }
  · rw [nodes_extend, if_pos (Nat.lt_of_not_le fun beyond => outside (isSealed.fresh other beyond))]
  · by_cases old : other < document.size
    · rw [Document.children, content_extend old] at directly
      exact isSealed.children other within child directly
    · rw [Document.children, content, found other old] at directly
      cases new : nodes[other - document.size]? with
      | none => rw [new] at directly; cases directly
      | some node =>
          rw [new] at directly
          exact (lead node (List.mem_of_getElem? new)).1 child directly
  · by_cases old : other < document.size
    · rw [parent?_extend old] at link
      exact isSealed.parents other parent within link
    · rw [Document.parent?, found other old] at link
      obtain ⟨node, new, link⟩ := Option.bind_eq_some_iff.mp link
      exact (lead node (List.mem_of_getElem? new)).2 parent link
  · rw [size_extend] at beyond
    exact isSealed.fresh other (Nat.le_trans (Nat.le_add_right _ _) beyond)

theorem release (isSealed : document.Sealed region) {nodes : List NodeId}
    (inside : ∀ node ∈ nodes, region node) : Within region document (document.release nodes) := by
  induction nodes generalizing document with
  | nil => exact .refl isSealed
  | cons node rest ih =>
      obtain ⟨here, others⟩ := List.forall_mem_cons.mp inside
      have first : Within region document (document.setParent node none) :=
        isSealed.setParent here nofun
      exact first.trans (ih first.isSealed others)

end Sealed

/-! ### Values laid out -/

theorem le_of_mem_contentOf {first child : NodeId} {value : Json}
    (directly : child ∈ (contentOf first value).children) : first ≤ child := by
  rw [← Tree.content_place 0 first value, Tree.content_children] at directly
  obtain ⟨below, inside, rfl⟩ := List.mem_map.mp directly
  exact Tree.le_number_of_mem_place inside

theorem region_of_mem_contentOf {bound first : NodeId}
    (fresh : ∀ node, bound ≤ node → region node) (low : bound ≤ first) (value : Json) :
    ∀ child ∈ (contentOf first value).children, region child :=
  fun child directly => fresh child (Nat.le_trans low (le_of_mem_contentOf directly))

mutual

theorem leads_layOut {bound first : NodeId} (fresh : ∀ node, bound ≤ node → region node)
    (low : bound ≤ first) {parent? : Option NodeId}
    (above : ∀ parent, parent? = some parent → region parent) :
    ∀ value, ∀ node ∈ layOut first parent? value, Leads region node
  | .scalar value => by
      rw [layOut]
      intro node only
      rw [List.mem_singleton.mp only]
      exact ⟨nofun, above⟩
  | .array elements => by
      have directly := region_of_mem_contentOf fresh (Nat.le_succ_of_le low) (.array elements)
      rw [layOut]
      exact List.forall_mem_cons.mpr ⟨⟨directly, above⟩,
        leads_layOutElements fresh (Nat.le_succ_of_le low) (fresh first low) elements⟩
  | .object members => by
      have directly := region_of_mem_contentOf fresh (Nat.le_succ_of_le low) (.object members)
      rw [layOut]
      exact List.forall_mem_cons.mpr ⟨⟨directly, above⟩,
        leads_layOutMembers fresh (Nat.le_succ_of_le low) (fresh first low) members⟩

theorem leads_layOutElements {bound first parent : NodeId}
    (fresh : ∀ node, bound ≤ node → region node) (low : bound ≤ first) (above : region parent) :
    ∀ elements, ∀ node ∈ layOutElements first parent elements, Leads region node
  | [] => by rw [layOutElements]; exact nofun
  | element :: rest => by
      rw [layOutElements]
      refine List.forall_mem_append.mpr ⟨leads_layOut fresh low (fun _ same => ?_) element, ?_⟩
      · cases same
        exact above
      · exact leads_layOutElements fresh (Nat.le_trans low (Nat.le_add_right _ _)) above rest

theorem leads_layOutMembers {bound first parent : NodeId}
    (fresh : ∀ node, bound ≤ node → region node) (low : bound ≤ first) (above : region parent) :
    ∀ members, ∀ node ∈ layOutMembers first parent members, Leads region node
  | [] => by rw [layOutMembers]; exact nofun
  | (key, value) :: rest => by
      rw [layOutMembers]
      refine List.forall_mem_append.mpr ⟨leads_layOut fresh low (fun _ same => ?_) value, ?_⟩
      · cases same
        exact above
      · exact leads_layOutMembers fresh (Nat.le_trans low (Nat.le_add_right _ _)) above rest

end

theorem leads_layOutChildren {bound first parent : NodeId}
    (fresh : ∀ node, bound ≤ node → region node) (low : bound ≤ first) (above : region parent)
    (value : Json) : ∀ node ∈ layOutChildren first parent value, Leads region node := by
  cases value with
  | scalar value => exact nofun
  | array elements => exact leads_layOutElements fresh low above elements
  | object members => exact leads_layOutMembers fresh low above members

/-! ### Edits -/

namespace Sealed

theorem insert (isSealed : document.Sealed region) {parent? : Option NodeId}
    (above : ∀ parent, parent? = some parent → region parent) (value : Json) :
    Within region document (document.insert parent? value).1 :=
  isSealed.extend (leads_layOut isSealed.fresh (Nat.le_refl _) above value)

/-- A clone belongs to every sealed region, whatever it is a clone of. -/
theorem deepClone (isSealed : document.Sealed region) (node : NodeId) :
    Within region document (document.deepClone node).1 := by
  have unlinked : ∀ parent, (none : Option NodeId) = some parent → region parent := nofun
  exact isSealed.insert unlinked (document.nodeToJson node)

theorem replaceValue (isSealed : document.Sealed region) {node : NodeId} (inside : region node)
    (value : Json) : Within region document (document.replaceValue node value) := by
  have released := isSealed.release (isSealed.children node inside)
  have longer := released.isSealed.extend
    (leads_layOutChildren isSealed.fresh (Nat.le_refl _) inside value)
  have written := longer.isSealed.setContent inside
    (region_of_mem_contentOf isSealed.fresh (Nat.le_refl document.size) value)
  exact (released.trans longer).trans written

theorem member? (isSealed : document.Sealed region) {key : String} {object member : NodeId}
    (inside : region object) (found : document.member? key object = some member) :
    region member := by
  refine isSealed.children object inside member ?_
  rw [Document.member?] at found
  split at found
  · rename_i members recorded
    rw [Document.children, recorded]
    exact List.mem_map_of_mem (mem_of_memberOf? found)
  · cases found

theorem mem_of_mem_dropChild {node child : NodeId} {content : Content}
    (directly : child ∈ (dropChild node content).children) : child ∈ content.children := by
  cases content with
  | scalar value => exact directly
  | array elements => exact (List.mem_filter.mp directly).1
  | object members =>
      obtain ⟨member, kept, rfl⟩ := List.mem_map.mp directly
      exact List.mem_map_of_mem (List.mem_filter.mp kept).1

theorem removeNode (isSealed : document.Sealed region) {node : NodeId} (inside : region node) :
    Within region document (document.removeNode node) := by
  cases link : document.parent? node with
  | none =>
      rw [removeNode_of_none link]
      exact .refl isSealed
  | some parent =>
      have above := isSealed.parents node parent inside link
      have fewer : ∀ child ∈ (dropChild node (document.content parent)).children, region child :=
        fun child directly => isSealed.children parent above child (mem_of_mem_dropChild directly)
      have dropped := isSealed.setContent above fewer
      rw [removeNode_of_some link]
      exact dropped.trans (dropped.isSealed.setParent inside nofun)

theorem setMember (isSealed : document.Sealed region) {object member : NodeId}
    (inside : region object) {key : String} {value : Json}
    (done : document.setMember object key value = .ok (after, member)) :
    Within region document after := by
  obtain ⟨found, rfl⟩ | ⟨_, rfl, listed, recorded, rfl⟩ := setMember_cases done
  · exact isSealed.replaceValue (isSealed.member? inside found) value
  · have longer := isSealed.insert (fun parent same => Option.some.inj same ▸ inside) value
    refine longer.trans (longer.isSealed.setContent inside fun child directly => ?_)
    rw [Content.children, List.map_append, List.mem_append] at directly
    rcases directly with old | new
    · refine isSealed.children object inside child ?_
      rwa [Document.children, recorded]
    · rw [List.mem_singleton.mp new]
      exact isSealed.fresh _ (Nat.le_refl _)

theorem appendChild (isSealed : document.Sealed region) {array child : NodeId}
    (inside : region array) (given : region child)
    (done : document.appendChild array child = .ok after) : Within region document after := by
  obtain ⟨_, _, listed, recorded, rfl⟩ := appendChild_cases done
  have longer : ∀ node ∈ (Content.array (listed ++ [child])).children, region node := by
    refine List.forall_mem_append.mpr ⟨fun node old => ?_, List.forall_mem_singleton.mpr given⟩
    refine isSealed.children array inside node ?_
    rwa [Document.children, recorded]
  have written := isSealed.setContent inside longer
  exact written.trans (written.isSealed.setParent given fun parent same =>
    Option.some.inj same ▸ inside)

theorem renameKey (isSealed : document.Sealed region) {object : NodeId} (inside : region object)
    {old new : String} {renamed : Bool}
    (done : document.renameKey object old new = .ok (after, renamed)) :
    Within region document after := by
  obtain ⟨listed, recorded, _, ⟨rfl, _⟩ | ⟨_, rfl⟩⟩ := renameKey_cases done
  · exact .refl isSealed
  · refine isSealed.setContent inside fun child directly => ?_
    rw [Content.children, map_snd_renameMember] at directly
    refine isSealed.children object inside child ?_
    rwa [Document.children, recorded]

theorem apply (isSealed : document.Sealed region) {edit : Edit}
    (inside : ∀ node ∈ edit.nodes, region node) :
    Within region document (document.apply edit) := by
  cases edit with
  | deepClone node => exact isSealed.deepClone node
  | replaceValue node value =>
      exact isSealed.replaceValue (List.forall_mem_singleton.mp inside) value
  | setMember object key value =>
      rw [Document.apply]
      split
      · exact isSealed.setMember (List.forall_mem_singleton.mp inside) ‹_›
      · exact .refl isSealed
  | removeMember object key =>
      rw [Document.apply, Document.removeMember]
      split
      · exact .refl isSealed
      · rename_i member found
        exact isSealed.removeNode (isSealed.member? (List.forall_mem_singleton.mp inside) found)
  | removeNode node => exact isSealed.removeNode (List.forall_mem_singleton.mp inside)
  | appendChild array child =>
      obtain ⟨list, given⟩ := List.forall_mem_cons.mp inside
      rw [Document.apply]
      split
      · exact isSealed.appendChild list (List.forall_mem_singleton.mp given) ‹_›
      · exact .refl isSealed
  | renameKey object old new =>
      rw [Document.apply]
      split
      · exact isSealed.renameKey (List.forall_mem_singleton.mp inside) ‹_›
      · exact .refl isSealed

theorem run (isSealed : document.Sealed region) {edits : List Edit}
    (inside : ∀ edit ∈ edits, ∀ node ∈ edit.nodes, region node) :
    Within region document (document.run edits) := by
  induction edits generalizing document with
  | nil => exact .refl isSealed
  | cons edit later ih =>
      obtain ⟨here, others⟩ := List.forall_mem_cons.mp inside
      have first := isSealed.apply here
      exact first.trans (ih first.isSealed others)

/-! ### Values outside of the region -/

theorem ancestor? (isSealed : document.Sealed region) {node above : NodeId} {levels : Nat}
    (inside : region node) (found : document.ancestor? node levels = some above) :
    region above := by
  induction levels generalizing node with
  | zero =>
      cases found
      exact inside
  | succ levels ih =>
      obtain ⟨parent, link, found⟩ := Option.bind_eq_some_iff.mp found
      exact ih (isSealed.parents node parent inside link) found

theorem outside_of_mem_numbers (isSealed : document.Sealed region) {tree : Tree}
    (holds : document.Holds tree) (outside : ¬region tree.number) :
    ∀ node ∈ tree.numbers, ¬region node := by
  intro node within inside
  obtain ⟨levels, above⟩ := holds.ancestor? within
  exact outside (isSealed.ancestor? inside above)

end Sealed

namespace Within

theorem holds (within : Within region before after) (isSealed : before.Sealed region) {tree : Tree}
    (holds : before.Holds tree) (outside : ¬region tree.number) : after.Holds tree := by
  have apart := isSealed.outside_of_mem_numbers holds outside
  refine holds.transfer within.grows ?_ ?_
  · intro node inside
    rw [content, within.kept node (apart node inside), ← content]
  · intro node parent link above
    have kept := within.kept node fun inside =>
      apart parent above (isSealed.parents node parent inside link)
    rw [parent?, kept, ← parent?, link]

theorem nodeToJson (within : Within region before after) (isSealed : before.Sealed region)
    (wellFormed : before.WellFormed) {node : NodeId} (present : node < before.size)
    (outside : ¬region node) : after.nodeToJson node = before.nodeToJson node := by
  obtain ⟨tree, rfl, holds⟩ := wellFormed.grounded present
  have enough := Nat.le_trans (wellFormed.length_numbers_le holds) within.grows
  rw [wellFormed.nodeToJson_eq holds, Document.nodeToJson]
  exact WellFormed.toJsonWithin_eq (within.holds isSealed holds outside) after.size enough

end Within

end Document

end TemplateFill
