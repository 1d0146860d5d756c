import TemplateFill.Proofs.Mapping.Qualifiers

/-!
Writing the values of owners, in the order of their qualifiers.

Every write goes to the `value` of the owner of a qualifier. What qualifiers say is read from nodes
that no write has reached so far: an owner comes before all owners below it, and what a write puts in
place of an old value holds new nodes only. `Progress` is the invariant of a run of such writes, and
`Settled` says that the value of an owner is in place.
-/

namespace TemplateFill

namespace Document

variable {start now next : Document} {passed : List NodeId} {owner place : NodeId} {value : Json}

/-! ### The invariant -/

/-- A node that writes for the qualifiers that had their turn may have changed. -/
def Touched (start : Document) (passed : List NodeId) (node : NodeId) : Prop :=
  ∃ qualifier ∈ passed, ∃ owner, start.qualifierOwner? qualifier = some owner ∧
    (node = owner ∨ start.member? Key.value owner = some node)

/-- What a run of writes keeps of the document that it started from. Members of a node are only asked
for as long as the node has one of its old children, since a written value has none. -/
structure Progress (start now : Document) (passed : List NodeId) : Prop where
  wellFormed : now.WellFormed
  grows : start.size ≤ now.size
  links : ∀ node < start.size, ∀ parent, now.parent? node = some parent →
    start.parent? node = some parent
  contents : ∀ node < start.size, ¬start.Touched passed node →
    now.content node = start.content node
  members : ∀ node < start.size, (∃ child < start.size, now.parent? child = some node) → ∀ key,
    now.member? key node = start.member? key node ∨
      key = Key.value ∧ start.member? key node = none ∧
        ∃ place, start.size ≤ place ∧ now.member? key node = some place

def Settled (start now : Document) (owner : NodeId) (value : Json) : Prop :=
  ∃ tree : Tree, now.member? Key.value owner = some tree.number ∧ now.Holds tree ∧
    tree.toJson = value ∧ ∀ number ∈ tree.numbers, number = tree.number ∨ start.size ≤ number

namespace Progress

theorem refl (wellFormed : start.WellFormed) : Progress start start [] :=
  { wellFormed := wellFormed
    grows := Nat.le_refl _
    links := fun _ _ _ link => link
    contents := fun _ _ _ => rfl
    members := fun _ _ _ _ => Or.inl rfl }

theorem mono (progress : Progress start now passed) {more : List NodeId} (subset : passed ⊆ more) :
    Progress start now more :=
  { progress with
    contents := by
      intro node old untouched
      apply progress.contents node old
      rintro ⟨qualifier, inside, owner, found, touched⟩
      exact untouched ⟨qualifier, subset inside, owner, found, touched⟩ }

/-! ### What lies above old nodes -/

theorem losesLinks (progress : Progress start now passed) : start.LosesLinks now :=
  ⟨progress.grows, progress.links⟩

theorem apart_place (progress : Progress start now passed) (before : start.WellFormed)
    (write : MemberWrite now next owner Key.value place value) {node : NodeId}
    (old : node < start.size) (apart : ∀ levels, start.ancestor? node (levels + 1) ≠ some owner)
    (levels : Nat) : now.ancestor? node (levels + 1) ≠ some place := by
  intro found
  rcases write.place with ⟨_, link⟩ | ⟨_, same⟩
  · refine apart (levels + 1) (progress.losesLinks.ancestor? before old ?_)
    rw [ancestor?_succ, found]
    exact link
  · exact absurd (progress.wellFormed.lt_size_of_ancestor? found) (by rw [same]; exact Nat.lt_irrefl _)

theorem isAttached_write (progress : Progress start now passed) (before : start.WellFormed)
    (write : MemberWrite now next owner Key.value place value) {node : NodeId}
    (old : node < start.size) (apart : ∀ levels, start.ancestor? node (levels + 1) ≠ some owner)
    (attached : now.isAttached node = true) : next.isAttached node = true := by
  obtain ⟨levels, found⟩ := (progress.wellFormed.isAttached_iff_ancestor? node).mp attached
  exact (write.wellFormed.isAttached_iff_ancestor? node).mpr
    ⟨levels, write.ancestor? (progress.apart_place before write old apart) levels root found⟩

/-! ### Writing one value -/

theorem member?_eq_none (progress : Progress start now passed) (present : owner < start.size)
    (child : ∃ child < start.size, now.parent? child = some owner) {key : String}
    (missing : now.member? key owner = none) : start.member? key owner = none := by
  rcases progress.members owner present child key with same | ⟨_, none, _⟩
  · rw [← same, missing]
  · exact none

/-- A write for an owner sets a new node, or the value that the owner has from the start. -/
theorem place_of_write (progress : Progress start now passed)
    (write : MemberWrite now next owner Key.value place value) (present : owner < start.size)
    (child : ∃ child < start.size, now.parent? child = some owner) :
    start.size ≤ place ∨ start.member? Key.value owner = some place := by
  rcases write.place with ⟨found, _⟩ | ⟨_, same⟩
  · rcases progress.members owner present child Key.value with kept | ⟨_, _, new, fresh, foundNew⟩
    · exact Or.inr (kept.symm.trans found)
    · rw [found] at foundNew
      cases foundNew
      exact Or.inl fresh
  · exact Or.inl (same ▸ progress.grows)

/-- A write for a qualifier that has its turn keeps the invariant. -/
theorem write (progress : Progress start now passed)
    (write : MemberWrite now next owner Key.value place value) {qualifier : NodeId}
    (inside : qualifier ∈ passed) (owned : start.qualifierOwner? qualifier = some owner)
    (present : owner < start.size)
    (child : ∃ child < start.size, now.parent? child = some owner) :
    Progress start next passed := by
  refine
    { wellFormed := write.wellFormed
      grows := Nat.le_trans progress.grows write.grows
      links := (progress.losesLinks.trans write.losesLinks).links
      contents := ?_
      members := ?_ }
  · intro node old untouched
    have notOwner : node ≠ owner := fun same =>
      untouched ⟨qualifier, inside, owner, owned, Or.inl same⟩
    have notPlace : node ≠ place := by
      rintro rfl
      rcases progress.place_of_write write present child with new | was
      · exact Nat.not_lt.mpr new old
      · exact untouched ⟨qualifier, inside, owner, owned, Or.inr was⟩
    rw [write.contents node (Nat.lt_of_lt_of_le old progress.grows) notOwner notPlace,
      progress.contents node old untouched]
  · rintro node old ⟨lower, lowerOld, link⟩ key
    have lowerNow := Nat.lt_of_lt_of_le lowerOld progress.grows
    have membersBefore := progress.members node old
      ⟨lower, lowerOld, write.addsNoLinks lower lowerNow node link⟩ key
    by_cases here : node = owner
    · subst here
      by_cases same : key = Key.value
      · subst same
        rcases write.place with ⟨found, _⟩ | ⟨missing, fresh⟩
        · rwa [write.found, ← found]
        · exact Or.inr ⟨rfl, progress.member?_eq_none present child missing, place,
            fresh ▸ progress.grows, write.found⟩
      · rwa [write.otherMembers key same]
    · have notPlace : node ≠ place := by
        rintro rfl
        exact write.parent?_ne lowerNow link
      have kept : next.member? key node = now.member? key node := by
        rw [Document.member?,
          write.contents node (Nat.lt_of_lt_of_le old progress.grows) here notPlace,
          ← Document.member?]
      rwa [kept]

end Progress

/-! ### Values in place -/

theorem MemberWrite.settled (write : MemberWrite now next owner Key.value place value)
    (grows : start.size ≤ now.size) : Settled start next owner value := by
  obtain ⟨tree, rfl, holds, same, fresh⟩ := write.written
  exact ⟨tree, write.found, holds, same, fun number inside =>
    (fresh number inside).imp_right (Nat.le_trans grows)⟩

/-- A settled value outlasts the writes for owners that come later. -/
theorem Settled.write {other : NodeId} {settledValue : Json}
    (settled : Settled start now other settledValue) (progress : Progress start now passed)
    (write : MemberWrite now next owner Key.value place value) (present : owner < start.size)
    (child : ∃ child < start.size, now.parent? child = some owner) (old : other < start.size)
    (different : other ≠ owner)
    (apart : ∀ levels, start.ancestor? other (levels + 1) ≠ some owner) :
    Settled start next other settledValue := by
  obtain ⟨tree, found, holds, same, fresh⟩ := settled
  obtain ⟨lower, lowerOld, link⟩ := child
  have above := progress.wellFormed.parent?_of_member? found
  -- the owner is old and has an old child, but the settled value has new nodes below it only
  have ownerOutside : owner ∉ tree.numbers := by
    intro inside
    rcases fresh owner inside with top | new
    · exact progress.wellFormed.parent?_ne_of_fresh holds fresh lowerOld (top ▸ link)
    · exact Nat.not_lt.mpr new present
  have placeOutside : place ∉ tree.numbers := by
    intro inside
    rcases write.place with ⟨_, placeLink⟩ | ⟨_, new⟩
    · rcases holds.parent_mem inside with top | ⟨parent, within, parentLink⟩
      · rw [top, above] at placeLink
        exact different (Option.some.inj placeLink)
      · rw [placeLink] at parentLink
        cases parentLink
        exact ownerOutside within
    · exact absurd (holds.lt_size_of_mem_numbers inside) (by rw [new]; exact Nat.lt_irrefl _)
  have notPlace : other ≠ place := by
    rintro rfl
    rcases write.place with ⟨_, placeLink⟩ | ⟨_, new⟩
    · apply apart 0
      rw [Document.ancestor?, progress.links other old owner placeLink]
      rfl
    · exact absurd old (by rw [new]; exact Nat.not_lt.mpr progress.grows)
  refine ⟨tree, ?_, write.frame tree holds ownerOutside placeOutside, same, fresh⟩
  rw [Document.member?,
    write.contents other (Nat.lt_of_lt_of_le old progress.grows) different notPlace,
    ← Document.member?, found]

/-! ### The qualifier whose turn it is -/

namespace Progress

variable {qualifier : NodeId} {container : NodeId}

/-- Nodes below an owner are untouched at its turn, but for its own value. -/
theorem not_touched (before : start.WellFormed)
    (ahead : ∀ earlier ∈ passed, start.Precedes earlier qualifier)
    (owned : start.qualifierOwner? qualifier = some owner) {node : NodeId} {levels : Nat}
    (below : start.ancestor? node (levels + 1) = some owner)
    (notValue : start.member? Key.value owner ≠ some node) : ¬start.Touched passed node := by
  rintro ⟨earlier, inside, upper, upperOwned, here | isValue⟩
  · subst here
    exact (ahead earlier inside node owner upperOwned owned).1 levels below
  · have link := before.parent?_of_member? isValue
    rw [Document.ancestor?, link, Option.bind_some] at below
    cases levels with
    | zero =>
        cases below
        exact notValue isValue
    | succ levels => exact (ahead earlier inside upper owner upperOwned owned).1 levels below

theorem owner_of_attached (progress : Progress start now passed) (before : start.WellFormed)
    (upper : start.parent? container = some owner)
    (lower : start.parent? qualifier = some container)
    (attached : now.isAttached qualifier = true) :
    now.parent? qualifier = some container ∧ now.parent? container = some owner ∧
      now.isAttached owner = true := by
  have loses := progress.losesLinks
  obtain ⟨containerLink, container⟩ := loses.linked before progress.wellFormed lower attached
  obtain ⟨ownerLink, attachedOwner⟩ := loses.linked before progress.wellFormed upper container
  exact ⟨containerLink, ownerLink, attachedOwner⟩

theorem stringMember?_eq {key : String} {node : NodeId}
    (members : now.member? key node = start.member? key node)
    (contents : ∀ member, start.member? key node = some member →
      now.content member = start.content member) :
    now.stringMember? key node = start.stringMember? key node := by
  rw [Document.stringMember?, Document.stringMember?, members]
  cases found : start.member? key node with
  | none => rfl
  | some member =>
      rw [Option.bind_some, Option.bind_some, string?, string?, contents member found]

theorem reads (progress : Progress start now passed) (before : start.WellFormed)
    (ahead : ∀ earlier ∈ passed, start.Precedes earlier qualifier)
    (upper : start.parent? container = some owner)
    (lower : start.parent? qualifier = some container)
    (attached : now.isAttached qualifier = true) :
    now.qualifierOwner? qualifier = some owner ∧
      (∀ key, now.stringMember? key qualifier = start.stringMember? key qualifier) ∧
      now.modelType? owner = start.modelType? owner := by
  have owned := qualifierOwner?_of_parents lower upper
  obtain ⟨lowerNow, upperNow, _⟩ := progress.owner_of_attached before upper lower attached
  have qualifierOld := lt_size_of_parent? lower
  have containerOld := lt_size_of_parent? upper
  have ownerOld := before.parent_present upper
  refine ⟨?_, ?_, ?_⟩
  · rw [qualifierOwner?, Document.ancestor?, lowerNow, Option.bind_some, Document.ancestor?,
      upperNow]
    rfl
  · have notValue : ∀ {node : NodeId} {levels : Nat}, start.ancestor? node (levels + 2) = some owner →
        start.member? Key.value owner ≠ some node := by
      intro node levels above isValue
      rw [Document.ancestor?, before.parent?_of_member? isValue, Option.bind_some] at above
      exact before.ancestor?_ne_self owner levels above
    have contents := progress.contents qualifier qualifierOld
      (not_touched before ahead owned owned (notValue owned))
    refine fun key => stringMember?_eq ?_ ?_
    · rw [Document.member?, contents, ← Document.member?]
    · intro member found
      have link := before.parent?_of_member? found
      have above : start.ancestor? member 3 = some owner := by
        rw [Document.ancestor?, link]
        exact owned
      exact progress.contents member (lt_size_of_parent? link)
        (not_touched before ahead owned above (notValue above))
  · refine congrArg (Option.map ModelType.ofName) (stringMember?_eq ?_ ?_)
    · rcases progress.members owner ownerOld ⟨container, containerOld, upperNow⟩ Key.modelType with
        same | ⟨impossible, _⟩
      · exact same
      · exact absurd impossible (by decide)
    · intro member found
      have link := before.parent?_of_member? found
      have above : start.ancestor? member 1 = some owner := by
        rw [Document.ancestor?, link]
        rfl
      refine progress.contents member (lt_size_of_parent? link)
        (not_touched before ahead owned above fun isValue => ?_)
      exact absurd (before.member?_inj found isValue) (by decide)

end Progress

end Document

end TemplateFill
