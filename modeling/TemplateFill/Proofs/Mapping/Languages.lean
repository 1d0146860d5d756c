import TemplateFill.Proofs.Document.Twins
import TemplateFill.Proofs.Mapping.Agreement
import TemplateFill.Proofs.Mapping.Defects
import TemplateFill.Proofs.Mapping.Instance

/-!
What the language and the new identifier reach.

Two runs over the same template and data are followed side by side. From the pass over the scalars
on their documents are twins, and attached nodes with different texts are the languages of entries
that were written and, in the end, the root's identifier. No pass reads any of them. So both runs
fail alike, or their instances are equal once these texts are blanked.
-/

namespace TemplateFill

namespace Document

/-! ### Spots -/

def entryLanguage? (document : Document) (element : NodeId) : Option NodeId :=
  (document.member? Key.value element).bind fun value =>
    match document.content value with
    | .array (entry :: _) => document.member? Key.language entry
    | _ => none

/-- The root's identifier, and the languages of the entries of some elements. -/
def spots (document : Document) (owners : List NodeId) : List NodeId :=
  (document.member? Key.id root).toList ++ owners.filterMap document.entryLanguage?

def blank (document : Document) (owners : List NodeId) : Document :=
  document.writeTexts ((document.spots owners).map fun node => (node, ""))

variable {document twin edited : Document} {owners : List NodeId} {node : NodeId}
  {texts : NodeId → Option String}

theorem entryLanguage?_eq_some {element : NodeId} :
    document.entryLanguage? element = some node ↔ ∃ value entry rest,
      document.member? Key.value element = some value ∧
        document.content value = .array (entry :: rest) ∧
          document.member? Key.language entry = some node := by
  unfold entryLanguage?
  rw [Option.bind_eq_some_iff]
  apply exists_congr
  intro value
  constructor
  · intro found
    split at found
    · rename_i entry rest recorded
      exact ⟨entry, rest, found.1, recorded, found.2⟩
    · cases found.2
  · intro found
    obtain ⟨entry, rest, isValue, recorded, isLanguage⟩ := found
    rw [recorded]
    exact ⟨isValue, isLanguage⟩

theorem mem_spots_iff : node ∈ document.spots owners ↔
    document.member? Key.id root = some node ∨
      ∃ owner ∈ owners, document.entryLanguage? owner = some node := by
  unfold spots
  rw [List.mem_append, Option.mem_toList, List.mem_filterMap]

theorem WellFormed.lt_size_of_mem_spots (wellFormed : document.WellFormed)
    (inside : node ∈ document.spots owners) : node < document.size := by
  rcases mem_spots_iff.mp inside with isId | ⟨owner, _, found⟩
  · exact lt_size_of_parent? (wellFormed.parent?_of_member? isId)
  · obtain ⟨_, _, _, _, _, isLanguage⟩ := entryLanguage?_eq_some.mp found
    exact lt_size_of_parent? (wellFormed.parent?_of_member? isLanguage)

section MemberWrite

variable {object place : NodeId} {key : String} {value : Json}

theorem MemberWrite.keepsMember (write : MemberWrite document edited object key place value)
    (wellFormed : document.WellFormed) {other : String} {owner : NodeId}
    (found : document.member? other owner = some node) (apart : node ≠ place)
    (attached : edited.isAttached node = true) :
    edited.member? other owner = some node ∧ owner ≠ place ∧ edited.isAttached owner = true := by
  have link := wellFormed.parent?_of_member? found
  have loses : document.LosesLinks edited := write.losesLinks
  obtain ⟨linkAfter, ownerAttached⟩ := loses.linked wellFormed write.wellFormed link attached
  have notPlace : owner ≠ place := by
    intro same
    exact write.parent?_ne (lt_size_of_parent? link) (same ▸ linkAfter)
  refine ⟨?_, notPlace, ownerAttached⟩
  by_cases here : owner = object
  · subst here
    by_cases same : other = key
    · subst same
      rcases write.place with ⟨isPlace, _⟩ | ⟨missing, _⟩
      · rw [found] at isPlace
        cases isPlace
        exact absurd rfl apart
      · rw [found] at missing
        cases missing
    · rw [write.otherMembers other same, found]
  · have old := wellFormed.parent_present link
    rw [Document.member?, write.contents owner old here notPlace, ← Document.member?, found]

theorem MemberWrite.mem_spots (write : MemberWrite document edited object key place value)
    (wellFormed : document.WellFormed) {members : List (String × NodeId)}
    (isObject : document.content object = .object members) (inside : node ∈ document.spots owners)
    (apart : node ≠ place) (attached : edited.isAttached node = true) :
    node ∈ edited.spots owners := by
  rw [mem_spots_iff] at inside ⊢
  rcases inside with isId | ⟨owner, isOwner, found⟩
  · exact .inl (write.keepsMember wellFormed isId apart attached).1
  · right
    refine ⟨owner, isOwner, ?_⟩
    rw [entryLanguage?_eq_some] at found ⊢
    obtain ⟨array, entry, rest, isValue, recorded, isLanguage⟩ := found
    obtain ⟨stillLanguage, entryApart, entryAttached⟩ :=
      write.keepsMember wellFormed isLanguage apart attached
    have listed : entry ∈ document.children array := by
      unfold children
      rw [recorded]
      exact List.mem_cons_self ..
    obtain ⟨arrayOld, entryOld, link⟩ := wellFormed.child listed
    have loses : document.LosesLinks edited := write.losesLinks
    obtain ⟨linkAfter, arrayAttached⟩ := loses.linked wellFormed write.wellFormed link entryAttached
    have arrayApart : array ≠ place := fun same => write.parent?_ne entryOld (same ▸ linkAfter)
    have notObject : array ≠ object := by
      intro same
      rw [same, isObject] at recorded
      cases recorded
    refine ⟨array, entry, rest, (write.keepsMember wellFormed isValue arrayApart arrayAttached).1,
      ?_, stillLanguage⟩
    rw [write.contents array arrayOld notObject arrayApart, recorded]

end MemberWrite

/-! ### Documents that differ in spots -/

/-- Documents whose attached nodes have the same contents but for texts in spots. -/
structure Paired (owners : List NodeId) (document twin : Document) : Prop where
  wellFormed : document.WellFormed
  twinWF : twin.WellFormed
  twins : ∃ texts, Twins texts document twin ∧
    ∀ node, document.isAttached node = true → texts node ≠ none → node ∈ document.spots owners

theorem WellFormed.paired_self (wellFormed : document.WellFormed) (owners : List NodeId) :
    Paired owners document document :=
  ⟨wellFormed, wellFormed, fun _ => none, .refl document, fun _ _ differs => absurd rfl differs⟩

theorem Paired.setMember (paired : Paired owners document twin) {object place : NodeId}
    {key : String} {value other : Json} {varied : NodeId → NodeId → NodeId → Option String}
    (varies : value.Varies other varied)
    (done : document.setMember object key value = .ok (edited, place))
    (become : ∀ first, edited.member? key object = some place →
      edited.Holds (Tree.place place first value) →
        ∀ node, varied place first node ≠ none → node ∈ edited.spots owners) :
    ∃ twinEdited, twin.setMember object key other = .ok (twinEdited, place) ∧
      Paired owners edited twinEdited := by
  obtain ⟨texts, twins, differ⟩ := paired.twins
  obtain ⟨twinEdited, first, twinDone, held, after⟩ :=
    twins.setMember paired.wellFormed paired.twinWF varies done
  have write := paired.wellFormed.memberWrite done
  obtain ⟨members, isObject⟩ := exists_members_of_setMember done
  refine ⟨twinEdited, twinDone, write.wellFormed, (paired.twinWF.memberWrite twinDone).wellFormed,
    _, after, ?_⟩
  intro node attached differs
  by_cases written : node = place ∨ document.size ≤ node
  · rw [textsBehind, if_pos written] at differs
    exact become first write.found held node differs
  · rw [textsBehind, if_neg written] at differs
    have old := Nat.not_le.mp fun new => written (.inr new)
    have loses : document.LosesLinks edited := write.losesLinks
    have before := loses.isAttached paired.wellFormed write.wellFormed old attached
    exact write.mem_spots paired.wellFormed isObject (differ node before differs)
      (fun same => written (.inl same)) attached

/-! ### Blanking -/

theorem Twins.spots (twins : Twins texts document twin) (owners : List NodeId) :
    twin.spots owners = document.spots owners := by
  have same : twin.entryLanguage? = document.entryLanguage? := by
    funext element
    unfold entryLanguage?
    rw [twins.member?]
    apply Option.bind_congr
    intro value _
    obtain ⟨text?, recorded⟩ := twins.exists_content value
    rw [recorded]
    cases document.content value with
    | array elements =>
        cases elements with
        | nil => rfl
        | cons entry rest => exact twins.member? Key.language entry
    | scalar value => rfl
    | object members => rfl
  unfold Document.spots
  rw [twins.member?, same]

theorem WellFormed.losesLinks_text (wellFormed : document.WellFormed)
    (present : node < document.size) (text : String) :
    document.LosesLinks (document.replaceValue node (.text text)) := by
  have edit := replaceValue_editAt wellFormed present (.text text)
  refine ⟨edit.grows, ?_⟩
  intro other old parent link
  refine edit.addsNoLinks ?_ old link
  intro child directly
  unfold Json.text at directly
  rw [Tree.place] at directly
  cases directly

theorem Twins.writeTexts (entries : List (NodeId × String)) (twins : Twins texts document twin)
    (wellFormed : document.WellFormed) (twinWF : twin.WellFormed)
    (present : ∀ entry ∈ entries, entry.1 < document.size) :
    (document.writeTexts entries).WellFormed ∧ (twin.writeTexts entries).WellFormed ∧
      ∃ after, Twins after (document.writeTexts entries) (twin.writeTexts entries) ∧
        ∀ node < document.size, (document.writeTexts entries).isAttached node = true →
          after node ≠ none → document.isAttached node = true ∧ texts node ≠ none ∧
            node ∉ entries.map Prod.fst := by
  induction entries generalizing document twin texts with
  | nil =>
      exact ⟨wellFormed, twinWF, texts, twins,
        fun node _ attached differs => ⟨attached, differs, List.not_mem_nil⟩⟩
  | cons entry rest ih =>
      obtain ⟨place, text⟩ := entry
      have here := present _ (List.mem_cons_self ..)
      have varies := Json.varies_self (.text text)
      have written := twins.replaceValue wellFormed twinWF here varies
      have loses := wellFormed.losesLinks_text here text
      have firstWF := (replaceValue_editAt wellFormed here (.text text)).wellFormed wellFormed
      have twinHere : place < twin.size := twins.size.symm ▸ here
      have twinFirstWF := (replaceValue_editAt twinWF twinHere (.text text)).wellFormed twinWF
      have stillPresent : ∀ entry ∈ rest,
          entry.1 < (document.replaceValue place (.text text)).size := by
        intro entry inside
        exact Nat.lt_of_lt_of_le (present entry (List.mem_cons_of_mem _ inside)) loses.grows
      obtain ⟨lastWF, twinLastWF, after, last, differ⟩ :=
        ih written firstWF twinFirstWF stillPresent
      refine ⟨lastWF, twinLastWF, after, last, ?_⟩
      intro node old attached differs
      obtain ⟨middle, differed, outside⟩ :=
        differ node (Nat.lt_of_lt_of_le old loses.grows) attached differs
      have apart : node ≠ place := by
        intro same
        rw [textsBehind, if_pos (.inl same)] at differed
        exact differed rfl
      rw [textsBehind_of_old old apart] at differed
      refine ⟨loses.isAttached wellFormed firstWF old middle, differed, ?_⟩
      rw [List.map_cons, List.mem_cons]
      exact not_or.mpr ⟨apart, outside⟩

theorem size_writeTexts (document : Document) (entries : List (NodeId × String)) :
    (document.writeTexts entries).size = document.size := by
  induction entries generalizing document with
  | nil => rfl
  | cons entry rest ih =>
      exact (ih (document.replaceValue entry.1 (.text entry.2))).trans
        (size_replaceValue entry.1 (.text entry.2))

theorem Twins.toJson_eq (twins : Twins texts document twin) (wellFormed : document.WellFormed)
    (twinWF : twin.WellFormed)
    (alike : ∀ node, document.isAttached node = true → texts node = none) :
    twin.toJson = document.toJson := by
  obtain ⟨tree, top, holds, whole⟩ := wellFormed.exists_root
  have twinHolds := twins.holds holds
  rw [Tree.retext_of_not_mem fun number inside =>
    alike number ((wellFormed.isAttached_iff holds top number).mpr inside)] at twinHolds
  rw [whole, Document.toJson, ← top, twinWF.nodeToJson_eq twinHolds]

theorem Paired.toJson_blank (paired : Paired owners document twin) :
    (twin.blank owners).toJson = (document.blank owners).toJson := by
  obtain ⟨texts, twins, differ⟩ := paired.twins
  unfold blank
  rw [twins.spots]
  have present : ∀ entry ∈ (document.spots owners).map fun node => (node, ""),
      entry.1 < document.size := by
    intro entry inside
    obtain ⟨node, isSpot, rfl⟩ := List.mem_map.mp inside
    exact paired.wellFormed.lt_size_of_mem_spots isSpot
  obtain ⟨blankWF, twinBlankWF, after, blanked, differs⟩ :=
    twins.writeTexts _ paired.wellFormed paired.twinWF present
  apply blanked.toJson_eq blankWF twinBlankWF
  intro node attached
  by_contra different
  have old : node < document.size := by
    obtain ⟨levels, found⟩ := (blankWF.isAttached_iff_ancestor? node).mp attached
    rw [← size_writeTexts]
    cases levels with
    | zero =>
        cases found
        exact blankWF.rooted
    | succ levels =>
        rw [ancestor?] at found
        obtain ⟨_, link, _⟩ := Option.bind_eq_some_iff.mp found
        exact lt_size_of_parent? link
  obtain ⟨before, differed, outside⟩ := differs node old attached different
  apply outside
  rw [List.map_map]
  exact List.mem_map.mpr ⟨node, differ node before differed, rfl⟩

end Document

/-! ### One mapping in two runs -/

/-- A text of an entry is all in which two languages differ. -/
theorem Scalars.varies_inLanguage (language other : String) (value : Json) :
    (inLanguage language value).Varies (inLanguage other value) fun _ first node =>
      if node = first + 1 + value.size then some other else none := by
  constructor
  · unfold inLanguage Json.text
    simp only [Json.size, Json.sizeOfElements, Json.sizeOfMembers]
  · intro number first
    have untouched : (Tree.place (first + 1) (first + 2) value).retext
        (fun node => if node = first + 1 + value.size then some other else none) =
          Tree.place (first + 1) (first + 2) value := by
      apply Tree.retext_of_not_mem
      intro node inside
      rw [Tree.numbers_place, List.mem_cons, List.mem_range'_1] at inside
      have positive := Tree.size_pos value
      apply if_neg
      rcases inside with same | within
      · rw [same]
        exact Nat.ne_of_lt (Nat.lt_add_of_pos_right positive)
      · exact fun same => absurd within.2 (by rw [same]; omega)
    unfold inLanguage Json.text
    simp only [Tree.place, Tree.placeElements, Tree.placeMembers, Tree.retext, List.map_cons,
      List.map_nil, if_pos, Option.elim_some]
    rw [untouched]

/-- An element whose mapping writes a text in several languages. -/
def Scalars.entryOwner? (document : Document) (data : Json) (qualifier : NodeId) :
    Option NodeId := do
  let owner ← document.qualifierOwner? qualifier
  let kind ← document.modelType? owner
  let path ← document.qualifierValue? qualifier
  let _ ← (Query.selectOneIn data path).toOption.join
  if kind = .multiLanguage then some owner else none

def Context.entryOwners (context : Context) : List NodeId :=
  context.processedQualifiers.filterMap (Scalars.entryOwner? context.working context.data)

structure Document.SameMapping (document twin : Document) (qualifier : NodeId) : Prop where
  owner : twin.qualifierOwner? qualifier = document.qualifierOwner? qualifier
  kind : ∀ owner, document.qualifierOwner? qualifier = some owner →
    twin.modelType? owner = document.modelType? owner
  path : twin.qualifierValue? qualifier = document.qualifierValue? qualifier
  cardinality : twin.qualifierCardinality qualifier = document.qualifierCardinality qualifier

structure Context.Paired (owners : List NodeId) (left right : Context) : Prop where
  data : right.data = left.data
  qualifier? : right.qualifier? = left.qualifier?
  documents : Document.Paired owners left.working right.working

namespace Context.Paired

variable {owners : List NodeId} {left right : Context}

theorem place (paired : Paired owners left right) : SamePlace left right := by
  obtain ⟨texts, twins, _⟩ := paired.documents.twins
  have same : right.working.location? = left.working.location? := funext twins.location?
  unfold SamePlace
  rw [paired.qualifier?, same]

theorem withQualifier (paired : Paired owners left right) (qualifier? : Option NodeId) :
    Paired owners { left with qualifier? } { right with qualifier? } :=
  ⟨paired.data, rfl, paired.documents⟩

theorem log (paired : Paired owners left right) (message other : String) :
    Paired owners (left.log message) (right.log other) :=
  ⟨paired.data, paired.qualifier?, paired.documents⟩

theorem agree_setMember (paired : Paired owners left right) {object : NodeId} {key : String}
    {value other : Json} {varied : NodeId → NodeId → NodeId → Option String}
    (varies : value.Varies other varied)
    (become : ∀ edited place first,
      left.working.setMember object key value = .ok (edited, place) →
        edited.member? key object = some place → edited.Holds (Tree.place place first value) →
          ∀ node, varied place first node ≠ none → node ∈ edited.spots owners) :
    Agree (fun first second => Document.Paired owners first.1 second.1)
      (left.edited (left.working.setMember object key value))
      (right.edited (right.working.setMember object key other)) := by
  cases done : left.working.setMember object key value with
  | error error =>
      obtain ⟨texts, twins, _⟩ := paired.documents.twins
      rw [twins.setMember_eq_error done other]
      exact paired.place.fail _
  | ok result =>
      obtain ⟨edited, place⟩ := result
      obtain ⟨twinEdited, twinDone, after⟩ :=
        paired.documents.setMember varies done fun first => become edited place first done
      rw [twinDone]
      exact .ok after

theorem agree_setMember_self (paired : Paired owners left right) (object : NodeId) (key : String)
    (value : Json) :
    Agree (fun first second => Document.Paired owners first.1 second.1)
      (left.edited (left.working.setMember object key value))
      (right.edited (right.working.setMember object key value)) :=
  paired.agree_setMember (Json.varies_self value) fun _ _ _ _ _ _ _ differs => absurd rfl differs

end Context.Paired

namespace Scalars

open Context (Paired)

variable {owners : List NodeId} {left right : Context} {qualifier owner : NodeId}

theorem agree_withValueMember (paired : Paired owners left right) (owner : NodeId)
    (kind : ModelType) :
    Agree (Paired owners) (withValueMember left owner kind) (withValueMember right owner kind) := by
  obtain ⟨texts, twins, _⟩ := paired.documents.twins
  unfold withValueMember
  rw [twins.member?]
  split
  · apply (paired.agree_setMember_self owner Key.value (.text "")).bind
    intro first second documents
    exact .ok ⟨paired.data, paired.qualifier?, documents⟩
  · exact .ok paired

theorem agree_write (paired : Paired owners left right) {kind : ModelType}
    (entry : kind = .multiLanguage → owner ∈ owners) (path : String) (value : Json) :
    Agree (Paired owners) (write left owner kind path value)
      (write right owner kind path value) := by
  have sets : Agree (fun first second => Document.Paired owners first.1 second.1)
      (left.edited (left.working.setMember owner Key.value (valueFor kind left.language value)))
      (right.edited
        (right.working.setMember owner Key.value (valueFor kind right.language value))) := by
    by_cases multi : kind = .multiLanguage
    · subst multi
      apply paired.agree_setMember (varies_inLanguage left.language right.language value)
      intro edited place first _ isValue holds node differs
      have isText : node = first + 1 + value.size := by
        by_contra different
        exact differs (if_neg different)
      unfold inLanguage at holds
      rw [Tree.place] at holds
      have array := holds.content
      have object := (holds.of_mem_children (List.mem_cons_self ..)).content
      rw [Document.mem_spots_iff]
      right
      refine ⟨owner, entry rfl, Document.entryLanguage?_eq_some.mpr ?_⟩
      refine ⟨place, first, [], isValue, array, ?_⟩
      have recorded : edited.content first = .object [(Key.text, first + 1),
          (Key.language, first + 1 + value.size)] := by
        rw [Tree.place, Tree.number] at object
        rw [object]
        simp only [Tree.placeMembers, Tree.content, List.map_cons, List.map_nil, Tree.number_place]
      rw [Document.member?, recorded, isText]
      rfl
    · have same : ∀ language, valueFor kind language value = value := by
        intro language
        unfold valueFor
        split
        · exact absurd rfl multi
        · rfl
      rw [same, same]
      exact paired.agree_setMember_self owner Key.value value
  unfold write
  apply sets.bind
  intro first second documents
  exact .ok ⟨paired.data, paired.qualifier?, documents⟩

theorem entryOwner?_of_selected {document : Document} {data value : Json} {path : String}
    (owned : document.qualifierOwner? qualifier = some owner)
    (isKind : document.modelType? owner = some .multiLanguage)
    (hasPath : document.qualifierValue? qualifier = some path)
    (selected : Query.selectOneIn data path = .ok (some value)) :
    entryOwner? document data qualifier = some owner := by
  unfold entryOwner?
  rw [owned, Option.bind_eq_bind, Option.bind_some, isKind, Option.bind_eq_bind, Option.bind_some,
    hasPath, Option.bind_eq_bind, Option.bind_some, selected]
  rfl

theorem agree_fill (paired : Paired owners left right)
    (same : left.working.SameMapping right.working qualifier)
    (entries : ∀ owner, entryOwner? left.working left.data qualifier = some owner →
      owner ∈ owners) :
    Agree (Paired owners) (fill left qualifier) (fill right qualifier) := by
  unfold fill
  dsimp only
  rw [same.owner, same.path, same.cardinality]
  apply (paired.place.require _ _).attach.bind
  rintro owner _ ⟨owned, _, rfl⟩
  rw [Context.require_eq_ok] at owned
  rw [same.kind owner owned]
  apply (paired.place.require _ _).attach.bind
  rintro kind _ ⟨isKind, _, rfl⟩
  rw [Context.require_eq_ok] at isKind
  apply (agree_withValueMember paired owner kind).attach.bind
  intro leftEnsured rightEnsured both
  obtain ⟨ensures, _, ensured⟩ := both
  have sameData : leftEnsured.data = left.data := by
    rcases withValueMember_ok ensures with unchanged | ⟨_, _, _, _, written⟩
    · rw [unchanged]
    · rw [written]
  obtain ⟨texts, twins, _⟩ := ensured.documents.twins
  rw [twins.member?]
  apply (ensured.place.require _ _).bind
  rintro _ _ _
  apply (ensured.place.require _ _).attach.bind
  rintro path _ ⟨hasPath, _, rfl⟩
  rw [Context.require_eq_ok] at hasPath
  rw [ensured.data]
  apply (ensured.place.selected _).attach.bind
  rintro found? _ ⟨selected, _, rfl⟩
  rw [Context.selected_eq_ok] at selected
  cases found? with
  | none =>
      dsimp only
      split
      · exact ensured.place.fail _
      · exact .ok ensured
  | some value =>
      apply agree_write ensured
      intro multi
      rw [sameData] at selected
      exact entries owner (entryOwner?_of_selected owned (multi ▸ isKind) hasPath selected)

/-- In two runs from one document, a mapping says the same at its turn. -/
theorem sameMapping_of_turn {leftStart rightStart : Context} {before rest : List NodeId}
    (same : rightStart.working = leftStart.working) (wellFormed : leftStart.working.WellFormed)
    (listed : leftStart.working.qualifiers Document.root .mappingInfo = before ++ qualifier :: rest)
    (leftReached : fillEach before leftStart = .ok left)
    (rightReached : fillEach before rightStart = .ok right)
    (leftAttached : left.working.isAttached qualifier = true)
    (rightAttached : right.working.isAttached qualifier = true) :
    left.working.SameMapping right.working qualifier ∧
      entryOwner? left.working left.data qualifier =
        entryOwner? leftStart.working leftStart.data qualifier := by
  obtain ⟨owner, container, owned, member, upper, lower⟩ :=
    exists_container wellFormed (listed ▸ List.mem_append_cons_self)
  have ahead := (precedes_of_split wellFormed listed).1
  have leftAlong := along_turn wellFormed listed leftReached
  have rightAlong := along_turn (same ▸ wellFormed) (same ▸ listed) rightReached
  obtain ⟨leftOwned, leftReads, leftKind⟩ :=
    leftAlong.progress.reads wellFormed ahead upper lower leftAttached
  have rightProgress := rightAlong.progress
  rw [same] at rightProgress
  obtain ⟨rightOwned, rightReads, rightKind⟩ :=
    rightProgress.reads wellFormed ahead upper lower rightAttached
  have leftCardinality := leftAlong.progress.qualifierCardinality wellFormed ahead member lower
  have rightCardinality := rightProgress.qualifierCardinality wellFormed ahead member lower
  constructor
  · refine ⟨rightOwned.trans leftOwned.symm, ?_, (rightReads _).trans (leftReads _).symm,
      rightCardinality.trans leftCardinality.symm⟩
    intro other found
    rw [leftOwned] at found
    cases found
    exact rightKind.trans leftKind.symm
  · unfold entryOwner? Document.qualifierValue?
    rw [leftOwned, owned, leftReads, leftAlong.data]
    simp only [Option.bind_eq_bind, Option.bind_some, leftKind]

/-- Two runs over the mappings of one document stay paired, and process the same mappings. -/
theorem agree_fillEach {leftStart rightStart : Context} {before rest : List NodeId}
    (same : rightStart.working = leftStart.working) (wellFormed : leftStart.working.WellFormed)
    (listed : leftStart.working.qualifiers Document.root .mappingInfo = before ++ rest)
    (leftReached : fillEach before leftStart = .ok left)
    (rightReached : fillEach before rightStart = .ok right) (paired : Paired owners left right)
    (entries : ∀ qualifier ∈ processed rest left, ∀ owner,
      entryOwner? leftStart.working leftStart.data qualifier = some owner → owner ∈ owners) :
    Agree (Paired owners) (fillEach rest left) (fillEach rest right) ∧
      processed rest right = processed rest left := by
  -- the runs stay paired, so a qualifier is attached in both at its turn, or in neither
  induction rest generalizing left right before with
  | nil => exact ⟨.ok paired, rfl⟩
  | cons qualifier rest ih =>
      obtain ⟨texts, twins, _⟩ := paired.documents.twins
      have split : leftStart.working.qualifiers Document.root .mappingInfo =
          (before ++ [qualifier]) ++ rest := by
        rw [listed, List.append_assoc, List.singleton_append]
      have reaches : ∀ {start state next : Context}, fillEach before start = .ok state →
          Passes state qualifier next → fillEach (before ++ [qualifier]) start = .ok next :=
        fun reached passes =>
          (fillEach_append ..).mpr ⟨_, reached, (fillEach_cons ..).mpr ⟨_, passes, rfl⟩⟩
      by_cases attached : left.working.isAttached qualifier = true
      · have rightAttached := (twins.isAttached qualifier).trans attached
        obtain ⟨sameMapping, sameEntry⟩ := sameMapping_of_turn same wellFormed listed leftReached
          rightReached attached rightAttached
        rw [processed, if_pos attached] at entries
        have now : qualifier ∈ processed (qualifier :: rest) left :=
          mem_processed_iff.mpr ⟨left, turnIn_cons.mpr (.inl ⟨rfl, rfl⟩), attached⟩
        rw [processed, if_pos attached] at now
        have fills := agree_fill (paired.withQualifier (some qualifier)) sameMapping
          fun owner found => entries qualifier now owner (sameEntry ▸ found)
        rw [processed, processed, fillEach, fillEach, if_pos attached, if_pos attached,
          if_pos rightAttached, if_pos rightAttached]
        have leftNext := fun next => (@passes_of_attached left qualifier next attached).mpr
        have rightNext := fun next => (@passes_of_attached right qualifier next rightAttached).mpr
        generalize fill { left with qualifier? := some qualifier } qualifier = leftResult at *
        generalize fill { right with qualifier? := some qualifier } qualifier = rightResult at *
        cases fills with
        | error cause location => exact ⟨.error cause location, rfl⟩
        | @ok leftAfter rightAfter after =>
            obtain ⟨runs, processes⟩ := ih split (reaches leftReached (leftNext _ rfl))
              (reaches rightReached (rightNext _ rfl)) after
              fun other inside => entries other (List.mem_cons_of_mem _ inside)
            exact ⟨runs, congrArg (List.cons qualifier) processes⟩
      · have rightDetached : ¬right.working.isAttached qualifier = true := by
          rwa [twins.isAttached]
        rw [processed, if_neg attached] at entries
        rw [processed, processed, fillEach, fillEach, if_neg attached, if_neg attached,
          if_neg rightDetached, if_neg rightDetached]
        rw [Bool.not_eq_true] at attached rightDetached
        exact ih split (reaches leftReached ((passes_of_detached attached).mpr rfl))
          (reaches rightReached ((passes_of_detached rightDetached).mpr rfl)) paired entries

end Scalars

/-! ### Passes in two runs -/

namespace Context

variable {owners : List NodeId} {left right : Context}

theorem SameState.paired (same : SameState left right) (wellFormed : left.working.WellFormed)
    (owners : List NodeId) : Paired owners left right :=
  ⟨same.data, same.qualifier?, same.working ▸ wellFormed.paired_self owners⟩

theorem SameState.entryOwners (same : SameState left right)
    (processes : right.processedQualifiers = left.processedQualifiers) :
    right.entryOwners = left.entryOwners := by
  unfold Context.entryOwners
  rw [processes, same.working, same.data]

theorem SameState.agree_mapScalars (same : SameState left right)
    (wellFormed : left.working.WellFormed) :
    Agree (Paired left.entryOwners) left.mapScalars right.mapScalars ∧
      right.entryOwners = left.entryOwners := by
  have entries : ∀ qualifier ∈ left.processedQualifiers, ∀ owner,
      Scalars.entryOwner? left.working left.data qualifier = some owner →
        owner ∈ left.entryOwners := by
    intro qualifier inside owner found
    exact List.mem_filterMap.mpr ⟨qualifier, inside, found⟩
  obtain ⟨runs, processes⟩ := Scalars.agree_fillEach same.working wellFormed
    (List.nil_append _).symm rfl rfl (same.paired wellFormed left.entryOwners) entries
  unfold Context.mapScalars
  rw [same.working]
  refine ⟨runs, same.entryOwners ?_⟩
  unfold Context.processedQualifiers
  rw [same.working]
  exact processes

theorem Paired.agree_stripQualifiers (paired : Paired owners left right) :
    Agree (Paired owners) left.stripQualifiers right.stripQualifiers := by
  obtain ⟨texts, twins, _⟩ := paired.documents.twins
  unfold Context.stripQualifiers
  rw [twins.member?]
  cases left.working.member? Key.qualifiers Document.root with
  | none => exact .ok paired
  | some place =>
      apply (paired.agree_setMember_self Document.root Key.qualifiers (.array [])).bind
      intro first second documents
      exact .ok ⟨paired.data, paired.qualifier?, documents⟩

theorem Paired.agree_replaceIdentifier (paired : Paired owners left right) :
    Agree (Paired owners) left.replaceIdentifier right.replaceIdentifier := by
  obtain ⟨texts, twins, _⟩ := paired.documents.twins
  unfold Context.replaceIdentifier
  rw [twins.member?]
  cases found : left.working.member? Key.id Document.root with
  | none => exact paired.place.fail _
  | some id =>
      have done := Document.setMember_of_some (.text left.newId) found
      obtain ⟨edited, twinDone, after⟩ := paired.documents.setMember
        (Json.varies_text left.newId right.newId) done (by
          intro first isId _ node differs
          have isText : node = id := by
            by_contra different
            exact differs (if_neg different)
          exact Document.mem_spots_iff.mpr (.inl (isText ▸ isId)))
      rw [Document.setMember_of_some _ ((twins.member? ..).trans found)] at twinDone
      cases twinDone
      exact .ok ⟨paired.data, paired.qualifier?, after⟩

end Context

namespace Pipeline

open Context (SameState Paired)

theorem agree_standard {left right : Context} (same : SameState left right) :
    Agree (fun first second => ∃ mapping other, standard.Starts left .mapScalars mapping ∧
        standard.Starts right .mapScalars other ∧ other.entryOwners = mapping.entryOwners ∧
        Paired mapping.entryOwners first second)
      (standard.run left) (standard.run right) := by
  have logs := fun (first second : Context) (message : String) (same : SameState first second) =>
    same.log message message
  have clones : Agree SameState (Pass.cloneTemplate.runLogged left)
      (Pass.cloneTemplate.runLogged right) := by
    refine Pass.agree_runLogged (.ok ?_) logs
    exact ⟨same.template, same.data, congrArg Document.ofJson same.template, same.qualifier?⟩
  unfold standard
  rw [run, run]
  apply clones.attach.bind
  intro leftCloned rightCloned cloned
  obtain ⟨leftClones, rightClones, cloned⟩ := cloned
  have clonedWF : leftCloned.working.WellFormed := by
    rw [Pass.cloneTemplate_runLogged leftClones]
    exact Document.ofJson_wellFormed left.template
  rw [run, run]
  apply (Pass.agree_runLogged ((cloned.log _ _).setRootMember _ _) logs).attach.bind
  intro leftMarked rightMarked marked
  obtain ⟨leftMarks, rightMarks, marked⟩ := marked
  obtain ⟨_, _, markedWF⟩ := Pass.markAsInstance_runLogged leftMarks clonedWF
  rw [run, run]
  apply (Pass.agree_runLogged
    (Expansion.agree_expandCollections (marked.log _ _) markedWF) logs).attach.bind
  intro leftExpanded rightExpanded expanded
  obtain ⟨leftExpands, rightExpands, expanded⟩ := expanded
  have expandedWF := (Pass.expandCollections_runLogged leftExpands markedWF
    (by decide : Key.kind ≠ Key.type)).1
  obtain ⟨maps, sameOwners⟩ := (expanded.log ("Started " ++ Pass.mapScalars.name)
    ("Started " ++ Pass.mapScalars.name)).agree_mapScalars expandedWF
  have pairLogs := fun (first second : Context) (message : String)
    (paired : Paired (leftExpanded.log ("Started " ++ Pass.mapScalars.name)).entryOwners
      first second) => paired.log message message
  rw [run, run]
  apply (Pass.agree_runLogged maps pairLogs).bind
  intro leftMapped rightMapped mapped
  rw [run, run]
  apply (Pass.agree_runLogged (mapped.log _ _).agree_stripQualifiers pairLogs).bind
  intro leftStripped rightStripped stripped
  rw [run, run]
  apply (Pass.agree_runLogged (stripped.log _ _).agree_replaceIdentifier pairLogs).bind
  intro leftDone rightDone done
  exact .ok ⟨_, _, .later leftClones (.later leftMarks (.later leftExpands (.here leftExpanded))),
    .later rightClones (.later rightMarks (.later rightExpands (.here rightExpanded))),
    sameOwners, done⟩

end Pipeline

structure Context.Maps (start mapping done : Context) : Prop where
  starts : Pipeline.standard.Starts start .mapScalars mapping
  ran : Pipeline.standard.run start = .ok done

/-- Neither the language nor the new identifier tells in anything but the texts that carry them. Two
runs over the same template and data both fail, for one cause at one place, or both succeed, and the
instances are the same once their identifier is blanked and the language of each entry that was
written. -/
theorem mapTemplate_languages (template data : Json)
    (language newId moment otherLanguage otherId otherMoment : String) :
    match mapTemplate template data language newId moment,
      mapTemplate template data otherLanguage otherId otherMoment with
    | .error failure, .error other =>
        failure.cause = other.cause ∧ failure.location? = other.location?
    | .ok filled, .ok other => ∃ mapping done otherMapping otherDone,
        (Context.start template data language newId moment).Maps mapping done ∧
        (Context.start template data otherLanguage otherId otherMoment).Maps otherMapping
          otherDone ∧
        done.working.toJson = filled ∧ otherDone.working.toJson = other ∧
        otherMapping.entryOwners = mapping.entryOwners ∧
        (done.working.blank mapping.entryOwners).toJson =
          (otherDone.working.blank otherMapping.entryOwners).toJson
    | _, _ => False := by
  have same : Context.SameState (Context.start template data language newId moment)
      (Context.start template data otherLanguage otherId otherMoment) := ⟨rfl, rfl, rfl, rfl⟩
  have agree := Pipeline.agree_standard same
  unfold mapTemplate
  generalize leftRan : Pipeline.standard.run
    (Context.start template data language newId moment) = left at agree
  generalize rightRan : Pipeline.standard.run
    (Context.start template data otherLanguage otherId otherMoment) = right at agree
  cases agree with
  | error cause location => exact ⟨cause, location⟩
  | @ok done otherDone both =>
      obtain ⟨mapping, otherMapping, starts, otherStarts, sameOwners, paired⟩ := both
      refine ⟨mapping, done, otherMapping, otherDone, ⟨starts, leftRan⟩, ⟨otherStarts, rightRan⟩,
        rfl, rfl, sameOwners, ?_⟩
      rw [sameOwners]
      exact paired.documents.toJson_blank.symm

end TemplateFill
