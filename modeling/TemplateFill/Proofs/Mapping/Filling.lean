import TemplateFill.Proofs.Document.Regrowth
import TemplateFill.Proofs.Mapping.Defects
import TemplateFill.Proofs.Mapping.Instance

/-!
The pass over the scalars as a function of values.

The pass lists its qualifiers once, writes into a document, and passes over what its writes have cut
off. What comes of it can be told of the value alone, by recursion: an element takes the value that
its own mappings give it, in their order, and then the rest of it is filled, but for a value that
has just been written. The pass computes this function on the value of the working document.
-/

namespace TemplateFill

/-! ### The function -/

namespace Json

def ownMappings (element : Json) : List Json :=
  view.owned (view.hasTag QualifierType.mappingInfo.tag) element

def cardinality (element : Json) : Cardinality :=
  let stated := view.owned (view.hasTag QualifierType.cardinality.tag) element
  Cardinality.ofValue (stated.findSome? (stringMember? Key.value))

/-- What a mapping takes from the data, which can be nothing if it need not take anything. -/
def pick? (data : Json) (cardinality : Cardinality) (mapping : Json) : Option (Option Json) :=
  match mapping.stringMember? Key.value with
  | none => none
  | some path =>
      match Query.selectOneIn data path with
      | .error _ => none
      | .ok (some node) => some (some node)
      | .ok none => if cardinality.isMandatory then none else some none

def nextValue? (data : Json) (language : String) (element : Json) (value? : Option Json)
    (mapping : Json) : Option (Option Json) := do
  let kind ← (element.stringMember? Key.modelType).map ModelType.ofName
  if kind ≠ .multiLanguage ∧ value?.or (element.member? Key.value) = none then none
  else
    let initial? := if (element.member? Key.value).isSome then none else some (.text "")
    (pick? data element.cardinality mapping).map fun found? =>
      (found?.map (Scalars.valueFor kind language)).or (value?.or initial?)

def ownValue? (data : Json) (language : String) (element : Json) : Option (Option Json) :=
  element.ownMappings.foldlM (nextValue? data language element) none

mutual

/-- A value with the data's values in the elements that ask for them, if all mappings allow it. -/
def fill? (data : Json) (language : String) : Json → Option Json
  | .scalar value => some (.scalar value)
  | .array elements => (fillElements? data language elements).map .array
  | .object members => do
      let value? ← ownValue? data language (.object members)
      let filled ← fillMembers? data language value?.isSome members
      return .object (value?.elim filled fun value => putMember Key.value value filled)

def fillElements? (data : Json) (language : String) : List Json → Option (List Json)
  | [] => some []
  | element :: rest => do
      let filled ← fill? data language element
      let others ← fillElements? data language rest
      return filled :: others

def fillMembers? (data : Json) (language : String) (written : Bool) :
    List (String × Json) → Option (List (String × Json))
  | [] => some []
  | (key, value) :: rest =>
      if written ∧ key = Key.value then
        (fillMembers? data language false rest).map ((key, value) :: ·)
      else do
        let filled ← fill? data language value
        let others ← fillMembers? data language written rest
        return (key, filled) :: others

end

variable {data : Json} {language : String}

theorem fill?_object (members : List (String × Json)) :
    fill? data language (.object members) =
      (ownValue? data language (.object members)).bind fun value? =>
        ((fillMembers? data language value?.isSome members).map fun filled =>
          value?.elim filled fun value => putMember Key.value value filled).map .object := by
  rw [fill?]
  cases ownValue? data language (.object members) with
  | none => rfl
  | some value? =>
      change Option.bind (fillMembers? data language value?.isSome members) _ = Option.map _ _
      cases fillMembers? data language value?.isSome members <;> rfl

theorem fillMembers?_false (members : List (String × Json)) :
    fillMembers? data language false members =
      (fillElements? data language (members.map Prod.snd)).map
        (List.zipWith (fun member value => (member.1, value)) members) := by
  induction members with
  | nil => rfl
  | cons member rest ih =>
      obtain ⟨key, value⟩ := member
      rw [fillMembers?, if_neg (fun both => Bool.false_ne_true both.1), ih, List.map_cons,
        fillElements?]
      cases fill? data language value with
      | none => rfl
      | some filled => cases fillElements? data language (rest.map Prod.snd) <;> rfl

theorem fillMembers?_append {before : List (String × Json)}
    (others : ∀ member ∈ before, member.1 ≠ Key.value) (after : List (String × Json)) :
    fillMembers? data language true (before ++ after) =
      (fillMembers? data language false before).bind fun filled =>
        (fillMembers? data language true after).map fun rest => filled ++ rest := by
  induction before with
  | nil =>
      rw [fillMembers?]
      exact Option.map_id'.symm
  | cons member rest ih =>
      obtain ⟨key, value⟩ := member
      rw [List.cons_append, fillMembers?, fillMembers?,
        if_neg (fun both => others _ (List.mem_cons_self ..) both.2),
        if_neg (fun both => Bool.false_ne_true both.1),
        ih fun other inside => others other (List.mem_cons_of_mem _ inside)]
      cases fill? data language value with
      | none => rfl
      | some filled =>
          cases fillMembers? data language false rest with
          | none => rfl
          | some front => cases fillMembers? data language true after <;> rfl

theorem keys_fillMembers? {written : Bool} {members filled : List (String × Json)}
    (done : fillMembers? data language written members = some filled) :
    filled.map Prod.fst = members.map Prod.fst := by
  induction members generalizing written filled with
  | nil =>
      rw [fillMembers?] at done
      cases done
      rfl
  | cons member rest ih =>
      obtain ⟨key, value⟩ := member
      rw [fillMembers?] at done
      split at done
      · obtain ⟨others, later, rfl⟩ := Option.map_eq_some_iff.mp done
        rw [List.map_cons, List.map_cons, ih later]
      · obtain ⟨first, _, done⟩ := Option.bind_eq_some_iff.mp done
        obtain ⟨others, later, done⟩ := Option.bind_eq_some_iff.mp done
        cases done
        rw [List.map_cons, List.map_cons, ih later]

theorem put_fillMembers?_of_none {members : List (String × Json)}
    (missing : memberOf? Key.value members = none) (value : Json) :
    (fillMembers? data language true members).map (putMember Key.value value) =
      (fillMembers? data language false members).map fun filled =>
        filled ++ [(Key.value, value)] := by
  have others : ∀ member ∈ members, member.1 ≠ Key.value := by
    intro member inside same
    exact Document.memberOf?_eq_none_iff.mp missing (same ▸ List.mem_map_of_mem inside)
  have split : fillMembers? data language true (members ++ []) = _ := fillMembers?_append others []
  rw [List.append_nil, fillMembers?] at split
  rw [split]
  cases done : fillMembers? data language false members with
  | none => rfl
  | some filled =>
      have absent : memberOf? Key.value filled = none := by
        rw [Document.memberOf?_eq_none_iff, keys_fillMembers? done]
        exact Document.memberOf?_eq_none_iff.mp missing
      rw [Option.bind_some, Option.map_some, Option.map_some, Option.map_some, List.append_nil,
        Document.putMember_of_none value absent]

theorem put_fillMembers?_of_some {front : List (String × Json)}
    (others : ∀ member ∈ front, member.1 ≠ Key.value) (old : Json) (back : List (String × Json))
    (value : Json) :
    (fillMembers? data language true (front ++ (Key.value, old) :: back)).map
        (putMember Key.value value) =
      (fillMembers? data language false front).bind fun first =>
        (fillMembers? data language false back).map fun last =>
          first ++ (Key.value, value) :: last := by
  rw [fillMembers?_append others, fillMembers?, if_pos ⟨rfl, rfl⟩]
  cases filled : fillMembers? data language false front with
  | none => rfl
  | some first =>
      have keys : ∀ member ∈ first, member.1 ≠ Key.value := by
        intro member inside same
        have listed : Key.value ∈ front.map Prod.fst :=
          keys_fillMembers? filled ▸ same ▸ List.mem_map_of_mem inside
        obtain ⟨member, isFront, isValue⟩ := List.mem_map.mp listed
        exact others member isFront isValue
      cases fillMembers? data language false back with
      | none => rfl
      | some last => exact congrArg some (putMember_append value keys old last)

end Json

/-! ### Runs and functions -/

/-- The run and the function both succeed, with related results, or both fail. -/
inductive Meets {α : Type} (post : Context → α → Prop) : Except Failure Context → Option α → Prop
  | ok {done : Context} {value : α} (related : post done value) : Meets post (.ok done) (some value)
  | error (failure : Failure) : Meets post (.error failure) none

namespace Meets

variable {α β : Type} {post : Context → α → Prop} {target : Context → β → Prop}
  {result : Except Failure Context} {value? : Option α}

theorem bind {rest : Context → Except Failure Context} {next : α → Option β}
    (first : Meets post result value?)
    (second : ∀ done value, post done value → Meets target (rest done) (next value)) :
    Meets target (result >>= rest) (value? >>= next) := by
  cases first with
  | ok related => exact second _ _ related
  | error failure => exact .error failure

theorem map {change : α → β} (first : Meets post result value?)
    (related : ∀ done value, post done value → target done (change value)) :
    Meets target result (value?.map change) := by
  cases first with
  | ok first => exact .ok (related _ _ first)
  | error failure => exact .error failure

end Meets

/-! ### The mappings of one element -/

theorem Tree.owned_toJson (tag : String) (tree : Tree) :
    Json.view.owned (Json.view.hasTag tag) tree.toJson =
      (Tree.view.owned (Tree.view.hasTag tag) tree).map Tree.toJson :=
  Tree.toJson_carries.owned trivial fun _ _ => Tree.toJson_carries.hasTag trivial tag

namespace Scalars

def withValue (member? : Option Tree) (members : List (String × Tree)) : List (String × Tree) :=
  member?.elim members fun member => putMember Key.value member members

theorem memberOf?_withValue_of_ne {key : String} (different : key ≠ Key.value)
    (member? : Option Tree) (members : List (String × Tree)) :
    memberOf? key (withValue member? members) = memberOf? key members := by
  cases member? with
  | none => rfl
  | some member => exact memberOf?_putMember_of_ne member members different

theorem memberOf?_withValue (member? : Option Tree) (members : List (String × Tree)) :
    memberOf? Key.value (withValue member? members) = member?.or (memberOf? Key.value members) := by
  cases member? with
  | none => rfl
  | some member => exact memberOf?_putMember_self Key.value member members

/-- All that has changed is that an element has been given a value, if any. What lay below its old
value is cut off then. -/
structure Wrote (start : Context) (owner : NodeId) (members : List (String × Tree)) (now : Context)
    (value? : Option Json) : Prop where
  inputs : start.SameInputs now
  grown : ∃ member? : Option Tree, member?.map Tree.toJson = value? ∧
    Document.Regrows [.object owner members] start.working now.working
      [.object owner (withValue member? members)]
  cut : value?.isSome = true → ∀ old, memberOf? Key.value members = some old →
    ∀ node ∈ old.numbers, node ≠ old.number → now.working.isAttached node = false

section Element

variable {start now : Context} {owner : NodeId} {members : List (String × Tree)}
  {value? : Option Json} {container mapping : Tree}

theorem Wrote.wellFormed (wrote : Wrote start owner members now value?) :
    now.working.WellFormed := by
  obtain ⟨_, _, regrows⟩ := wrote.grown
  exact regrows.wellFormed

theorem Wrote.write (wrote : Wrote start owner members now value?)
    (holds : start.working.Holds (.object owner members)) {edited : Document} {place : NodeId}
    {value : Json} (done : now.working.setMember owner Key.value value = .ok (edited, place)) :
    Wrote start owner members { now with working := edited } (some value) := by
  obtain ⟨member?, same, regrows⟩ := wrote.grown
  have held := regrows.held _ (List.mem_singleton_self _)
  obtain ⟨member, _, isValue, later⟩ := regrows.wellFormed.regrows_setMember done held
  have write := regrows.wellFormed.memberWrite done
  refine ⟨⟨wrote.inputs.template, wrote.inputs.data, wrote.inputs.language, wrote.inputs.newId⟩,
    ⟨some member, congrArg some isValue, ?_⟩, ?_⟩
  · have twice : withValue (some member) members =
        putMember Key.value member (withValue member? members) := by
      cases member? with
      | none => rfl
      | some earlier => exact (putMember_putMember Key.value earlier member members).symm
    rw [twice]
    exact regrows.trans later
  · intro _ old isOld node inside lower
    cases member? with
    | none =>
        have directly : old ∈ (Tree.object owner members).children :=
          List.mem_map_of_mem (mem_of_memberOf? isOld)
        have found : now.working.member? Key.value owner = some old.number := by
          have read := held.member? Key.value
          change now.working.member? Key.value owner = (memberOf? Key.value members).map _ at read
          rw [read, isOld]
          rfl
        have isPlace : place = old.number := by
          rcases write.place with ⟨there, _⟩ | ⟨missing, _⟩
          · rw [found] at there
            exact (Option.some.inj there).symm
          · rw [found] at missing
            cases missing
        obtain ⟨levels, above⟩ := (held.of_mem_children directly).ancestor? inside
        cases levels with
        | zero => exact absurd (Option.some.inj above) lower
        | succ levels => exact write.detaches regrows.wellFormed (isPlace ▸ above)
    | some earlier =>
        have before := wrote.cut (by rw [← same]; rfl) old isOld node inside lower
        cases attached : edited.isAttached node with
        | false => rfl
        | true =>
            have directly : old ∈ (Tree.object owner members).children :=
              List.mem_map_of_mem (mem_of_memberOf? isOld)
            have present := (holds.of_mem_children directly).lt_size_of_mem_numbers inside
            have stays := write.losesLinks.isAttached regrows.wellFormed write.wellFormed
              (Nat.lt_of_lt_of_le present regrows.loses.grows) attached
            rw [before] at stays
            cases stays

theorem Wrote.log (wrote : Wrote start owner members now value?) (message : String) :
    Wrote start owner members (now.log message) value? :=
  ⟨⟨wrote.inputs.template, wrote.inputs.data, wrote.inputs.language, wrote.inputs.newId⟩,
    wrote.grown, wrote.cut⟩

theorem Wrote.withQualifier (wrote : Wrote start owner members now value?)
    (qualifier? : Option NodeId) : Wrote start owner members { now with qualifier? } value? :=
  ⟨⟨wrote.inputs.template, wrote.inputs.data, wrote.inputs.language, wrote.inputs.newId⟩,
    wrote.grown, wrote.cut⟩

theorem meets_pick (wrote : Wrote start owner members now value?)
    (holds : start.working.Holds (.object owner members)) {place : NodeId}
    (found : now.working.member? Key.value owner = some place) (kind : ModelType)
    (cardinality : Cardinality) (mapping : Tree) :
    Meets (Wrote start owner members)
      (do
        let _ ← now.require (.structuralMismatch .missingValueMember)
          (now.working.member? Key.value owner)
        let path ← now.require .missingMappingValue (mapping.stringMember? Key.value)
        match ← now.selected (Query.selectOneIn now.data path) with
        | some value => write now owner kind path value
        | none =>
            if cardinality.isMandatory then throw (now.failure (.mandatoryMappingMissing path))
            else return now)
      ((Json.pick? start.data cardinality mapping.toJson).map fun found? =>
        (found?.map (valueFor kind start.language)).or value?) := by
  rw [found]
  unfold Json.pick?
  rw [Tree.stringMember?_toJson]
  cases mapping.stringMember? Key.value with
  | none => exact .error _
  | some path =>
      dsimp only
      rw [← wrote.inputs.data, ← wrote.inputs.language]
      change Meets _ (do
        match ← now.selected (Query.selectOneIn now.data path) with
        | some value => write now owner kind path value
        | none =>
            if cardinality.isMandatory then throw (now.failure (.mandatoryMappingMissing path))
            else return now) _
      cases Query.selectOneIn now.data path with
      | error error => exact .error _
      | ok found? =>
          cases found? with
          | none =>
              change Meets _ (if cardinality.isMandatory then _ else _) _
              dsimp only
              split
              · exact .error _
              · exact .ok wrote
          | some value =>
              have done := Document.setMember_of_some (valueFor kind now.language value) found
              change Meets _ (write now owner kind path value) _
              unfold write
              rw [done]
              exact .ok ((wrote.write holds done).log _)

/-- An element that can be given a value has one after it has been seen to. -/
theorem Wrote.exists_ensured (wrote : Wrote start owner members now value?)
    (holds : start.working.Holds (.object owner members)) {kind : ModelType}
    (isKind : now.working.modelType? owner = some kind)
    (same : now.working.member? Key.value owner = none ↔
      value?.or ((Tree.object owner members).toJson.member? Key.value) = none)
    (given : ¬(kind ≠ .multiLanguage ∧ now.working.member? Key.value owner = none)) :
    ∃ ensured place, withValueMember now owner kind = .ok ensured ∧
      ensured.working.member? Key.value owner = some place ∧
      Wrote start owner members ensured (value?.or
        (if ((Tree.object owner members).toJson.member? Key.value).isSome then none
          else some (.text ""))) := by
  cases found : now.working.member? Key.value owner with
  | some place =>
      refine ⟨now, place, ?_, found, ?_⟩
      · unfold withValueMember
        rw [found]
        exact if_neg fun missing => Bool.false_ne_true missing.2
      · cases value? with
        | some value => exact wrote
        | none =>
            have there := mt same.mpr (by rw [found]; exact Option.some_ne_none place)
            rw [Option.none_or] at there
            rw [Option.none_or, if_pos (Option.isSome_iff_ne_none.mpr there)]
            exact wrote
  | none =>
      have multi : kind = .multiLanguage := by
        by_contra single
        exact given ⟨single, found⟩
      have wellFormed := wrote.wellFormed
      obtain ⟨text, spoken, _⟩ := Option.map_eq_some_iff.mp isKind
      obtain ⟨edited, place, written⟩ := exists_setMember spoken Key.value (.text "")
      obtain ⟨noValue, missing⟩ := Option.or_eq_none_iff.mp (same.mp found)
      refine ⟨{ now with working := edited }, place, ?_, (wellFormed.memberWrite written).found, ?_⟩
      · unfold withValueMember
        rw [if_pos ⟨multi, by rw [found]; rfl⟩, written]
        rfl
      · rw [noValue, missing]
        exact wrote.write holds written

/-- What is read for a mapping of an element is what the element says, and the value that it has. -/
structure ReadsAs (now : Context) (owner : NodeId) (element : Json) (value? : Option Json)
    (mapping : Tree) : Prop where
  owned : now.working.qualifierOwner? mapping.number = some owner
  kind : now.working.modelType? owner =
    (element.stringMember? Key.modelType).map ModelType.ofName
  path : now.working.qualifierValue? mapping.number = mapping.stringMember? Key.value
  cardinality : now.working.qualifierCardinality mapping.number = element.cardinality
  present : now.working.member? Key.value owner = none ↔
    value?.or (element.member? Key.value) = none

theorem Wrote.reads (wrote : Wrote start owner members now value?)
    (member : memberOf? Key.qualifiers members = some container)
    (inside : mapping ∈ container.children) :
    ReadsAs now owner (Tree.object owner members).toJson value? mapping := by
  obtain ⟨member?, same, regrows⟩ := wrote.grown
  have held := regrows.held _ (List.mem_singleton_self _)
  have keeps : ∀ {key : String}, key ≠ Key.value →
      (Tree.object owner (withValue member? members)).member? key =
        (Tree.object owner members).member? key :=
    fun different => memberOf?_withValue_of_ne different member? members
  have qualifiers : (Tree.object owner (withValue member? members)).member? Key.qualifiers =
      some container := (keeps (by decide)).trans member
  have containerHolds := held.of_mem_children (Tree.mem_children_of_member? qualifiers)
  constructor
  case owned => exact held.qualifierOwner? qualifiers inside
  case kind =>
    have read := held.stringMember? Key.modelType
    rw [Tree.stringMember?, keeps (by decide)] at read
    rw [Tree.stringMember?_toJson]
    exact congrArg _ read
  case path => exact (containerHolds.of_mem_children inside).stringMember? Key.value
  case cardinality =>
    unfold Json.cardinality
    rw [regrows.wellFormed.qualifierCardinality_eq containerHolds inside, Tree.owned_toJson,
      View.owned_of_some _ (show Tree.view.member? Key.qualifiers (.object owner members) =
        some container from member)]
    dsimp only
    rw [List.findSome?_map]
    exact congrArg (fun read => Cardinality.ofValue (List.findSome? read _))
      (funext fun sibling => (Tree.stringMember?_toJson Key.value sibling).symm)
  case present =>
    have read := held.member? Key.value
    change now.working.member? Key.value owner = (memberOf? Key.value _).map _ at read
    rw [read, memberOf?_withValue, Tree.member?_toJson, ← same]
    change _ ↔ (member?.map Tree.toJson).or ((memberOf? Key.value members).map Tree.toJson) = none
    cases member? <;> cases memberOf? Key.value members <;> simp

theorem meets_fill (wrote : Wrote start owner members now value?)
    (holds : start.working.Holds (.object owner members))
    (member : memberOf? Key.qualifiers members = some container)
    (inside : mapping ∈ container.children) :
    Meets (Wrote start owner members)
      (fill { now with qualifier? := some mapping.number } mapping.number)
      (Json.nextValue? start.data start.language (Tree.object owner members).toJson value?
        mapping.toJson) := by
  have wrote := wrote.withQualifier (some mapping.number)
  generalize { now with qualifier? := some mapping.number } = current at wrote ⊢
  obtain ⟨owned, kinds, path, cardinality, present⟩ := wrote.reads member inside
  unfold Json.nextValue?
  cases isKind : ((Tree.object owner members).toJson.stringMember? Key.modelType).map
      ModelType.ofName with
  | none =>
      rw [isKind] at kinds
      have noKind : (current.working.qualifierOwner? mapping.number).bind
          current.working.modelType? = none := by rw [owned]; exact kinds
      obtain ⟨failure, failed, _⟩ := outcome_of_noKind noKind
      rw [failed]
      exact .error failure
  | some kind =>
      rw [isKind] at kinds
      rw [Option.bind_eq_bind, Option.bind_some]
      by_cases missing : kind ≠ .multiLanguage ∧ current.working.member? Key.value owner = none
      · have unchanged : withValueMember current owner kind = .ok current :=
          if_neg fun multi => missing.1 multi.1
        rw [fill_of_owner owned kinds unchanged, missing.2,
          if_pos ⟨missing.1, present.mp missing.2⟩]
        exact .error _
      · obtain ⟨ensured, place, ensures, found, wrote⟩ :=
          wrote.exists_ensured holds kinds present missing
        rw [if_neg fun both => missing ⟨both.1, present.mpr both.2⟩,
          fill_of_owner owned kinds ensures, path, cardinality]
        exact meets_pick wrote holds found kind _ mapping

theorem meets_fillEach (wellFormed : start.working.WellFormed)
    (holds : start.working.Holds (.object owner members))
    (attached : start.working.isAttached owner = true)
    (member : memberOf? Key.qualifiers members = some container) {mappings : List Tree}
    (listed : ∀ mapping ∈ mappings, mapping ∈ container.children)
    (wrote : Wrote start owner members now value?) :
    Meets (Wrote start owner members) (fillEach (mappings.map Tree.number) now)
      ((mappings.map Tree.toJson).foldlM
        (Json.nextValue? start.data start.language (Tree.object owner members).toJson) value?) := by
  induction mappings generalizing now value? with
  | nil => exact .ok wrote
  | cons mapping rest ih =>
      have inside := listed mapping (List.mem_cons_self ..)
      obtain ⟨member?, _, regrows⟩ := wrote.grown
      have ownerAttached : now.working.isAttached owner = true :=
        regrows.isAttached_top wellFormed holds attached
      have held := regrows.held _ (List.mem_singleton_self _)
      have qualifiers : (Tree.object owner (withValue member? members)).member? Key.qualifiers =
          some container :=
        (memberOf?_withValue_of_ne (by decide) member? members).trans member
      have directly := Tree.mem_children_of_member? qualifiers
      have containerAttached :=
        regrows.wellFormed.isAttached_of_parent? (held.linked directly) ownerAttached
      have mappingAttached := regrows.wellFormed.isAttached_of_parent?
        ((held.of_mem_children directly).linked inside) containerAttached
      rw [List.map_cons, List.map_cons, List.foldlM_cons, fillEach, if_pos mappingAttached]
      apply (meets_fill wrote holds member inside).bind
      intro next value? later
      exact ih (fun other within => listed other (List.mem_cons_of_mem _ within)) later

end Element

/-! ### The mappings of a tree -/

theorem fillEach_append_eq (first second : List NodeId) (context : Context) :
    fillEach (first ++ second) context = fillEach first context >>= fillEach second := by
  induction first generalizing context with
  | nil => rfl
  | cons qualifier rest ih =>
      rw [List.cons_append, fillEach, fillEach]
      split
      · cases fill { context with qualifier? := some qualifier } qualifier with
        | error failure => rfl
        | ok after => exact ih after
      · exact ih context

theorem fillEach_of_detached {qualifiers : List NodeId} {context : Context}
    (detached : ∀ qualifier ∈ qualifiers, context.working.isAttached qualifier = false) :
    fillEach qualifiers context = .ok context := by
  induction qualifiers with
  | nil => rfl
  | cons qualifier rest ih =>
      rw [fillEach, if_neg (by rw [detached qualifier (List.mem_cons_self ..)]; simp),
        ih fun other inside => detached other (List.mem_cons_of_mem _ inside)]

def pending (tree : Tree) : List Tree :=
  Tree.view.qualifiersBelow (Tree.view.hasTag QualifierType.mappingInfo.tag) tree

theorem pending_eq (tree : Tree) : pending tree =
    Tree.view.owned (Tree.view.hasTag QualifierType.mappingInfo.tag) tree ++
      tree.children.flatMap pending :=
  Tree.qualifiersBelow_eq _ tree

/-- Trees have been filled with values, and nothing else has changed. -/
structure Fills (context : Context) (trees : List Tree) (done : Context) (values : List Json) :
    Prop where
  inputs : context.SameInputs done
  grown : ∃ images : List Tree, images.map Tree.toJson = values ∧
    Document.Regrows trees context.working done.working images

namespace Fills

variable {context next done : Context} {tree other : Tree} {rest : List Tree} {value : Json}
  {values : List Json}

theorem wellFormed (filled : Fills context rest done values) : done.working.WellFormed := by
  obtain ⟨_, _, regrows⟩ := filled.grown
  exact regrows.wellFormed

theorem sibling (filled : Fills context [tree] done values)
    (wellFormed : context.working.WellFormed) (treeHolds : context.working.Holds tree)
    (holds : context.working.Holds other)
    (attached : context.working.isAttached other.number = true)
    (apart : List.Disjoint tree.numbers other.numbers) :
    done.working.Holds other ∧ done.working.isAttached other.number = true := by
  obtain ⟨_, _, regrows⟩ := filled.grown
  constructor
  · exact regrows.holds_of_disjoint holds (List.forall_mem_singleton.mpr apart.symm)
  · apply regrows.isAttached wellFormed (List.forall_mem_singleton.mpr treeHolds) _ attached
    exact List.forall_mem_singleton.mpr fun within =>
      absurd other.number_mem_numbers (apart within)

theorem cons (filled : Fills context [tree] next [value]) (later : Fills next rest done values)
    (holds : ∀ other ∈ rest, context.working.Holds other)
    (apart : ∀ other ∈ rest, List.Disjoint tree.numbers other.numbers) :
    Fills context (tree :: rest) done (value :: values) := by
  obtain ⟨images, isValue, regrows⟩ := filled.grown
  obtain ⟨further, areValues, laterRegrows⟩ := later.grown
  refine ⟨filled.inputs.trans later.inputs, images ++ further, ?_, ?_⟩
  · rw [List.map_append, isValue, areValues]
    rfl
  · exact regrows.append laterRegrows holds (List.forall_mem_singleton.mpr apart)

end Fills

def Computes (tree : Tree) : Prop :=
  ∀ context : Context, context.working.WellFormed → context.working.Holds tree →
    context.working.isAttached tree.number = true →
      Meets (fun done value => Fills context [tree] done [value])
        (fillEach ((pending tree).map Tree.number) context)
        (Json.fill? context.data context.language tree.toJson)

theorem meets_trees {trees : List Tree} (each : ∀ tree ∈ trees, Computes tree)
    (apart : trees.Pairwise fun first second => List.Disjoint first.numbers second.numbers)
    {context : Context} (wellFormed : context.working.WellFormed)
    (holds : ∀ tree ∈ trees, context.working.Holds tree)
    (attached : ∀ tree ∈ trees, context.working.isAttached tree.number = true) :
    Meets (Fills context trees) (fillEach ((trees.flatMap pending).map Tree.number) context)
      (Json.fillElements? context.data context.language (trees.map Tree.toJson)) := by
  induction trees generalizing context with
  | nil =>
      rw [List.map_nil, Json.fillElements?]
      exact .ok ⟨.refl context, [], rfl, wellFormed.regrows_self (List.forall_mem_nil _)⟩
  | cons tree rest ih =>
      obtain ⟨here, restHolds⟩ := List.forall_mem_cons.mp holds
      obtain ⟨hereAttached, restAttached⟩ := List.forall_mem_cons.mp attached
      obtain ⟨hereComputes, restComputes⟩ := List.forall_mem_cons.mp each
      obtain ⟨hereApart, restApart⟩ := List.pairwise_cons.mp apart
      rw [List.flatMap_cons, List.map_append, fillEach_append_eq, List.map_cons, Json.fillElements?]
      apply (hereComputes context wellFormed here hereAttached).bind
      intro next value filled
      have others : ∀ other ∈ rest, next.working.Holds other ∧
          next.working.isAttached other.number = true := by
        intro other inside
        exact filled.sibling wellFormed here (restHolds other inside) (restAttached other inside)
          (hereApart other inside)
      have later := ih restComputes restApart filled.wellFormed
        (fun other inside => (others other inside).1) fun other inside => (others other inside).2
      rw [filled.inputs.data, filled.inputs.language] at later
      have joined : Meets (Fills context (tree :: rest)) _ _ :=
        later.map fun _ _ last => filled.cons last restHolds hereApart
      rwa [Option.map_eq_bind] at joined

structure FillsMembers (context : Context) (owner : NodeId)
    (front members back : List (String × Tree)) (done : Context) (values : List (String × Json)) :
    Prop where
  inputs : context.SameInputs done
  grown : ∃ images : List (String × Tree),
    images.map (fun member => (member.1, member.2.toJson)) = values ∧
      Document.Regrows [.object owner (front ++ members ++ back)] context.working done.working
        [.object owner (front ++ images ++ back)]

theorem meets_members {owner : NodeId} {front members back : List (String × Tree)}
    (each : ∀ member ∈ members, Computes member.2) {context : Context}
    (wellFormed : context.working.WellFormed)
    (holds : context.working.Holds (.object owner (front ++ members ++ back)))
    (attached : context.working.isAttached owner = true) :
    Meets (FillsMembers context owner front members back)
      (fillEach (((members.map Prod.snd).flatMap pending).map Tree.number) context)
      (Json.fillMembers? context.data context.language false
        (members.map fun member => (member.1, member.2.toJson))) := by
  have inner : (members.map Prod.snd).Sublist
      (Tree.object owner (front ++ members ++ back)).children := by
    rw [Tree.children, List.map_append, List.map_append]
    exact (List.sublist_append_right ..).trans (List.sublist_append_left ..)
  have apart := (wellFormed.pairwise_disjoint_children holds).sublist inner
  have trees : ∀ tree ∈ members.map Prod.snd, Computes tree := by
    intro tree inside
    obtain ⟨member, isMember, rfl⟩ := List.mem_map.mp inside
    exact each member isMember
  have filled := meets_trees trees apart wellFormed
    (fun tree inside => holds.of_mem_children (inner.subset inside))
    (fun tree inside =>
      wellFormed.isAttached_of_parent? (holds.linked (inner.subset inside)) attached)
  rw [Json.fillMembers?_false, List.map_map]
  rw [List.map_map] at filled
  apply filled.map
  intro done values last
  obtain ⟨images, areValues, regrows⟩ := last.grown
  refine ⟨last.inputs, List.zipWith (fun member image => (member.1, image)) members images, ?_,
    regrows.segment wellFormed holds⟩
  rw [← areValues, List.map_zipWith, List.zipWith_map]

theorem computes_array {number : NodeId} {elements : List Tree}
    (each : ∀ element ∈ elements, Computes element) : Computes (.array number elements) := by
  intro context wellFormed holds attached
  have none : Tree.view.owned (Tree.view.hasTag QualifierType.mappingInfo.tag)
      (Tree.array number elements) = [] := View.owned_of_none _ rfl
  have listed : ∀ child ∈ elements, child ∈ (Tree.array number elements).children :=
    fun child inside => inside
  have filled := meets_trees each (wellFormed.pairwise_disjoint_children holds) wellFormed
    (fun tree inside => holds.of_mem_children inside)
    (fun tree inside => wellFormed.isAttached_of_parent? (holds.linked inside) attached)
  rw [pending_eq, none, List.nil_append, Tree.toJson, Json.fill?]
  apply filled.map
  intro done values last
  obtain ⟨images, areValues, regrows⟩ := last.grown
  refine ⟨last.inputs, [.array number images], ?_, ?_⟩
  · rw [List.map_singleton, Tree.toJson, areValues]
  · refine regrows.lift holds listed rfl ?_ fun child inside => .inl inside
    exact congrArg Content.array regrows.numbers

section Object

variable {owner : NodeId} {members : List (String × Tree)} {context now : Context}

theorem meets_own (wellFormed : context.working.WellFormed)
    (holds : context.working.Holds (.object owner members))
    (attached : context.working.isAttached owner = true) :
    Meets (Wrote context owner members)
      (fillEach ((Tree.view.owned (Tree.view.hasTag QualifierType.mappingInfo.tag)
        (.object owner members)).map Tree.number) context)
      (Json.ownValue? context.data context.language (Tree.object owner members).toJson) := by
  have wrote : Wrote context owner members context none := by
    have same := wellFormed.regrows_self (List.forall_mem_singleton.mpr holds)
    exact ⟨.refl context, ⟨none, rfl, same⟩, nofun⟩
  unfold Json.ownValue? Json.ownMappings
  rw [Tree.owned_toJson]
  cases found : memberOf? Key.qualifiers members with
  | none =>
      rw [View.owned_of_none _ (show Tree.view.member? Key.qualifiers (.object owner members) = none
        from found)]
      exact .ok wrote
  | some container =>
      apply meets_fillEach wellFormed holds attached found _ wrote
      intro mapping inside
      obtain ⟨_, isContainer, directly, _⟩ := (View.mem_owned_iff ..).mp inside
      have same := found.symm.trans isContainer
      cases same
      exact directly

theorem mem_numbers_of_pending (holds : context.working.Holds (.object owner members)) {old : Tree}
    (isOld : memberOf? Key.value members = some old) {qualifier : NodeId}
    (listed : qualifier ∈ (pending old).map Tree.number) :
    qualifier ∈ old.numbers ∧ qualifier ≠ old.number := by
  obtain ⟨mapping, inside, rfl⟩ := List.mem_map.mp listed
  obtain ⟨child, directly, within⟩ := Tree.exists_child_of_qualifier inside
  have lower := Tree.mem_numbers_of_mem_preorder within
  have oldHolds := holds.of_mem_children (List.mem_map_of_mem (mem_of_memberOf? isOld))
  refine ⟨Tree.numbers_subset (Tree.child_mem_preorder directly) lower, ?_⟩
  intro same
  exact oldHolds.number_not_mem_child directly (same ▸ lower)

/-- Mappings below a value that has been written over are cut off. -/
theorem Wrote.detached {value? : Option Json} (wrote : Wrote context owner members now value?)
    (holds : context.working.Holds (.object owner members)) (written : value?.isSome = true)
    {old : Tree} (isOld : memberOf? Key.value members = some old) :
    ∀ qualifier ∈ (pending old).map Tree.number, now.working.isAttached qualifier = false := by
  intro qualifier listed
  obtain ⟨inside, lower⟩ := mem_numbers_of_pending holds isOld listed
  exact wrote.cut written old isOld qualifier inside lower

theorem Wrote.pending_lt {value? : Option Json} (wrote : Wrote context owner members now value?)
    (holds : context.working.Holds (.object owner members)) {old : Tree}
    (isOld : memberOf? Key.value members = some old) :
    ∀ qualifier ∈ (pending old).map Tree.number, qualifier < now.working.size := by
  intro qualifier listed
  obtain ⟨_, _, regrows⟩ := wrote.grown
  obtain ⟨inside, _⟩ := mem_numbers_of_pending holds isOld listed
  have oldHolds := holds.of_mem_children (List.mem_map_of_mem (mem_of_memberOf? isOld))
  exact Nat.lt_of_lt_of_le (oldHolds.lt_size_of_mem_numbers inside) regrows.loses.grows

theorem meets_rest_of_none (each : ∀ member ∈ members, Computes member.2)
    (wrote : Wrote context owner members now none)
    (attached : now.working.isAttached owner = true) :
    Meets (fun done value => Fills context [.object owner members] done [value])
      (fillEach (((members.map Prod.snd).flatMap pending).map Tree.number) now)
      ((Json.fillMembers? now.data now.language false
        (members.map fun member => (member.1, member.2.toJson))).map .object) := by
  obtain ⟨member?, isNone, regrows⟩ := wrote.grown
  rw [Option.map_eq_none_iff] at isNone
  subst isNone
  have held := regrows.held _ (List.mem_singleton_self _)
  rw [← List.append_nil (withValue none members), ← List.nil_append (withValue none members)]
    at held
  apply (meets_members each regrows.wellFormed held attached).map
  intro done values last
  obtain ⟨images, areValues, later⟩ := last.grown
  refine ⟨wrote.inputs.trans last.inputs, [.object owner ([] ++ images ++ [])], ?_, ?_⟩
  · rw [List.map_singleton, Tree.toJson, List.nil_append, List.append_nil, areValues]
  · rw [List.nil_append, List.append_nil] at later
    exact regrows.trans later

theorem meets_rest_of_new (each : ∀ member ∈ members, Computes member.2) {value : Json}
    (wrote : Wrote context owner members now (some value))
    (attached : now.working.isAttached owner = true)
    (missing : memberOf? Key.value members = none) :
    Meets (fun done value => Fills context [.object owner members] done [value])
      (fillEach (((members.map Prod.snd).flatMap pending).map Tree.number) now)
      ((Json.fillMembers? now.data now.language false
        (members.map fun member => (member.1, member.2.toJson))).map
          fun filled => .object (filled ++ [(Key.value, value)])) := by
  obtain ⟨member?, isValue, regrows⟩ := wrote.grown
  obtain ⟨member, rfl, rfl⟩ := Option.map_eq_some_iff.mp isValue
  have grown : withValue (some member) members = [] ++ members ++ [(Key.value, member)] :=
    Document.putMember_of_none member missing
  rw [grown] at regrows
  have held := regrows.held _ (List.mem_singleton_self _)
  apply (meets_members each regrows.wellFormed held attached).map
  intro done values last
  obtain ⟨images, areValues, later⟩ := last.grown
  refine ⟨wrote.inputs.trans last.inputs, [.object owner ([] ++ images ++ [(Key.value, member)])],
    ?_, regrows.trans later⟩
  rw [List.map_singleton, Tree.toJson, List.nil_append, List.map_append, areValues]
  rfl

theorem meets_rest_of_old {front back : List (String × Tree)} {old : Tree}
    (each : ∀ member ∈ front ++ (Key.value, old) :: back, Computes member.2) {value : Json}
    (wrote : Wrote context owner (front ++ (Key.value, old) :: back) now (some value))
    (holds : context.working.Holds (.object owner (front ++ (Key.value, old) :: back)))
    (attached : now.working.isAttached owner = true)
    (others : ∀ member ∈ front, member.1 ≠ Key.value) :
    Meets (fun done value =>
        Fills context [.object owner (front ++ (Key.value, old) :: back)] done [value])
      (fillEach ((((front ++ (Key.value, old) :: back).map Prod.snd).flatMap pending).map
        Tree.number) now)
      ((Json.fillMembers? now.data now.language false
        (front.map fun member => (member.1, member.2.toJson))).bind fun first =>
          (Json.fillMembers? now.data now.language false
            (back.map fun member => (member.1, member.2.toJson))).map fun last =>
              .object (first ++ (Key.value, value) :: last)) := by
  obtain ⟨member?, isValue, regrows⟩ := wrote.grown
  obtain ⟨member, rfl, rfl⟩ := Option.map_eq_some_iff.mp isValue
  have grown : withValue (some member) (front ++ (Key.value, old) :: back) =
      [] ++ front ++ (Key.value, member) :: back := putMember_append member others old back
  rw [grown] at regrows
  have held := regrows.held _ (List.mem_singleton_self _)
  have isOld : memberOf? Key.value (front ++ (Key.value, old) :: back) = some old :=
    memberOf?_eq_some_iff.mpr ⟨front, back, rfl, others⟩
  rw [List.map_append, List.map_cons, List.flatMap_append, List.flatMap_cons, List.map_append,
    List.map_append, fillEach_append_eq]
  -- first the members in front, then what is below the old value, then the members behind
  apply (meets_members (fun one inside => each one (List.mem_append_left _ inside))
    regrows.wellFormed held attached).bind
  intro middle first filled
  obtain ⟨images, areValues, early⟩ := filled.grown
  have middleWF := early.wellFormed
  have middleHeld := early.held _ (List.mem_singleton_self _)
  have regrouped : [] ++ images ++ (Key.value, member) :: back =
      (images ++ [(Key.value, member)]) ++ back ++ [] := by simp
  rw [regrouped] at middleHeld early
  have middleAttached : middle.working.isAttached owner = true :=
    early.isAttached_top regrows.wellFormed held attached
  have cutOff : ∀ qualifier ∈ (pending old).map Tree.number,
      middle.working.isAttached qualifier = false := by
    intro qualifier listed
    have before := wrote.detached holds rfl isOld qualifier listed
    cases still : middle.working.isAttached qualifier with
    | false => rfl
    | true =>
        have present := wrote.pending_lt holds isOld qualifier listed
        rw [early.loses.isAttached regrows.wellFormed middleWF present still] at before
        cases before
  rw [fillEach_append_eq, fillEach_of_detached cutOff]
  have later := meets_members (fun one inside => each one
    (List.mem_append_right _ (List.mem_cons_of_mem _ inside))) middleWF middleHeld middleAttached
  rw [filled.inputs.data, filled.inputs.language] at later
  apply later.map
  intro done rest last
  obtain ⟨further, areRest, late⟩ := last.grown
  refine ⟨(wrote.inputs.trans filled.inputs).trans last.inputs,
    [.object owner (images ++ [(Key.value, member)] ++ further ++ [])], ?_,
    (regrows.trans early).trans late⟩
  rw [List.map_singleton, Tree.toJson, List.append_nil, List.map_append, List.map_append, areValues,
    areRest, List.append_assoc]
  rfl

theorem computes_object (each : ∀ member ∈ members, Computes member.2) :
    Computes (.object owner members) := by
  intro context wellFormed holds attached
  have whole : (Tree.object owner members).toJson =
      .object (members.map fun member => (member.1, member.2.toJson)) := by rw [Tree.toJson]
  have own := meets_own wellFormed holds attached
  rw [whole] at own
  rw [pending_eq, List.map_append, fillEach_append_eq, whole, Json.fill?_object]
  apply own.bind
  intro now value? wrote
  obtain ⟨member?, isValue, regrows⟩ := wrote.grown
  have nowAttached : now.working.isAttached owner = true :=
    regrows.isAttached_top wellFormed holds attached
  rw [← wrote.inputs.data, ← wrote.inputs.language]
  cases value? with
  | none =>
      have same (filled? : Option (List (String × Json))) :
          filled?.map (fun filled => filled) = filled? := Option.map_id'
      have rest := meets_rest_of_none each wrote nowAttached
      change Meets _ _ (((Json.fillMembers? _ _ false _).map fun filled => filled).map Json.object)
      rw [same]
      exact rest
  | some value =>
      change Meets _ _
        (((Json.fillMembers? _ _ true _).map (putMember Key.value value)).map Json.object)
      cases found : memberOf? Key.value members with
      | none =>
          have missing : memberOf? Key.value
              (members.map fun member => (member.1, member.2.toJson)) = none := by
            rw [memberOf?_map, found]
            rfl
          rw [Json.put_fillMembers?_of_none missing, Option.map_map]
          exact meets_rest_of_new each wrote nowAttached found
      | some old =>
          obtain ⟨front, back, rfl, others⟩ := memberOf?_eq_some_iff.mp found
          have keys : ∀ member ∈ front.map fun member => (member.1, member.2.toJson),
              member.1 ≠ Key.value := by
            intro member inside
            obtain ⟨source, isFront, rfl⟩ := List.mem_map.mp inside
            exact others source isFront
          have rest := meets_rest_of_old each wrote holds nowAttached others
          rw [List.map_append, List.map_cons, Json.put_fillMembers?_of_some keys, Option.map_bind]
          simp only [Function.comp_def, Option.map_map]
          exact rest

end Object

theorem computes (tree : Tree) : Computes tree := by
  induction tree using Tree.induction with
  | step tree ih =>
      cases tree with
      | scalar number value =>
          intro context wellFormed holds _
          have none : pending (.scalar number value) = [] := by
            rw [pending_eq, View.owned_of_none _ rfl]
            rfl
          rw [none, Tree.toJson, Json.fill?]
          refine Meets.ok ⟨.refl context, [.scalar number value], ?_, ?_⟩
          · rw [List.map_singleton, Tree.toJson]
          · exact wellFormed.regrows_self (List.forall_mem_singleton.mpr holds)
      | array number elements => exact computes_array ih
      | object number members =>
          exact computes_object fun member inside => ih member.2 (List.mem_map_of_mem inside)

/-- The pass over the scalars succeeds if and only if the function gives a value for that of the
working document, and then it leaves that value. -/
theorem mapScalars_toJson {context : Context} (wellFormed : context.working.WellFormed) :
    context.mapScalars.toOption.map (fun done => done.working.toJson) =
      Json.fill? context.data context.language context.working.toJson := by
  obtain ⟨tree, top, holds, whole⟩ := wellFormed.exists_root
  have attached : context.working.isAttached tree.number = true :=
    (wellFormed.isAttached_iff holds top tree.number).mpr tree.number_mem_numbers
  have run := computes tree context wellFormed holds attached
  unfold Context.mapScalars
  rw [whole, ← top, wellFormed.qualifiers_eq holds .mappingInfo]
  change Option.map _ (fillEach ((pending tree).map Tree.number) context).toOption = _
  generalize fillEach ((pending tree).map Tree.number) context = result at run ⊢
  generalize Json.fill? context.data context.language tree.toJson = value? at run ⊢
  cases run with
  | error failure => rfl
  | @ok done value filled =>
      obtain ⟨images, isValue, regrows⟩ := filled.grown
      obtain ⟨image, rfl, rfl⟩ := List.map_eq_singleton_iff.mp isValue
      have held := regrows.held image (List.mem_singleton_self _)
      have numbered : image.number = Document.root :=
        (List.singleton_inj.mp regrows.numbers).trans top
      change some (done.working.nodeToJson Document.root) = some image.toJson
      rw [← numbered, regrows.wellFormed.nodeToJson_eq held]

end Scalars

end TemplateFill
