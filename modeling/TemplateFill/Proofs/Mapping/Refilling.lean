import TemplateFill.Proofs.Mapping.Filling
import TemplateFill.Proofs.Mapping.Mappings

/-!
Filling a value that has been filled.

Where no `qualifiers` lie inside other `qualifiers` and the data brings none in, filling leaves the
qualifiers of an element as they are. So an element that is filled again reads the same mappings,
picks the same values and is given the value that it has.
-/

namespace TemplateFill

namespace Json

/-! ### Properties of all parts -/

def Everywhere (property : Json → Prop) (value : Json) : Prop :=
  ∀ below ∈ view.descendants value, property below

def Bare : Json → Prop := Everywhere fun element => element.member? Key.qualifiers = none

/-- No `qualifiers` lie inside other `qualifiers`. -/
def LeafQualifiers : Json → Prop :=
  Everywhere fun element => ∀ container, element.member? Key.qualifiers = some container →
    container.Bare

def Lacks (kind : QualifierType) : Json → Prop :=
  Everywhere fun element => view.owned (view.hasTag kind.tag) element = []

instance {property : Json → Prop} [DecidablePred property] :
    DecidablePred (Everywhere property) := fun value =>
  inferInstanceAs (Decidable (∀ below ∈ view.descendants value, property below))

instance : DecidablePred Bare := fun value =>
  inferInstanceAs (Decidable (value.Everywhere fun element =>
    element.member? Key.qualifiers = none))

instance : DecidablePred LeafQualifiers := fun value =>
  inferInstanceAs (Decidable (value.Everywhere fun element =>
    ∀ container ∈ element.member? Key.qualifiers, container.Bare))

instance (kind : QualifierType) : DecidablePred (Lacks kind) := fun value =>
  inferInstanceAs (Decidable (value.Everywhere fun element =>
    view.owned (view.hasTag kind.tag) element = []))

variable {property : Json → Prop} {value data : Json} {key : String}

theorem everywhere_toJson {tree : Tree} :
    tree.toJson.Everywhere property ↔ ∀ below ∈ tree.preorder, property below.toJson := by
  unfold Everywhere
  rw [Tree.descendants_toJson, List.forall_mem_map]

theorem everywhere_iff : value.Everywhere property ↔
    property value ∧ ∀ child ∈ value.children, child.Everywhere property := by
  obtain ⟨tree, rfl⟩ := exists_tree value
  rw [everywhere_toJson, Tree.preorder_eq, List.forall_mem_cons, Tree.children_toJson,
    List.forall_mem_map]
  simp only [everywhere_toJson, List.mem_flatMap, forall_exists_index, and_imp]
  exact and_congr_right fun _ => ⟨fun each child inside below => each below child inside,
    fun each below child inside => each child inside below⟩

theorem induction {motive : Json → Prop}
    (step : ∀ value, (∀ child ∈ value.children, motive child) → motive value) (value : Json) :
    motive value := by
  have trees : ∀ tree : Tree, motive tree.toJson := by
    intro tree
    induction tree using Tree.induction with
    | step tree ih =>
        apply step
        rw [Tree.children_toJson]
        exact List.forall_mem_map.mpr ih
  obtain ⟨tree, rfl⟩ := exists_tree value
  exact trees tree

theorem Everywhere.scalar (here : ∀ value, property (.scalar value)) (value : Scalar) :
    (Json.scalar value).Everywhere property :=
  everywhere_iff.mpr ⟨here value, List.forall_mem_nil _⟩

theorem bare_text (text : String) : (Json.text text).Bare := Everywhere.scalar (fun _ => rfl) _

theorem bare_empty : (Json.array []).Bare := everywhere_iff.mpr ⟨rfl, List.forall_mem_nil _⟩

theorem lacks_iff {kind : QualifierType} :
    value.Lacks kind ↔ kind.query.select view value = [] := by
  rw [View.select_query]
  exact List.flatMap_eq_nil_iff.symm

theorem owned_congr {which : Json → Bool} {other : Json}
    (same : other.member? Key.qualifiers = value.member? Key.qualifiers) :
    view.owned which other = view.owned which value := by
  unfold View.owned
  exact congrArg (fun found : Option Json => found.toList.flatMap _) same

theorem Bare.lacks (bare : value.Bare) (kind : QualifierType) : value.Lacks kind :=
  fun below inside => View.owned_of_none _ (bare below inside)

theorem Bare.leafQualifiers (bare : value.Bare) : value.LeafQualifiers := by
  intro below inside container found
  rw [bare below inside] at found
  cases found

end Json

namespace Tree

theorem preorder_carries (whole : Tree) :
    View.Carries view Json.view toJson fun tree => tree ∈ whole.preorder :=
  { member? := fun tree _ => toJson_carries.member? tree trivial
    element? := fun tree _ => toJson_carries.element? tree trivial
    children := fun tree _ => toJson_carries.children tree trivial
    scalar? := fun tree _ => toJson_carries.scalar? tree trivial
    descendants := fun tree _ => toJson_carries.descendants tree trivial
    memberWithin := fun _ within _ _ found =>
      preorder_trans within (child_mem_preorder (mem_children_of_member? found))
    elementWithin := fun _ within _ _ found =>
      preorder_trans within (child_mem_preorder (mem_children_of_element? found))
    childWithin := fun _ within _ inside => preorder_trans within (child_mem_preorder inside)
    descendantWithin := by
      intro tree within below inside
      rw [descendants_view] at inside
      exact preorder_trans within inside }

end Tree

namespace Json

variable {property : Json → Prop} {value data : Json} {key : String}

theorem Everywhere.of_selectOneIn {found : Json} {path : String} (every : data.Everywhere property)
    (selects : Query.selectOneIn data path = .ok (some found)) : found.Everywhere property := by
  obtain ⟨query, _, selects⟩ := bind_eq_ok.mp selects
  obtain ⟨tree, rfl⟩ := exists_tree data
  obtain ⟨mapped, kept⟩ := tree.preorder_carries.select_root tree.self_mem_preorder query.segments
  rw [Query.selectOne, Query.select, mapped] at selects
  split at selects
  · cases selects
  · rename_i node single
    cases selects
    obtain ⟨part, inside, rfl⟩ := List.mem_map.mp (single ▸ List.mem_singleton.mpr rfl)
    rw [everywhere_toJson] at every ⊢
    exact fun below within => every below (Tree.preorder_trans (kept part inside) within)
  · cases selects

theorem Bare.valueFor (bare : value.Bare) (kind : ModelType) (language : String) :
    (Scalars.valueFor kind language value).Bare := by
  unfold Scalars.valueFor
  split
  · refine everywhere_iff.mpr ⟨rfl, fun entry isEntry => ?_⟩
    rw [List.mem_singleton.mp isEntry]
    have others : Key.qualifiers ∉ [Key.text, Key.language] := by decide
    refine everywhere_iff.mpr ⟨Document.memberOf?_eq_none_iff.mpr others, fun part isPart => ?_⟩
    rcases List.mem_pair.mp isPart with rfl | rfl
    · exact bare
    · exact bare_text language
  · exact bare

/-! ### Values that stay as they are -/

section Fixed

variable {language : String} {members filled : List (String × Json)} {elements : List Json}

theorem fillElements?_of_fixed
    (fixed : ∀ element ∈ elements, fill? data language element = some element) :
    fillElements? data language elements = some elements := by
  induction elements with
  | nil => rw [fillElements?]
  | cons element rest ih =>
      obtain ⟨here, later⟩ := List.forall_mem_cons.mp fixed
      rw [fillElements?, here, ih later]
      rfl

theorem fillMembers?_of_fixed
    (fixed : ∀ member ∈ members, fill? data language member.2 = some member.2) (written : Bool) :
    fillMembers? data language written members = some members := by
  induction members generalizing written with
  | nil => rw [fillMembers?]
  | cons member rest ih =>
      obtain ⟨here, later⟩ := List.forall_mem_cons.mp fixed
      rw [fillMembers?]
      split
      · rw [ih later]
        rfl
      · rw [here, ih later]
        rfl

theorem fill?_object_of_fixed {value? : Option Json}
    (own : ownValue? data language (.object members) = some value?)
    (same : value? = none ∨ value? = memberOf? Key.value members)
    (fixed : ∀ member ∈ members, fill? data language member.2 = some member.2) :
    fill? data language (.object members) = some (.object members) := by
  rw [fill?_object, own, Option.bind_some, fillMembers?_of_fixed fixed, Option.map_some,
    Option.map_some]
  cases value? with
  | none => rfl
  | some value =>
      rcases same with impossible | same
      · cases impossible
      · rw [Option.elim_some, putMember_of_memberOf? same.symm]

theorem fill?_of_children (none : value.ownMappings = [])
    (fixed : ∀ child ∈ value.children, fill? data language child = some child) :
    fill? data language value = some value := by
  cases value with
  | scalar value => rw [fill?]
  | array elements =>
      have same : fillElements? data language elements = some elements :=
        fillElements?_of_fixed fixed
      rw [fill?, same]
      rfl
  | object members =>
      have own : ownValue? data language (.object members) = some .none := by
        unfold ownValue?
        rw [none]
        rfl
      exact fill?_object_of_fixed own (.inl rfl) fun member inside =>
        fixed member.2 (List.mem_map_of_mem inside)

theorem fill?_of_bare (bare : value.Bare) : fill? data language value = some value := by
  induction value using Json.induction with
  | step value ih =>
      obtain ⟨here, below⟩ := everywhere_iff.mp bare
      exact fill?_of_children (View.owned_of_none _ here) fun child inside =>
        ih child inside (below child inside)

end Fixed

/-! ### The mappings of an element again -/

section Own

variable {language : String} {element again mapping : Json} {value? next? : Option Json}
  {mappings : List Json}

theorem nextValue?_eq_some :
    nextValue? data language element value? mapping = some next? ↔ ∃ kind found?,
      (element.stringMember? Key.modelType).map ModelType.ofName = some kind ∧
      ¬(kind ≠ .multiLanguage ∧ value?.or (element.member? Key.value) = none) ∧
      pick? data element.cardinality mapping = some found? ∧
      next? = (found?.map (Scalars.valueFor kind language)).or
        (value?.or (if (element.member? Key.value).isSome then none else some (.text ""))) := by
  unfold nextValue?
  rw [Option.bind_eq_bind, Option.bind_eq_some_iff]
  apply exists_congr
  intro kind
  constructor
  · intro step
    obtain ⟨isKind, step⟩ := step
    split at step
    · cases step
    · rename_i given
      obtain ⟨found?, picked, rfl⟩ := Option.map_eq_some_iff.mp step
      exact ⟨found?, isKind, given, picked, rfl⟩
  · intro step
    obtain ⟨found?, isKind, given, picked, rfl⟩ := step
    refine ⟨isKind, ?_⟩
    rw [if_neg given, picked]
    rfl

theorem nextValue?_present (step : nextValue? data language element value? mapping = some next?) :
    next?.or (element.member? Key.value) ≠ none := by
  obtain ⟨kind, found?, _, _, _, rfl⟩ := nextValue?_eq_some.mp step
  intro missing
  obtain ⟨noNext, noValue⟩ := Option.or_eq_none_iff.mp missing
  obtain ⟨_, noInitial⟩ := Option.or_eq_none_iff.mp (Option.or_eq_none_iff.mp noNext).2
  rw [noValue] at noInitial
  cases noInitial

theorem nextValue?_bare (bare : data.Bare) (before : ∀ value, value? = some value → value.Bare)
    (step : nextValue? data language element value? mapping = some next?) :
    ∀ value, next? = some value → value.Bare := by
  obtain ⟨kind, found?, _, _, picked, rfl⟩ := nextValue?_eq_some.mp step
  intro value isValue
  cases found? with
  | some found =>
      cases isValue
      unfold pick? at picked
      split at picked
      · cases picked
      · split at picked
        · cases picked
        · rename_i selects
          cases picked
          exact Bare.valueFor (Everywhere.of_selectOneIn bare selects) kind language
        · split at picked <;> cases picked
  | none =>
      rw [Option.map_none, Option.none_or] at isValue
      cases value? with
      | some first =>
          cases isValue
          exact before _ rfl
      | none =>
          rw [Option.none_or] at isValue
          split at isValue
          · cases isValue
          · cases isValue
            exact bare_text ""

/-- An element that says the same and has a value is given that value again, or none. -/
theorem nextValue?_again
    (kind : again.stringMember? Key.modelType = element.stringMember? Key.modelType)
    (cardinality : again.cardinality = element.cardinality)
    (present : (again.member? Key.value).isSome = true)
    (step : nextValue? data language element value? mapping = some next?) {given? : Option Json}
    (earlier : given? = none ∨ given? = value?) :
    ∃ later?, nextValue? data language again given? mapping = some later? ∧
      (later? = none ∨ later? = next?) := by
  obtain ⟨modelType, found?, isKind, _, picked, rfl⟩ := nextValue?_eq_some.mp step
  have hasValue : ¬(modelType ≠ .multiLanguage ∧
      given?.or (again.member? Key.value) = none) := by
    intro missing
    rw [(Option.or_eq_none_iff.mp missing.2).2] at present
    cases present
  refine ⟨_, nextValue?_eq_some.mpr ⟨modelType, found?, kind ▸ isKind, hasValue,
    cardinality ▸ picked, rfl⟩, ?_⟩
  rw [if_pos present]
  cases found? with
  | some found => exact .inr rfl
  | none =>
      rcases earlier with rfl | rfl
      · exact .inl rfl
      · cases given? with
        | none => exact .inl rfl
        | some given => exact .inr rfl

theorem foldlM_nextValue?_again
    (kind : again.stringMember? Key.modelType = element.stringMember? Key.modelType)
    (cardinality : again.cardinality = element.cardinality)
    (present : mappings ≠ [] → (again.member? Key.value).isSome = true)
    (done : mappings.foldlM (nextValue? data language element) value? = some next?)
    {given? : Option Json} (earlier : given? = none ∨ given? = value?) :
    ∃ later?, mappings.foldlM (nextValue? data language again) given? = some later? ∧
      (later? = none ∨ later? = next?) := by
  -- what has been given the second time is always nothing, or what was given the first time
  induction mappings generalizing value? given? with
  | nil =>
      cases done
      exact ⟨given?, rfl, earlier⟩
  | cons mapping rest ih =>
      rw [List.foldlM_cons] at done
      obtain ⟨middle?, step, done⟩ := Option.bind_eq_some_iff.mp done
      have hasValue := present (List.cons_ne_nil _ _)
      obtain ⟨first?, stepAgain, close⟩ := nextValue?_again kind cardinality hasValue step earlier
      obtain ⟨later?, restAgain, closeLater⟩ := ih (fun _ => hasValue) done close
      refine ⟨later?, ?_, closeLater⟩
      rw [List.foldlM_cons, stepAgain]
      exact restAgain

theorem foldlM_nextValue?_present (nonempty : mappings ≠ [])
    (done : mappings.foldlM (nextValue? data language element) value? = some next?) :
    next?.or (element.member? Key.value) ≠ none := by
  induction mappings generalizing value? with
  | nil => exact absurd rfl nonempty
  | cons mapping rest ih =>
      rw [List.foldlM_cons] at done
      obtain ⟨middle?, step, done⟩ := Option.bind_eq_some_iff.mp done
      cases rest with
      | nil =>
          cases done
          exact nextValue?_present step
      | cons second others => exact ih (List.cons_ne_nil _ _) done

theorem foldlM_nextValue?_bare (bare : data.Bare)
    (before : ∀ value, value? = some value → value.Bare)
    (done : mappings.foldlM (nextValue? data language element) value? = some next?) :
    ∀ value, next? = some value → value.Bare := by
  induction mappings generalizing value? with
  | nil =>
      cases done
      exact before
  | cons mapping rest ih =>
      rw [List.foldlM_cons] at done
      obtain ⟨middle?, step, done⟩ := Option.bind_eq_some_iff.mp done
      exact ih (nextValue?_bare bare before step) done

end Own

/-! ### Filling again -/

section Again

variable {language : String} {members filled : List (String × Json)} {written : Bool}

theorem memberOf?_fillMembers? (done : fillMembers? data language written members = some filled)
    (different : key ≠ Key.value) :
    memberOf? key members = none ∧ memberOf? key filled = none ∨
      ∃ value image, memberOf? key members = some value ∧ memberOf? key filled = some image ∧
        fill? data language value = some image := by
  induction members generalizing written filled with
  | nil =>
      rw [fillMembers?] at done
      cases done
      exact .inl ⟨rfl, rfl⟩
  | cons member rest ih =>
      obtain ⟨name, value⟩ := member
      rw [fillMembers?] at done
      split at done
      · rename_i isValue
        obtain ⟨others, later, rfl⟩ := Option.map_eq_some_iff.mp done
        have apart : name ≠ key := fun same => different (same.symm.trans isValue.2)
        rw [memberOf?, memberOf?, if_neg apart, if_neg apart]
        exact ih later
      · obtain ⟨first, filledFirst, done⟩ := Option.bind_eq_some_iff.mp done
        obtain ⟨others, later, done⟩ := Option.bind_eq_some_iff.mp done
        cases done
        rw [memberOf?, memberOf?]
        split
        · exact .inr ⟨value, first, rfl, rfl, filledFirst⟩
        · exact ih later

theorem mem_fillMembers?_false (done : fillMembers? data language false members = some filled)
    {member : String × Json} (inside : member ∈ filled) :
    ∃ source ∈ members, fill? data language source.2 = some member.2 := by
  induction members generalizing filled with
  | nil =>
      rw [fillMembers?] at done
      cases done
      cases inside
  | cons first rest ih =>
      obtain ⟨name, value⟩ := first
      rw [fillMembers?, if_neg fun both => Bool.false_ne_true both.1] at done
      obtain ⟨image, filledFirst, done⟩ := Option.bind_eq_some_iff.mp done
      obtain ⟨others, later, done⟩ := Option.bind_eq_some_iff.mp done
      cases done
      rcases List.mem_cons.mp inside with rfl | deeper
      · exact ⟨(name, value), List.mem_cons_self .., filledFirst⟩
      · obtain ⟨source, isSource, same⟩ := ih later deeper
        exact ⟨source, List.mem_cons_of_mem _ isSource, same⟩

/-- What a filled element is made of: the value that is written, and filled members. -/
theorem mem_put_fillMembers? {value? : Option Json}
    (done : fillMembers? data language value?.isSome members = some filled)
    {member : String × Json}
    (inside : member ∈ value?.elim filled fun value => putMember Key.value value filled) :
    value? = some member.2 ∨ ∃ source ∈ members, fill? data language source.2 = some member.2 := by
  cases value? with
  | none => exact .inr (mem_fillMembers?_false done inside)
  | some value =>
      have put : (fillMembers? data language true members).map (putMember Key.value value) =
          some (putMember Key.value value filled) := congrArg _ done
      rw [Option.elim_some] at inside
      cases found : memberOf? Key.value members with
      | none =>
          rw [put_fillMembers?_of_none found] at put
          obtain ⟨others, filledOthers, same⟩ := Option.map_eq_some_iff.mp put
          rw [← same] at inside
          rcases List.mem_append.mp inside with old | new
          · exact .inr (mem_fillMembers?_false filledOthers old)
          · exact .inl (by rw [List.mem_singleton.mp new])
      | some old =>
          obtain ⟨front, back, rfl, others⟩ := memberOf?_eq_some_iff.mp found
          rw [put_fillMembers?_of_some others] at put
          obtain ⟨first, filledFirst, put⟩ := Option.bind_eq_some_iff.mp put
          obtain ⟨last, filledLast, same⟩ := Option.map_eq_some_iff.mp put
          rw [← same] at inside
          rcases List.mem_append.mp inside with inFront | deeper
          · obtain ⟨source, isSource, filledSource⟩ := mem_fillMembers?_false filledFirst inFront
            exact .inr ⟨source, List.mem_append_left _ isSource, filledSource⟩
          · rcases List.mem_cons.mp deeper with isValue | inBack
            · exact .inl (by rw [isValue])
            · obtain ⟨source, isSource, filledSource⟩ := mem_fillMembers?_false filledLast inBack
              exact .inr ⟨source, List.mem_append_right _ (List.mem_cons_of_mem _ isSource),
                filledSource⟩

theorem string?_of_fill? {image : Json} (done : fill? data language value = some image) :
    image.string? = value.string? := by
  cases value with
  | scalar value =>
      rw [fill?] at done
      cases done
      rfl
  | array elements =>
      rw [fill?] at done
      obtain ⟨images, _, rfl⟩ := Option.map_eq_some_iff.mp done
      rfl
  | object members =>
      rw [fill?_object] at done
      obtain ⟨value?, _, done⟩ := Option.bind_eq_some_iff.mp done
      obtain ⟨images, _, rfl⟩ := Option.map_eq_some_iff.mp done
      rfl

/-- How an element is filled: the value that its mappings give it, if any, and its members. -/
structure FillsElement (data : Json) (language : String) (members images : List (String × Json))
    (value? : Option Json) : Prop where
  own : ownValue? data language (.object members) = some value?
  made : ∃ filled, fillMembers? data language value?.isSome members = some filled ∧
    images = value?.elim filled fun value => putMember Key.value value filled

theorem exists_fillsElement {image : Json}
    (done : fill? data language (.object members) = some image) :
    ∃ images value?, image = .object images ∧ FillsElement data language members images value? := by
  rw [fill?_object] at done
  obtain ⟨value?, own, rest⟩ := Option.bind_eq_some_iff.mp done
  obtain ⟨images, put, rfl⟩ := Option.map_eq_some_iff.mp rest
  obtain ⟨filled, filledMembers, same⟩ := Option.map_eq_some_iff.mp put
  exact ⟨images, value?, rfl, own, filled, filledMembers, same.symm⟩

namespace FillsElement

variable {images : List (String × Json)} {value? : Option Json}

theorem part (fills : FillsElement data language members images value?) {member : String × Json}
    (inside : member ∈ images) : value? = some member.2 ∨
      ∃ source ∈ members, fill? data language source.2 = some member.2 := by
  obtain ⟨filled, filledMembers, rfl⟩ := fills.made
  exact mem_put_fillMembers? filledMembers inside

theorem member (fills : FillsElement data language members images value?)
    (different : key ≠ Key.value) :
    memberOf? key members = none ∧ memberOf? key images = none ∨
      ∃ value image, memberOf? key members = some value ∧ memberOf? key images = some image ∧
        fill? data language value = some image := by
  obtain ⟨filled, filledMembers, rfl⟩ := fills.made
  cases value? with
  | none => exact memberOf?_fillMembers? filledMembers different
  | some value =>
      rw [Option.elim_some, memberOf?_putMember_of_ne value filled different]
      exact memberOf?_fillMembers? filledMembers different

theorem stringMember?_eq (fills : FillsElement data language members images value?)
    (different : key ≠ Key.value) :
    (Json.object images).stringMember? key = (Json.object members).stringMember? key := by
  change (memberOf? key images).bind string? = (memberOf? key members).bind string?
  rcases fills.member different with ⟨missing, none⟩ | ⟨name, image, found, foundImage, same⟩
  · rw [missing, none]
  · rw [found, foundImage]
    exact string?_of_fill? same

/-- Qualifiers without qualifiers in them stay as they are. -/
theorem qualifiers_eq (fills : FillsElement data language members images value?)
    (leaf : (Json.object members).LeafQualifiers) :
    (Json.object images).member? Key.qualifiers = (Json.object members).member? Key.qualifiers := by
  change memberOf? Key.qualifiers images = memberOf? Key.qualifiers members
  rcases fills.member (by decide : Key.qualifiers ≠ Key.value) with
    ⟨missing, none⟩ | ⟨container, image, found, foundImage, same⟩
  · rw [missing, none]
  · rw [fill?_of_bare ((everywhere_iff.mp leaf).1 container found)] at same
    rw [found, foundImage, same]

theorem memberOf?_value (fills : FillsElement data language members images value?) {value : Json}
    (given : value? = some value) : memberOf? Key.value images = some value := by
  obtain ⟨filled, _, rfl⟩ := fills.made
  rw [given]
  exact memberOf?_putMember_self Key.value value filled

theorem hasValue (fills : FillsElement data language members images value?)
    (nonempty : (Json.object members).ownMappings ≠ []) :
    ((Json.object images).member? Key.value).isSome = true := by
  have given := foldlM_nextValue?_present nonempty fills.own
  cases value? with
  | some value => exact Option.isSome_iff_exists.mpr ⟨value, fills.memberOf?_value rfl⟩
  | none =>
      obtain ⟨filled, filledMembers, same⟩ := fills.made
      rw [Option.isSome_iff_ne_none]
      intro missing
      apply given
      change memberOf? Key.value images = none at missing
      rw [same, Option.elim_none, Document.memberOf?_eq_none_iff, keys_fillMembers? filledMembers,
        ← Document.memberOf?_eq_none_iff] at missing
      exact missing

/-- The mappings of a filled element give it the value that it has, or none. -/
theorem exists_ownValue? (fills : FillsElement data language members images value?)
    (leaf : (Json.object members).LeafQualifiers) :
    ∃ later?, ownValue? data language (.object images) = some later? ∧
      (later? = none ∨ later? = memberOf? Key.value images) := by
  have owned : ∀ which, view.owned which (Json.object images) =
      view.owned which (Json.object members) := fun _ => owned_congr (fills.qualifiers_eq leaf)
  have cardinality : (Json.object images).cardinality = (Json.object members).cardinality := by
    unfold Json.cardinality
    rw [owned]
  have kind := fills.stringMember?_eq (by decide : Key.modelType ≠ Key.value)
  obtain ⟨later?, again, close⟩ :=
    foldlM_nextValue?_again kind cardinality fills.hasValue fills.own (.inl rfl)
  refine ⟨later?, ?_, ?_⟩
  · unfold ownValue? ownMappings
    rw [owned]
    exact again
  · rcases close with none | same
    · exact .inl none
    · cases value? with
      | none => exact .inl same
      | some value => exact .inr (same.trans (fills.memberOf?_value rfl).symm)

end FillsElement

/-- A filled value that stays as it is when it is filled again, as its parts do, and has got no new
qualifiers. -/
structure Settles (data : Json) (language : String) (value image : Json) : Prop where
  parts : ∀ child ∈ image.children, fill? data language child = some child
  fixed : fill? data language image = some image
  lacks : ∀ kind, value.Lacks kind → image.Lacks kind

theorem settles_object (bare : data.Bare) (leaf : (Json.object members).LeafQualifiers)
    (each : ∀ member ∈ members, ∀ image, fill? data language member.2 = some image →
      Settles data language member.2 image)
    {image : Json} (done : fill? data language (.object members) = some image) :
    Settles data language (.object members) image := by
  obtain ⟨images, value?, rfl, fills⟩ := exists_fillsElement done
  have valueBare : ∀ value, value? = some value → value.Bare := by
    refine foldlM_nextValue?_bare bare ?_ fills.own
    intro value impossible
    cases impossible
  have fixed : ∀ member ∈ images, fill? data language member.2 = some member.2 := by
    intro member inside
    rcases fills.part inside with written | ⟨source, isSource, filledSource⟩
    · exact fill?_of_bare (valueBare member.2 written)
    · exact (each source isSource member.2 filledSource).fixed
  obtain ⟨later?, own, same⟩ := fills.exists_ownValue? leaf
  refine ⟨List.forall_mem_map.mpr fixed, fill?_object_of_fixed own same fixed, ?_⟩
  intro kind lacks
  obtain ⟨here, below⟩ := everywhere_iff.mp lacks
  refine everywhere_iff.mpr ⟨(owned_congr (fills.qualifiers_eq leaf)).trans here, ?_⟩
  intro child inside
  obtain ⟨member, isMember, rfl⟩ := List.mem_map.mp inside
  rcases fills.part isMember with written | ⟨source, isSource, filledSource⟩
  · exact (valueBare member.2 written).lacks kind
  · exact (each source isSource member.2 filledSource).lacks kind
      (below source.2 (List.mem_map_of_mem isSource))

theorem fillElements?_settles {elements images : List Json}
    (each : ∀ element ∈ elements, ∀ image, fill? data language element = some image →
      Settles data language element image)
    (done : fillElements? data language elements = some images) :
    ∀ image ∈ images, ∃ element ∈ elements, Settles data language element image := by
  induction elements generalizing images with
  | nil =>
      rw [fillElements?] at done
      cases done
      exact List.forall_mem_nil _
  | cons element rest ih =>
      rw [fillElements?] at done
      obtain ⟨first, filledFirst, others⟩ := Option.bind_eq_some_iff.mp done
      obtain ⟨later, filledLater, same⟩ := Option.bind_eq_some_iff.mp others
      cases same
      obtain ⟨here, deeper⟩ := List.forall_mem_cons.mp each
      intro image inside
      rcases List.mem_cons.mp inside with rfl | within
      · exact ⟨element, List.mem_cons_self .., here image filledFirst⟩
      · obtain ⟨source, isSource, settles⟩ := ih deeper filledLater image within
        exact ⟨source, List.mem_cons_of_mem _ isSource, settles⟩

/-- A filled value stays as it is when it is filled again. -/
theorem fill?_settles (bare : data.Bare) (value : Json) (leaf : value.LeafQualifiers) (image : Json)
    (done : fill? data language value = some image) : Settles data language value image := by
  -- qualifiers are leaves in the parts too, so the induction is on the value alone
  induction value using Json.induction generalizing image with
  | step value ih =>
      obtain ⟨_, below⟩ := everywhere_iff.mp leaf
      cases value with
      | scalar value =>
          rw [fill?] at done
          cases done
          exact ⟨List.forall_mem_nil _, by rw [fill?], fun _ lacks => lacks⟩
      | array elements =>
          rw [fill?] at done
          obtain ⟨images, filled, rfl⟩ := Option.map_eq_some_iff.mp done
          have settled := fillElements?_settles
            (fun element inside => ih element inside (below element inside)) filled
          have parts : ∀ image ∈ images, fill? data language image = some image := by
            intro image inside
            obtain ⟨_, _, settles⟩ := settled image inside
            exact settles.fixed
          refine ⟨parts, ?_, ?_⟩
          · rw [fill?, fillElements?_of_fixed parts]
            rfl
          · intro kind lacks
            obtain ⟨_, lower⟩ := everywhere_iff.mp lacks
            refine everywhere_iff.mpr ⟨View.owned_of_none _ rfl, ?_⟩
            intro image inside
            obtain ⟨element, isElement, settles⟩ := settled image inside
            exact settles.lacks kind (lower element isElement)
      | object members =>
          have each : ∀ member ∈ members, ∀ image, fill? data language member.2 = some image →
              Settles data language member.2 image := by
            intro member inside
            have child : member.2 ∈ (Json.object members).children := List.mem_map_of_mem inside
            exact ih member.2 child (below member.2 child)
          exact settles_object bare leaf each done

end Again

end Json

end TemplateFill
