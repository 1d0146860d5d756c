import TemplateFill.Proofs.Mapping.CopyValues
import TemplateFill.Proofs.Text.Numbers

/-!
Short names in arrays, and what copying an element does to them.

A copy of a collection has the short name of the collection with a number behind it. In all else a
copy says no more than its source: it brings in no name, no tag and no qualifier that the source
does not have. So the arrays in a copy are free of clashes between names if those in its source are.
-/

namespace TemplateFill

/-! ### Numbered names -/

/-- The second name is the first with so many numbers of copies behind it. -/
inductive Numbered (name : String) : Nat → String → Prop
  | once (number : Nat) : Numbered name 1 (name ++ "_" ++ toString number)
  | more {count : Nat} {other : String} (numbered : Numbered name count other) (number : Nat) :
      Numbered name (count + 1) (other ++ "_" ++ toString number)

/-- A name with a number behind it tells the name and the number. -/
theorem number_inj {name other : String} {number count : Nat}
    (same : name ++ "_" ++ toString number = other ++ "_" ++ toString count) :
    name = other ∧ number = count := by
  have characters (text : String) (value : Nat) :
      (text ++ "_" ++ toString value).toList = text.toList ++ '_' :: Nat.toDigits 10 value := by
    simp [String.toList_append, Nat.toList_repr]
  have lists := congrArg String.toList same
  rw [characters, characters] at lists
  obtain ⟨names, numbers⟩ := Text.numbered_inj (by decide) lists
  exact ⟨String.toList_inj.mp names, numbers⟩

namespace Numbered

variable {name other : String} {count : Nat}

theorem length_lt (numbered : Numbered name count other) : name.length < other.length := by
  have mark : "_".length = 1 := rfl
  induction numbered with
  | once number =>
      rw [String.length_append, String.length_append, mark]
      omega
  | more _ number ih =>
      rw [String.length_append, String.length_append, mark]
      omega

theorem pos (numbered : Numbered name count other) : 0 < count := by
  cases numbered <;> exact Nat.succ_pos _

/-- Without its last number, a numbered name is the name itself or has one number less. -/
theorem of_number_eq {number : Nat}
    (numbered : Numbered name count (other ++ "_" ++ toString number)) :
    name = other ∨ ∃ fewer, count = fewer + 1 ∧ Numbered name fewer other := by
  generalize same : other ++ "_" ++ toString number = whole at numbered
  cases numbered with
  | once last => exact Or.inl (number_inj same).1.symm
  | more before last => exact Or.inr ⟨_, rfl, (number_inj same).1 ▸ before⟩

theorem of_number {number : Nat}
    (numbered : Numbered (name ++ "_" ++ toString number) count other) :
    Numbered name (count + 1) other := by
  induction numbered with
  | once last => exact .more (.once number) last
  | more _ last ih => exact .more ih last

/-- No copy of an element has the name of another one with numbers behind it. -/
theorem not_number (number last : Nat) :
    ¬Numbered (name ++ "_" ++ toString number) count (name ++ "_" ++ toString last) := by
  intro numbered
  have longer (text : String) : text.length < (text ++ "_" ++ toString number).length :=
    (Numbered.once number).length_lt
  rcases of_number_eq numbered with same | ⟨_, _, before⟩
  · exact absurd (congrArg String.length same) (Nat.ne_of_gt (longer name))
  · exact Nat.lt_asymm (longer name) before.length_lt

end Numbered

/-! ### Arrays -/

inductive Json.EveryArray (holds : List Json → Prop) : Json → Prop
  | scalar (value : Scalar) : EveryArray holds (.scalar value)
  | array {elements : List Json} (here : holds elements)
      (each : ∀ element ∈ elements, EveryArray holds element) : EveryArray holds (.array elements)
  | object {members : List (String × Json)}
      (each : ∀ member ∈ members, EveryArray holds member.2) : EveryArray holds (.object members)

namespace Json

namespace EveryArray

variable {first second both : List Json → Prop} {value element : Json}

theorem combine (each : ∀ elements, first elements → second elements → both elements)
    (left : value.EveryArray first) (right : value.EveryArray second) : value.EveryArray both := by
  induction left with
  | scalar value => exact .scalar value
  | array here _ ih =>
      cases right with
      | array hereToo others =>
          exact .array (each _ here hereToo) fun element inside => ih element inside
            (others element inside)
  | object _ ih =>
      cases right with
      | object others => exact .object fun member inside => ih member inside (others member inside)

theorem imp (each : ∀ elements, first elements → second elements)
    (every : value.EveryArray first) : value.EveryArray second :=
  every.combine (fun elements here _ => each elements here) every

theorem of_mem_children (every : value.EveryArray first) (inside : element ∈ value.children) :
    element.EveryArray first := by
  cases every with
  | scalar value => cases inside
  | array here each => exact each element inside
  | object each =>
      obtain ⟨member, listed, rfl⟩ := List.mem_map.mp inside
      exact each member listed

end EveryArray

def shortName? : Json → Option String := stringMember? Key.idShort

def isCollectionQualifier : Json → Bool := view.hasTag QualifierType.collectionMappingInfo.tag

/-- An element that has a collection qualifier, so that it is repeated. -/
def IsRepeated (element : Json) : Prop :=
  ∃ list, element.member? Key.qualifiers = some list ∧
    ∃ qualifier ∈ list.children, qualifier.isCollectionQualifier = true

/-- Qualifiers that can give the copies of their element so many numbers: one for each collection
qualifier, and any number of them if such a qualifier is repeated itself. -/
def AllowNumbers (qualifiers : List Json) (count : Nat) : Prop :=
  count ≤ qualifiers.countP isCollectionQualifier ∨
    ∃ qualifier ∈ qualifiers, qualifier.isCollectionQualifier = true ∧ qualifier.IsRepeated

/-- An element whose copies can get so many numbers behind its short name. -/
def TakesNumbers (element : Json) (count : Nat) : Prop :=
  ∃ list, element.member? Key.qualifiers = some list ∧ AllowNumbers list.children count

def NamesDistinct (elements : List Json) : Prop := (elements.filterMap shortName?).Nodup

/-- No element has the short name of one that is repeated with numbers behind it, as many as the
copies of that one can get. -/
def NamesFree (elements : List Json) : Prop :=
  ∀ element ∈ elements, ∀ count, element.TakesNumbers count → ∀ other ∈ elements, ∀ name taken,
    element.shortName? = some name → other.shortName? = some taken → ¬Numbered name count taken

/-! ### Values that say no more than others -/

/-- A value says no more than another one: its texts are texts of the other, and what is repeated or
lists a collection qualifier does so in the other. The texts of values may be written anew. -/
structure Echoes (new old : Json) : Prop where
  scalar? : new.scalar? = old.scalar?
  texts : ∀ key text, key ≠ Key.value → new.stringMember? key = some text →
    old.stringMember? key = some text
  allow : ∀ count, AllowNumbers new.children count → AllowNumbers old.children count
  takes : ∀ count, new.TakesNumbers count → old.TakesNumbers count

variable {new old value element : Json} {count : Nat}

theorem string?_eq (value : Json) : value.string? = value.scalar?.bind fun
    | .string text => some text
    | _ => none := by
  cases value with
  | scalar value => cases value <;> rfl
  | _ => rfl

theorem isCollectionQualifier_iff : value.isCollectionQualifier = true ↔
    value.stringMember? Key.type = some QualifierType.collectionMappingInfo.tag := by
  rw [isCollectionQualifier, View.hasTag, beq_iff_eq, stringMember?]
  change (value.member? Key.type).bind scalar? = _ ↔ _
  cases value.member? Key.type with
  | none => simp
  | some member =>
      rw [Option.bind_some, Option.bind_some, string?_eq]
      cases member.scalar? with
      | none => simp
      | some found => cases found <;> simp

theorem isRepeated_iff : value.IsRepeated ↔ value.TakesNumbers 1 := by
  constructor
  · rintro ⟨list, present, qualifier, inside, tagged⟩
    exact ⟨list, present, Or.inl (List.countP_pos_iff.mpr ⟨qualifier, inside, tagged⟩)⟩
  · rintro ⟨list, present, some | ⟨qualifier, inside, tagged, _⟩⟩
    · exact ⟨list, present, List.countP_pos_iff.mp some⟩
    · exact ⟨list, present, qualifier, inside, tagged⟩

def Counts (new old : Json) : Prop :=
  new.isCollectionQualifier = true →
    old.isCollectionQualifier = true ∧ (new.IsRepeated → old.IsRepeated)

theorem countP_le_of_counts {news kept : List Json} (pairs : List.Forall₂ Counts news kept) :
    news.countP isCollectionQualifier ≤ kept.countP isCollectionQualifier := by
  induction pairs with
  | nil => exact Nat.le_refl _
  | @cons new old _ _ counts _ ih =>
      rw [List.countP_cons, List.countP_cons]
      refine Nat.add_le_add ih ?_
      cases tagged : new.isCollectionQualifier with
      | false => exact Nat.zero_le _
      | true => exact Nat.le_of_eq (by rw [(counts tagged).1])

theorem exists_paired {related : Json → Json → Prop} {news kept : List Json}
    (pairs : List.Forall₂ related news kept) (inside : new ∈ news) :
    ∃ old ∈ kept, related new old := by
  induction pairs with
  | nil => cases inside
  | @cons first old _ _ pair _ ih =>
      rcases List.mem_cons.mp inside with rfl | later
      · exact ⟨old, List.mem_cons_self .., pair⟩
      · obtain ⟨source, listed, found⟩ := ih later
        exact ⟨source, List.mem_cons_of_mem _ listed, found⟩

/-- Qualifiers allow no fewer numbers than some of them that have been rewritten. -/
theorem AllowNumbers.mono {news kept olds : List Json} {more : Nat}
    (allow : AllowNumbers news count) (pairs : List.Forall₂ Counts news kept)
    (sublist : kept.Sublist olds) (gained :
      kept.countP isCollectionQualifier + more ≤ olds.countP isCollectionQualifier) :
    AllowNumbers olds (count + more) := by
  rcases allow with few | ⟨new, inside, tagged, repeated⟩
  · have fewer := countP_le_of_counts pairs
    exact Or.inl (by omega)
  · obtain ⟨old, listed, counts⟩ := exists_paired pairs inside
    obtain ⟨taggedToo, repeats⟩ := counts tagged
    exact Or.inr ⟨old, sublist.subset listed, taggedToo, repeats repeated⟩

theorem TakesNumbers.mono {fewer : Nat} (takes : value.TakesNumbers count) (le : fewer ≤ count) :
    value.TakesNumbers fewer := by
  obtain ⟨list, present, few | repeated⟩ := takes
  · exact ⟨list, present, Or.inl (Nat.le_trans le few)⟩
  · exact ⟨list, present, Or.inr repeated⟩

theorem AllowNumbers.of_counts {news kept olds : List Json}
    (pairs : List.Forall₂ Counts news kept) (sublist : kept.Sublist olds)
    (allow : AllowNumbers news count) : AllowNumbers olds count :=
  show AllowNumbers olds (count + 0) from allow.mono pairs sublist sublist.countP_le

namespace Echoes

theorem refl (value : Json) : Echoes value value := ⟨rfl, fun _ _ _ => id, fun _ => id, fun _ => id⟩

theorem shortName? {name : String} (echoes : Echoes new old) (named : new.shortName? = some name) :
    old.shortName? = some name :=
  echoes.texts Key.idShort name (by decide) named

theorem counts (echoes : Echoes new old) : Counts new old := by
  intro tagged
  rw [isCollectionQualifier_iff] at tagged ⊢
  refine ⟨echoes.texts Key.type _ (by decide) tagged, fun repeated => ?_⟩
  exact isRepeated_iff.mpr (echoes.takes 1 (isRepeated_iff.mp repeated))

theorem array {elements olds : List Json}
    (allow : ∀ count, AllowNumbers elements count → AllowNumbers olds count) :
    Echoes (.array elements) (.array olds) :=
  { scalar? := rfl
    texts := nofun
    allow
    takes := nofun }

theorem object {members olds : List (String × Json)}
    (found : ∀ key child, key ≠ Key.value → memberOf? key members = some child →
      ∃ source, memberOf? key olds = some source ∧ Echoes child source)
    (allow : ∀ count, AllowNumbers (members.map Prod.snd) count →
      AllowNumbers (olds.map Prod.snd) count) :
    Echoes (.object members) (.object olds) where
  scalar? := rfl
  texts := by
    intro key text other given
    obtain ⟨child, present, isText⟩ := Option.bind_eq_some_iff.mp given
    obtain ⟨source, old, echoes⟩ := found key child other present
    refine Option.bind_eq_some_iff.mpr ⟨source, old, ?_⟩
    rwa [string?_eq, ← echoes.scalar?, ← string?_eq]
  allow := allow
  takes := by
    rintro count ⟨list, present, allowed⟩
    obtain ⟨source, old, echoes⟩ := found Key.qualifiers list (by decide) present
    exact ⟨source, old, echoes.allow count allowed⟩

end Echoes

structure NamesClear (elements : List Json) : Prop where
  distinct : NamesDistinct elements
  free : NamesFree elements

theorem names_sublist {elements kept : List Json} (echoes : List.Forall₂ Echoes elements kept) :
    (elements.filterMap shortName?).Sublist (kept.filterMap shortName?) := by
  induction echoes with
  | nil => exact .slnil
  | @cons new old _ _ first _ ih =>
      cases named : new.shortName? with
      | none =>
          rw [List.filterMap_cons_none named]
          exact ih.trans ((List.sublist_cons_self ..).filterMap _)
      | some name =>
          rw [List.filterMap_cons_some named, List.filterMap_cons_some (first.shortName? named)]
          exact ih.cons_cons name

/-- An array stays free of clashes if elements go, and the others say no more than before. -/
theorem NamesClear.of_echoes {elements kept olds : List Json} (clear : NamesClear olds)
    (sublist : kept.Sublist olds) (echoes : List.Forall₂ Echoes elements kept) :
    NamesClear elements := by
  refine ⟨clear.distinct.sublist ((names_sublist echoes).trans (sublist.filterMap _)), ?_⟩
  intro element inside count takes other listed name taken named namedOther
  obtain ⟨old, oldIn, echo⟩ := exists_paired echoes inside
  obtain ⟨oldOther, otherIn, echoOther⟩ := exists_paired echoes listed
  exact clear.free old (sublist.subset oldIn) count (echo.takes count takes) oldOther
    (sublist.subset otherIn) name taken (echo.shortName? named) (echoOther.shortName? namedOther)

/-! ### Copies -/

/-- Which texts a revision of a copy may write anew: paths, and the short name of the copy. -/
def WritesRoles (write : Role → String → String) : Prop :=
  ∀ role text, role.isPath = false → role.isShortName = false → write role text = text

theorem writesRoles_number (position : Nat) : WritesRoles fun role text =>
    if role.isShortName then text ++ "_" ++ toString position else text :=
  fun role text _ noName => by simp only [noName]; rfl

theorem writesRoles_bound (binding : Binding) (position : Nat) : WritesRoles fun role text =>
    if role.isPath && binding.appliesTo text then binding.bind text position else text :=
  fun role text noPath _ => by simp only [noPath, Bool.false_and]; rfl

variable {drop : Role → Json → Bool} {write : Role → String → String} {role : Role}

theorem memberOf?_filter {α : Type} {keep : String × α → Bool} {key : String} {member : α}
    {members : List (String × α)} (apart : (members.map Prod.fst).Nodup)
    (found : memberOf? key (members.filter keep) = some member) :
    memberOf? key members = some member :=
  Document.memberOf?_of_mem apart (List.mem_of_mem_filter (mem_of_memberOf? found))

theorem memberOf?_mapKeyed {α β : Type} (key : String) (change : String → α → β)
    (members : List (String × α)) :
    memberOf? key (members.map fun member => (member.1, change member.1 member.2)) =
      (memberOf? key members).map (change key) := by
  induction members with
  | nil => rfl
  | cons member rest ih =>
      rw [List.map_cons, memberOf?, memberOf?, ih]
      split
      · rename_i same
        rw [same]
        rfl
      · rfl

theorem keysDistinct_revise (distinct : value.KeysDistinct) :
    (value.revise drop write role).KeysDistinct := by
  induction distinct generalizing role with
  | scalar value => exact .scalar _
  | array each ih =>
      rw [revise, reviseElements_eq]
      refine .array fun element inside => ?_
      obtain ⟨old, kept, rfl⟩ := List.mem_map.mp inside
      exact ih old (List.mem_of_mem_filter kept)
  | object apart each ih =>
      rw [revise, reviseMembers_eq]
      refine .object ?_ fun member inside => ?_
      · rw [List.map_map]
        exact apart.sublist (List.filter_sublist.map _)
      · obtain ⟨old, kept, rfl⟩ := List.mem_map.mp inside
        exact ih old (List.mem_of_mem_filter kept)

theorem KeysDistinct.of_mem_children (distinct : value.KeysDistinct)
    (inside : element ∈ value.children) : element.KeysDistinct := by
  cases distinct with
  | scalar value => cases inside
  | array each => exact each element inside
  | object _ each =>
      obtain ⟨member, listed, rfl⟩ := List.mem_map.mp inside
      exact each member listed

theorem forall₂_children_revise (value : Json) : List.Forall₂
    (fun new old => old ∈ value.children ∧ ∃ inner : Role, inner.isElement = false ∧
      new = old.revise drop write inner)
    (value.revise drop write role).children
    (value.children.filter fun child => !drop role child) := by
  cases value with
  | scalar value => exact .nil
  | array elements =>
      rw [revise, reviseElements_eq]
      refine List.forall₂_map_left_iff.mpr (List.forall₂_same.mpr fun element kept => ?_)
      exact ⟨List.mem_of_mem_filter kept, _, rfl, rfl⟩
  | object members =>
      have filtered : (Json.object members).children.filter (fun child => !drop role child) =
          (members.filter fun member => !drop role member.2).map Prod.snd := List.filter_map
      rw [revise, reviseMembers_eq, filtered, children, children, List.map_map]
      refine List.forall₂_map_left_iff.mpr (List.forall₂_map_right_iff.mpr
        (List.forall₂_same.mpr fun member kept => ?_))
      exact ⟨List.mem_map_of_mem (List.mem_of_mem_filter kept), _, rfl, rfl⟩

theorem counts_text {text : String} : Counts ((Json.text text).revise drop write role) old := by
  intro tagged
  rw [Json.text, revise] at tagged
  cases tagged

theorem forall₂_counts_revise (drop : Role → Json → Bool) (write : Role → String → String)
    (role : Role) (value : Json) (each : ∀ child ∈ value.children, ∀ inner : Role,
      inner.isElement = false → (∀ text, child ≠ .text text) →
        Echoes (child.revise drop write inner) child) :
    List.Forall₂ Counts (value.revise drop write role).children
      (value.children.filter fun child => !drop role child) := by
  refine (forall₂_children_revise value).imp ?_
  rintro _ old ⟨listed, inner, notElement, rfl⟩
  by_cases isText : ∃ text, old = .text text
  · obtain ⟨text, rfl⟩ := isText
    exact counts_text
  · exact (each old listed inner notElement fun text same => isText ⟨text, same⟩).counts

/-- A revised value says no more than it did, unless it is a text that is written anew. -/
theorem echoes_revise (writes : WritesRoles write) (distinct : value.KeysDistinct)
    (inner : role.isElement = false)
    (plain : ∀ text, value = .text text → write role text = text) :
    Echoes (value.revise drop write role) value := by
  induction distinct generalizing role with
  | scalar value =>
      rw [revise]
      have same : value.mapText (write role) = value := by
        cases value with
        | string text => exact congrArg Scalar.string (plain text rfl)
        | _ => rfl
      rw [same]
      exact .refl _
  | @array elements each ih =>
      have pairs := forall₂_counts_revise drop write role (.array elements)
        fun child listed inner notElement noText =>
          ih child listed notElement fun text same => absurd same (noText text)
      rw [revise] at pairs ⊢
      exact .array fun count => AllowNumbers.of_counts pairs List.filter_sublist
  | @object members apart each ih =>
      have pairs := forall₂_counts_revise drop write role (.object members)
        fun child listed inner notElement noText => by
          obtain ⟨member, present, rfl⟩ := List.mem_map.mp listed
          exact ih member present notElement fun text same => absurd same (noText text)
      rw [revise] at pairs ⊢
      refine .object (fun key child other found => ?_) fun count =>
        AllowNumbers.of_counts pairs List.filter_sublist
      rw [reviseMembers_eq, memberOf?_mapKeyed key fun name source =>
        revise drop write (role.below (some name) source) source] at found
      obtain ⟨source, kept, rfl⟩ := Option.map_eq_some_iff.mp found
      have old := memberOf?_filter apart kept
      refine ⟨source, old, ih (key, source) (mem_of_memberOf? old) rfl fun text _ => ?_⟩
      exact writes _ text (by simp [Role.below, other]) (by simp [Role.below, inner])

theorem everyArray_revise (writes : WritesRoles write) (distinct : value.KeysDistinct)
    (clear : value.EveryArray NamesClear) :
    (value.revise drop write role).EveryArray NamesClear := by
  induction clear generalizing role with
  | scalar value => exact .scalar _
  | @array elements here each ih =>
      have apart : ∀ element ∈ elements, element.KeysDistinct := by
        cases distinct
        assumption
      have echoes : List.Forall₂ Echoes
          ((elements.filter fun element => !drop role element).map fun element =>
            revise drop write (role.below none element) element)
          (elements.filter fun element => !drop role element) := by
        refine List.forall₂_map_left_iff.mpr (List.forall₂_same.mpr fun element kept => ?_)
        have distinctThere := apart element (List.mem_of_mem_filter kept)
        refine echoes_revise writes distinctThere rfl fun text _ => ?_
        exact writes _ text (by simp [Role.below]) (by simp [Role.below])
      rw [revise, reviseElements_eq]
      refine .array (here.of_echoes List.filter_sublist echoes) fun element inside => ?_
      · obtain ⟨old, kept, rfl⟩ := List.mem_map.mp inside
        have listed := List.mem_of_mem_filter kept
        exact ih old listed (apart old listed)
  | @object members each ih =>
      have apart : ∀ member ∈ members, member.2.KeysDistinct := by
        cases distinct
        assumption
      rw [revise, reviseMembers_eq]
      refine .object fun member inside => ?_
      obtain ⟨old, kept, rfl⟩ := List.mem_map.mp inside
      have listed := List.mem_of_mem_filter kept
      exact ih old listed (apart old listed)

/-- The texts of an element itself, revised: only its short name can be written anew. -/
theorem stringMember?_revise_element (keeps : ∀ child, drop Role.element child = false)
    (key : String) (value : Json) :
    (value.revise drop write Role.element).stringMember? key =
      (value.stringMember? key).map fun text =>
        write (Role.element.below (some key) (.text text)) text := by
  cases value with
  | scalar value => rfl
  | array elements => rfl
  | object members =>
      rw [revise, reviseMembers_eq, stringMember?, stringMember?, member?, member?]
      simp only [keeps, Bool.not_false, List.filter_true]
      rw [memberOf?_mapKeyed key fun name source =>
        revise drop write (Role.element.below (some name) source) source]
      cases memberOf? key members with
      | none => rfl
      | some source =>
          cases source with
          | scalar value => cases value <;> rfl
          | array elements => rfl
          | object others => rfl

theorem stringMember?_copyFor (path : String) (binding : Binding) (position : Nat) (key : String)
    (element : Json) :
    (copyFor path binding position element).stringMember? key =
      (element.stringMember? key).map fun text =>
        if key = Key.idShort then text ++ "_" ++ toString position else text := by
  rw [copyFor, withBoundPaths, stringMember?_revise_element fun _ => rfl, withNumber,
    stringMember?_revise_element fun _ => rfl, withoutTriggers,
    stringMember?_revise_element fun _ => rfl, Option.map_map, Option.map_map]
  refine congrArg (Option.map · _) (funext fun text => ?_)
  simp [Role.below, Role.element]

theorem shortName?_copyFor (path : String) (binding : Binding) (position : Nat) (element : Json) :
    (copyFor path binding position element).shortName? =
      element.shortName?.map fun name => name ++ "_" ++ toString position := by
  rw [shortName?, stringMember?_copyFor]
  rfl

theorem isCollectionQualifier_copyFor {path : String} {binding : Binding} {position : Nat} :
    (copyFor path binding position element).isCollectionQualifier = true ↔
      element.isCollectionQualifier = true := by
  have other : Key.type ≠ Key.idShort := by decide
  rw [isCollectionQualifier_iff, isCollectionQualifier_iff, stringMember?_copyFor]
  simp [other]

theorem exists_of_member?_revise {key : String} {child : Json} (distinct : value.KeysDistinct)
    (found : (value.revise drop write role).member? key = some child) :
    ∃ source, value.member? key = some source ∧
      child = source.revise drop write (role.below (some key) source) := by
  cases distinct with
  | scalar value => cases found
  | array each => cases found
  | @object members apart each =>
      rw [revise, reviseMembers_eq, member?, memberOf?_mapKeyed key fun name source =>
        revise drop write (role.below (some name) source) source] at found
      obtain ⟨source, kept, rfl⟩ := Option.map_eq_some_iff.mp found
      exact ⟨source, memberOf?_filter apart kept, rfl⟩

theorem echoes_revised_qualifiers {list : Json} (writes : WritesRoles write)
    (distinct : list.KeysDistinct) :
    Echoes (list.revise drop write (role.below (some Key.qualifiers) list)) list := by
  have noName : Key.qualifiers ≠ Key.idShort := by decide
  have noPath : Key.qualifiers ≠ Key.value := by decide
  refine echoes_revise writes distinct rfl fun text _ => ?_
  exact writes _ text (by simp [Role.below, noPath]) (by simp [Role.below, noName])

theorem mem_children_of_member? {key : String} {child : Json}
    (found : value.member? key = some child) : child ∈ value.children := by
  cases value with
  | object members => exact List.mem_map_of_mem (mem_of_memberOf? found)
  | _ => cases found

theorem TakesNumbers.of_revise (writes : WritesRoles write) (distinct : value.KeysDistinct)
    (takes : (value.revise drop write role).TakesNumbers count) : value.TakesNumbers count := by
  obtain ⟨list, present, allow⟩ := takes
  obtain ⟨source, old, rfl⟩ := exists_of_member?_revise distinct present
  have sourceDistinct := distinct.of_mem_children (mem_children_of_member? old)
  exact ⟨source, old, (echoes_revised_qualifiers writes sourceDistinct).allow count allow⟩

def IsTriggered (path : String) (element : Json) : Prop :=
  ∃ list, element.member? Key.qualifiers = some list ∧
    ∃ qualifier ∈ list.children, isTrigger path qualifier = true

theorem isCollectionQualifier_of_isTrigger {path : String} (trigger : isTrigger path value = true) :
    value.isCollectionQualifier = true :=
  (Bool.and_eq_true_iff.mp trigger).1

theorem IsTriggered.takesNumbers_one {path : String} (triggered : element.IsTriggered path) :
    element.TakesNumbers 1 := by
  obtain ⟨list, present, qualifier, inside, trigger⟩ := triggered
  exact isRepeated_iff.mp ⟨list, present, qualifier, inside,
    isCollectionQualifier_of_isTrigger trigger⟩

/-- Without the qualifiers that trigger a round an element takes one number less at least. -/
theorem TakesNumbers.of_withoutTriggers {path : String} (distinct : element.KeysDistinct)
    (triggered : element.IsTriggered path)
    (takes : (element.withoutTriggers path).TakesNumbers count) :
    element.TakesNumbers (count + 1) := by
  obtain ⟨list, present, allow⟩ := takes
  obtain ⟨source, old, rfl⟩ := exists_of_member?_revise distinct present
  obtain ⟨same, oldToo, qualifier, inside, trigger⟩ := triggered
  obtain rfl := Option.some.inj (old.symm.trans oldToo)
  have sourceDistinct := distinct.of_mem_children (mem_children_of_member? old)
  have pairs := forall₂_counts_revise
    (fun role child => role.isContainer && isTrigger path child) (fun _ text => text)
    (Role.element.below (some Key.qualifiers) source) source
    fun child listed inner notElement noText => echoes_revise (fun _ _ _ _ => rfl)
      (sourceDistinct.of_mem_children listed) notElement fun _ _ => rfl
  refine ⟨source, old, allow.mono pairs List.filter_sublist ?_⟩
  have dropped : 0 < (source.children.filter (isTrigger path)).countP isCollectionQualifier :=
    List.countP_pos_iff.mpr ⟨qualifier, List.mem_filter.mpr ⟨inside, trigger⟩,
      isCollectionQualifier_of_isTrigger trigger⟩
  have parts := List.countP_eq_countP_filter_add source.children isCollectionQualifier
    (isTrigger path)
  have list : (Role.element.below (some Key.qualifiers) source).isContainer = true := by
    simp [Role.below]
  simp only [list, Bool.true_and]
  omega

theorem takesNumbers_copyFor {path : String} {binding : Binding} {position : Nat}
    (distinct : element.KeysDistinct) (triggered : element.IsTriggered path)
    (takes : (copyFor path binding position element).TakesNumbers count) :
    element.TakesNumbers (count + 1) := by
  have pruned : (element.withoutTriggers path).KeysDistinct := keysDistinct_revise distinct
  have numbered : ((element.withoutTriggers path).withNumber position).TakesNumbers count :=
    TakesNumbers.of_revise (writesRoles_bound binding position) (keysDistinct_revise pruned) takes
  exact (TakesNumbers.of_revise (writesRoles_number position) pruned numbered).of_withoutTriggers
    distinct triggered

theorem everyArray_copyFor (path : String) (binding : Binding) (position : Nat)
    (distinct : element.KeysDistinct) (clear : element.EveryArray NamesClear) :
    (copyFor path binding position element).EveryArray NamesClear := by
  have kept : WritesRoles fun _ text => text := fun _ _ _ _ => rfl
  have first : (element.withoutTriggers path).EveryArray NamesClear :=
    everyArray_revise kept distinct clear
  have second : ((element.withoutTriggers path).withNumber position).EveryArray NamesClear :=
    everyArray_revise (writesRoles_number position) (keysDistinct_revise distinct) first
  exact everyArray_revise (writesRoles_bound binding position)
    (keysDistinct_revise (keysDistinct_revise distinct)) second

end Json

end TemplateFill
