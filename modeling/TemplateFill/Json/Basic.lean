import TemplateFill.Decimal.Binary64

/-!
JSON values whose objects keep their members in order.

An object is a list of members; `put` keeps the place of a key that is already there. Integers and
binary64 numbers are kept apart, and compare with each other by their binary64 values.
-/

namespace TemplateFill

/-- A number of a document: an integer, or a binary64 number written with a point or an exponent. -/
inductive Number where
  | integer (value : Int)
  | float (value : Binary64)
deriving DecidableEq

namespace Number

def toBinary64 : Number → Binary64
  | .integer value => Binary64.ofInt value
  | .float value => value

def rank (number : Number) : Int := number.toBinary64.rank

end Number

inductive Scalar where
  | null
  | bool (value : Bool)
  | number (value : Number)
  | string (value : String)
deriving DecidableEq

inductive Json where
  | scalar (value : Scalar)
  | array (elements : List Json)
  | object (members : List (String × Json))

def memberOf? {α : Type} (key : String) : List (String × α) → Option α
  | [] => none
  | (name, value) :: rest => if name = key then some value else memberOf? key rest

/-- Puts a member into an ordered list: in the place of the key if it is there, else last. -/
def putMember {α : Type} (key : String) (value : α) : List (String × α) → List (String × α)
  | [] => [(key, value)]
  | (name, old) :: rest =>
      if name = key then (name, value) :: rest else (name, old) :: putMember key value rest

theorem memberOf?_map {α β : Type} (key : String) (change : α → β) (members : List (String × α)) :
    memberOf? key (members.map fun member => (member.1, change member.2)) =
      (memberOf? key members).map change := by
  induction members with
  | nil => rfl
  | cons member rest ih =>
      simp only [List.map_cons, memberOf?]
      split
      · rfl
      · exact ih

/-- A member that is found stands behind members of other keys only. -/
theorem memberOf?_eq_some_iff {α : Type} {key : String} {value : α}
    {members : List (String × α)} :
    memberOf? key members = some value ↔
      ∃ before after, members = before ++ (key, value) :: after ∧
        ∀ member ∈ before, member.1 ≠ key := by
  induction members with
  | nil => simp [memberOf?]
  | cons member rest ih =>
      obtain ⟨name, first⟩ := member
      rw [memberOf?]
      by_cases same : name = key
      · subst same
        rw [if_pos rfl]
        constructor
        · intro found
          cases found
          exact ⟨[], rest, rfl, nofun⟩
        · rintro ⟨before, after, split, others⟩
          cases before with
          | nil => cases split; rfl
          | cons head tail =>
              cases split
              exact absurd rfl (others _ (List.mem_cons_self ..))
      · rw [if_neg same, ih]
        constructor
        · rintro ⟨before, after, rfl, others⟩
          refine ⟨(name, first) :: before, after, rfl, ?_⟩
          intro other inside
          rcases List.mem_cons.mp inside with rfl | later
          · exact same
          · exact others other later
        · rintro ⟨before, after, split, others⟩
          cases before with
          | nil => cases split; exact absurd rfl same
          | cons head tail =>
              cases split
              exact ⟨tail, after, rfl, fun other later => others other (List.mem_cons_of_mem _ later)⟩

theorem mem_of_memberOf? {α : Type} {key : String} {value : α} {members : List (String × α)}
    (found : memberOf? key members = some value) : (key, value) ∈ members := by
  obtain ⟨before, after, rfl, _⟩ := memberOf?_eq_some_iff.mp found
  exact List.mem_append_right _ (List.mem_cons_self ..)

namespace Json

/-! ### Building values -/

def null : Json := .scalar .null

def text (value : String) : Json := .scalar (.string value)

def integer (value : Int) : Json := .scalar (.number (.integer value))

def bool (value : Bool) : Json := .scalar (.bool value)

instance : Inhabited Json := ⟨null⟩

/-! ### Equality -/

mutual

def decideEq : (left right : Json) → Decidable (left = right)
  | .scalar first, .scalar second => decidable_of_iff (first = second) (by simp)
  | .array first, .array second =>
      have := decideEqElements first second
      decidable_of_iff (first = second) (by simp)
  | .object first, .object second =>
      have := decideEqMembers first second
      decidable_of_iff (first = second) (by simp)
  | .scalar _, .array _ | .scalar _, .object _ | .array _, .scalar _ | .array _, .object _
  | .object _, .scalar _ | .object _, .array _ => isFalse nofun

def decideEqElements : (left right : List Json) → Decidable (left = right)
  | [], [] => isTrue rfl
  | first :: left, second :: right =>
      have := decideEq first second
      have := decideEqElements left right
      decidable_of_iff (first = second ∧ left = right) (by simp)
  | [], _ :: _ | _ :: _, [] => isFalse nofun

def decideEqMembers : (left right : List (String × Json)) → Decidable (left = right)
  | [], [] => isTrue rfl
  | (key, first) :: left, (name, second) :: right =>
      have := decideEq first second
      have := decideEqMembers left right
      decidable_of_iff ((key = name ∧ first = second) ∧ left = right) (by simp)
  | [], _ :: _ | _ :: _, [] => isFalse nofun

end

instance : DecidableEq Json := decideEq

/-! ### Looking into values -/

def member? (key : String) : Json → Option Json
  | .object members => memberOf? key members
  | _ => none

def element? (position : Nat) : Json → Option Json
  | .array elements => elements[position]?
  | _ => none

def children : Json → List Json
  | .scalar _ => []
  | .array elements => elements
  | .object members => members.map Prod.snd

def scalar? : Json → Option Scalar
  | .scalar value => some value
  | _ => none

def string? : Json → Option String
  | .scalar (.string value) => some value
  | _ => none

def stringMember? (key : String) (value : Json) : Option String :=
  (value.member? key).bind string?

mutual

def size : Json → Nat
  | .scalar _ => 1
  | .array elements => sizeOfElements elements + 1
  | .object members => sizeOfMembers members + 1

def sizeOfElements : List Json → Nat
  | [] => 0
  | element :: rest => size element + sizeOfElements rest

def sizeOfMembers : List (String × Json) → Nat
  | [] => 0
  | (_, value) :: rest => size value + sizeOfMembers rest

end

end Json

end TemplateFill
