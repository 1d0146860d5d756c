import TemplateFill.Batch.Identifier
import TemplateFill.Proofs.Batch.Turns
import TemplateFill.Proofs.Text.Numbers
import Mathlib.Data.List.Nodup
import Mathlib.Data.List.Range

/-!
Identifiers drawn from several sources with the same stem, by requests that take turns.

A source counts its own drawings, so two identifiers of one source differ in their numbers, whatever
the clock says. Between sources nothing but the clock tells them apart: each of them counts from
zero, and their identifiers meet if they draw the same number within one second.
-/

namespace TemplateFill

namespace IdSource

/-- An identifier tells the second in which it was drawn and its number. -/
theorem identifier_eq_iff {stem : String} {moment other : Moment} {number count : UInt64} :
    identifier stem moment number = identifier stem other count ↔
      moment.basic = other.basic ∧ number = count := by
  have characters (moment : Moment) (number : UInt64) :
      (identifier stem moment number).toList =
        (stem.toList ++ moment.basic.toList) ++ '-' :: Nat.toDigits 10 number.toNat := by
    simp [identifier, String.toList_append, Nat.toList_repr]
  constructor
  · intro same
    have lists := congrArg String.toList same
    rw [characters, characters] at lists
    obtain ⟨texts, numbers⟩ := Text.numbered_inj (by decide) lists
    exact ⟨String.toList_inj.mp (List.append_cancel_left texts), UInt64.toNat_inj.mp numbers⟩
  · rintro ⟨texts, rfl⟩
    rw [identifier, identifier, texts]

end IdSource

/-! ### Turns of requests -/

structure IdRequest where
  source : Nat
  count : Nat
  drawn : List String := []

structure Drawing where
  source : Nat
  moment : Moment
  number : UInt64

def Drawing.identifier (stem : String) (drawing : Drawing) : String :=
  IdSource.identifier stem drawing.moment drawing.number

/-- Sources, the requests that draw from them, and a log of the drawings. -/
structure IdDesk where
  sources : List IdSource
  requests : List IdRequest
  drawings : List Drawing := []

namespace IdDesk

def start (stem : String) (sources : Nat) (requests : List (Nat × Nat)) : IdDesk :=
  { sources := List.replicate sources { stem }
    requests := requests.map fun request => { source := request.1, count := request.2 } }

def give (desk : IdDesk) (position : Nat) (request : IdRequest) (source : IdSource)
    (moment : Moment) : IdDesk :=
  let (drawn, after) := source.draw [moment]
  { sources := desk.sources.set request.source after
    requests := desk.requests.set position { request with drawn := request.drawn ++ drawn }
    drawings := desk.drawings ++ [{ source := request.source, moment, number := source.next }] }

/-- The request at a position draws one identifier at a moment, unless it has all of them. The
number is taken in one step, and the moment can be any, so a turn stands for a drawing during which
others draw, too. -/
def turn (desk : IdDesk) (position : Nat) (moment : Moment) : IdDesk :=
  match desk.requests[position]? with
  | none => desk
  | some request =>
      match desk.sources[request.source]? with
      | none => desk
      | some source =>
          if request.drawn.length < request.count then desk.give position request source moment
          else desk

def run (desk : IdDesk) (turns : List (Nat × Moment)) : IdDesk :=
  turns.foldl (fun desk turn => desk.turn turn.1 turn.2) desk

def identifiers (desk : IdDesk) (chosen : Nat → Bool) : List String :=
  desk.requests.flatMap fun request => if chosen request.source then request.drawn else []

end IdDesk

namespace Drawing

def numbers (drawings : List Drawing) (source : Nat) : List UInt64 :=
  (drawings.filter (·.source == source)).map number

/-- Two drawings from different sources that got the same number within one second. -/
structure Meets (left right : Drawing) : Prop where
  different : left.source ≠ right.source
  number : left.number = right.number
  second : left.moment.basic = right.moment.basic

instance (left right : Drawing) : Decidable (left.Meets right) :=
  decidable_of_iff (left.source ≠ right.source ∧ left.number = right.number ∧
      left.moment.basic = right.moment.basic)
    ⟨fun ⟨different, number, second⟩ => ⟨different, number, second⟩,
      fun ⟨different, number, second⟩ => ⟨different, number, second⟩⟩

variable {stem : String} {drawings : List Drawing}

/-- If no source repeats a number, then the identifiers differ unless drawings meet. -/
theorem nodup_identifiers_iff (each : ∀ source, (numbers drawings source).Nodup) :
    (drawings.map (identifier stem)).Nodup ↔
      ∀ left ∈ drawings, ∀ right ∈ drawings, ¬left.Meets right := by
  constructor
  · intro distinct left inside right insideToo meets
    have same : left.identifier stem = right.identifier stem :=
      IdSource.identifier_eq_iff.mpr ⟨meets.second, meets.number⟩
    have equal := List.inj_on_of_nodup_map distinct inside insideToo same
    exact meets.different (congrArg source equal)
  · intro apart
    refine List.pairwise_map.mpr (List.pairwise_iff_forall_sublist.mpr fun {left right} both => ?_)
    intro same
    obtain ⟨second, number⟩ := IdSource.identifier_eq_iff.mp same
    by_cases source : left.source = right.source
    · have kept : [left, right] = [left, right].filter (·.source == left.source) := by
        simp [source]
      have listed : [left.number, right.number].Sublist (numbers drawings left.source) := by
        have filtered := both.filter (·.source == left.source)
        rw [← kept] at filtered
        exact filtered.map Drawing.number
      exact (List.pairwise_iff_forall_sublist.mp (each left.source) listed) number
    · exact apart left (both.subset (List.mem_cons_self ..)) right
        (both.subset (List.mem_cons_of_mem _ (List.mem_singleton_self _)))
        ⟨source, number, second⟩

theorem numbers_append_singleton (drawings : List Drawing) (drawing : Drawing) (source : Nat) :
    numbers (drawings ++ [drawing]) source =
      if drawing.source = source then numbers drawings source ++ [drawing.number]
      else numbers drawings source := by
  rw [numbers, List.filter_append, List.map_append]
  by_cases same : drawing.source = source <;> simp [numbers, same]

end Drawing

namespace IdDesk

variable {stem : String} {sources : Nat} {requests : List (Nat × Nat)}
  {turns : List (Nat × Moment)} {desk : IdDesk}

/-- A turn draws one identifier, or it changes nothing since the request is missing, has no source
or has all that it asked for. -/
theorem turn_cases (desk : IdDesk) (position : Nat) (moment : Moment) :
    (desk.turn position moment = desk ∧ ∀ request source,
      desk.requests[position]? = some request → desk.sources[request.source]? = some source →
        request.count ≤ request.drawn.length) ∨
    ∃ request source, desk.requests[position]? = some request ∧
      desk.sources[request.source]? = some source ∧ request.drawn.length < request.count ∧
      desk.turn position moment = desk.give position request source moment := by
  rw [turn]
  cases found : desk.requests[position]? with
  | none => exact Or.inl ⟨rfl, nofun⟩
  | some request =>
      cases stands : desk.sources[request.source]? with
      | none =>
          refine Or.inl ⟨by simp only [stands], fun other source same missing => ?_⟩
          obtain rfl := Option.some.inj same
          rw [stands] at missing
          cases missing
      | some source =>
          by_cases room : request.drawn.length < request.count
          · exact Or.inr ⟨request, source, rfl, stands, room, by simp only [stands, if_pos room]⟩
          · refine Or.inl ⟨by simp only [stands, if_neg room], fun other source same _ => ?_⟩
            obtain rfl := Option.some.inj same
            exact Nat.le_of_not_lt room

/-- Turns that one request takes in a row draw from its source one after the other. -/
theorem run_row {position : Nat} {request : IdRequest} {source : IdSource} {moments : List Moment}
    (found : desk.requests[position]? = some request)
    (stands : desk.sources[request.source]? = some source)
    (room : request.drawn.length + moments.length ≤ request.count) :
    let after := desk.run (moments.map fun moment => (position, moment))
    after.requests[position]? =
        some { request with drawn := request.drawn ++ (source.draw moments).1 } ∧
      after.sources[request.source]? = some (source.draw moments).2 := by
  induction moments generalizing desk request source with
  | nil => exact ⟨by rw [IdSource.draw, List.append_nil]; exact found, stands⟩
  | cons moment moments ih =>
      rw [List.length_cons] at room
      have drew : desk.turn position moment = desk.give position request source moment := by
        simp only [turn, found, stands, if_pos (show request.drawn.length < request.count by omega)]
      have foundThere : (desk.give position request source moment).requests[position]? =
          some { request with drawn := request.drawn ++ (source.draw [moment]).1 } :=
        List.getElem?_set_self (List.getElem?_eq_some_iff.mp found).1
      have standsThere : (desk.give position request source moment).sources[request.source]? =
          some (source.draw [moment]).2 :=
        List.getElem?_set_self (List.getElem?_eq_some_iff.mp stands).1
      have later := ih foundThere standsThere (by simp [IdSource.draw]; omega)
      rw [List.map_cons, run, List.foldl_cons, drew]
      simpa [IdSource.draw, run] using later

theorem identifiers_give {position : Nat} {request : IdRequest} {source : IdSource}
    {moment : Moment} (found : desk.requests[position]? = some request) (chosen : Nat → Bool) :
    ((desk.give position request source moment).identifiers chosen).Perm
      (desk.identifiers chosen ++ if chosen request.source then
        [IdSource.identifier source.stem moment source.next] else []) := by
  refine perm_flatMap_set found ?_
  by_cases here : chosen request.source = true
  · simp only [here, if_true]
  · simp [here]

/-- What holds of a desk after turns: each source counts its drawings from zero, each request has
what it asked for as far as it had turns, and the requests hold what was drawn. -/
structure Keeps (stem : String) (sources : Nat) (requests : List (Nat × Nat))
    (turns : List (Nat × Moment)) (desk : IdDesk) : Prop where
  sources : ∀ source < sources, desk.sources[source]? =
    some { stem, next := UInt64.ofNat (Drawing.numbers desk.drawings source).length }
  numbers : ∀ source, Drawing.numbers desk.drawings source =
    (List.range (Drawing.numbers desk.drawings source).length).map UInt64.ofNat
  requests : desk.requests.map (fun request => (request.source, request.count)) = requests
  drawn : ∀ position request, desk.requests[position]? = some request →
    request.drawn.length = min request.count (turns.countP (·.1 == position))
  identifiers : ∀ chosen : Nat → Bool, (desk.identifiers chosen).Perm
    ((desk.drawings.filter fun drawing => chosen drawing.source).map (Drawing.identifier stem))

theorem keeps_start (stem : String) (sources : Nat) (requests : List (Nat × Nat)) :
    Keeps stem sources requests [] (start stem sources requests) where
  sources := fun source inside => by
    rw [start, List.getElem?_replicate, if_pos inside]
    rfl
  numbers := fun _ => rfl
  requests := by simp [start, Function.comp_def]
  drawn := by
    intro position request found
    rw [start, List.getElem?_map] at found
    obtain ⟨asked, _, rfl⟩ := Option.map_eq_some_iff.mp found
    exact (Nat.min_zero _).symm
  identifiers := by
    intro chosen
    have none : (start stem sources requests).identifiers chosen = [] := by
      simp [identifiers, start, List.flatMap_map]
    rw [none]
    exact .nil

theorem Keeps.source_lt (keeps : Keeps stem sources requests turns desk)
    (valid : ∀ request ∈ requests, request.1 < sources) {position : Nat} {request : IdRequest}
    (found : desk.requests[position]? = some request) : request.source < sources := by
  refine valid (request.source, request.count) ?_
  rw [← keeps.requests]
  exact List.mem_map.mpr ⟨request, List.mem_of_getElem? found, rfl⟩

theorem Keeps.give (keeps : Keeps stem sources requests turns desk) {position : Nat}
    {request : IdRequest} {source : IdSource} (found : desk.requests[position]? = some request)
    (stands : desk.sources[request.source]? = some source) (inside : request.source < sources)
    (room : request.drawn.length < request.count) (moment : Moment) :
    Keeps stem sources requests (turns ++ [(position, moment)])
      (desk.give position request source moment) := by
  obtain rfl := Option.some.inj (stands.symm.trans (keeps.sources _ inside))
  constructor
  case sources =>
    intro other given
    rw [IdDesk.give, Drawing.numbers_append_singleton]
    by_cases here : request.source = other
    · subst here
      rw [List.getElem?_set_self (List.getElem?_eq_some_iff.mp stands).1, if_pos rfl,
        List.length_append, List.length_singleton, UInt64.ofNat_add]
      rfl
    · rw [List.getElem?_set_ne here, if_neg here]
      exact keeps.sources other given
  case numbers =>
    intro other
    rw [IdDesk.give, Drawing.numbers_append_singleton]
    by_cases here : request.source = other
    · subst here
      rw [if_pos rfl, List.length_append, List.length_singleton, List.range_succ, List.map_append,
        ← keeps.numbers]
      rfl
    · rw [if_neg here]
      exact keeps.numbers other
  case requests =>
    rw [← keeps.requests]
    exact map_set_of_eq found rfl
  case drawn =>
    intro other current given
    rw [List.countP_append]
    rcases getElem?_set_cases given with ⟨rfl, rfl⟩ | ⟨different, given⟩
    · have before := keeps.drawn position request found
      simp
      omega
    · rw [keeps.drawn other current given]
      simp [different]
  case identifiers =>
    intro chosen
    refine (identifiers_give found chosen).trans ?_
    rw [IdDesk.give, List.filter_append, List.map_append]
    refine (keeps.identifiers chosen).append (.of_eq ?_)
    by_cases here : chosen request.source = true
    · simp only [here, if_true, List.filter_cons_of_pos, List.filter_nil]
      rfl
    · simp [here]

theorem Keeps.turn (keeps : Keeps stem sources requests turns desk)
    (valid : ∀ request ∈ requests, request.1 < sources) (position : Nat) (moment : Moment) :
    Keeps stem sources requests (turns ++ [(position, moment)]) (desk.turn position moment) := by
  rcases turn_cases desk position moment with
    ⟨same, full⟩ | ⟨request, source, found, stands, room, changed⟩
  · rw [same]
    refine { keeps with drawn := fun other request found => ?_ }
    rw [keeps.drawn other request found, List.countP_append]
    by_cases here : position = other
    · subst here
      have all := full request _ found (keeps.sources _ (keeps.source_lt valid found))
      rw [keeps.drawn position request found] at all
      simp
      omega
    · simp [here]
  · rw [changed]
    exact keeps.give found stands (keeps.source_lt valid found) room moment

/-- Every run keeps it all, whoever takes its turns and whatever the clock reads in them. -/
theorem Keeps.run (valid : ∀ request ∈ requests, request.1 < sources)
    (later : List (Nat × Moment)) (keeps : Keeps stem sources requests turns desk) :
    Keeps stem sources requests (turns ++ later) (desk.run later) := by
  induction later generalizing turns desk with
  | nil => rwa [List.append_nil]
  | cons turn later ih =>
      rw [List.append_cons]
      exact ih (keeps.turn valid turn.1 turn.2)

/-- A source that drew at most as often as there are numbers counted from zero. -/
theorem Keeps.numbers_eq (keeps : Keeps stem sources requests turns desk)
    (few : desk.drawings.length ≤ UInt64.size) (source : Nat) :
    (Drawing.numbers desk.drawings source).map UInt64.toNat =
      List.range (Drawing.numbers desk.drawings source).length := by
  have bound : (Drawing.numbers desk.drawings source).length ≤ UInt64.size := by
    rw [Drawing.numbers, List.length_map]
    exact (List.length_filter_le ..).trans few
  conv_lhs => rw [keeps.numbers source, List.map_map]
  refine (List.map_congr_left fun number inside => ?_).trans (List.map_id _)
  exact UInt64.toNat_ofNat_of_lt ((List.mem_range.mp inside).trans_le bound)

/-- The identifiers of chosen sources differ unless drawings from these sources meet. -/
theorem Keeps.nodup_iff (keeps : Keeps stem sources requests turns desk)
    (few : desk.drawings.length ≤ UInt64.size) (chosen : Nat → Bool) :
    (desk.identifiers chosen).Nodup ↔
      ∀ left ∈ desk.drawings, ∀ right ∈ desk.drawings, chosen left.source = true →
        chosen right.source = true → ¬left.Meets right := by
  have each (source : Nat) : (Drawing.numbers
      (desk.drawings.filter fun drawing => chosen drawing.source) source).Nodup := by
    have distinct : (Drawing.numbers desk.drawings source).Nodup := by
      refine List.Nodup.of_map UInt64.toNat ?_
      rw [keeps.numbers_eq few]
      exact List.nodup_range
    exact distinct.sublist ((List.filter_sublist.filter _).map _)
  rw [(keeps.identifiers chosen).nodup_iff, Drawing.nodup_identifiers_iff each]
  simp only [List.mem_filter, and_imp]
  grind

/-- However requests take turns and whatever the clock reads, each of them gets as many identifiers
as it asked for once it had that many turns. A source counts its drawings from zero, so it never
yields an identifier twice. All identifiers differ if and only if no two sources drew the same
number in the same second. -/
theorem run_identifiers (stem : String) (sources : Nat) (requests : List (Nat × Nat))
    (turns : List (Nat × Moment)) (valid : ∀ request ∈ requests, request.1 < sources)
    (few : ((start stem sources requests).run turns).drawings.length ≤ UInt64.size) :
    let desk := (start stem sources requests).run turns
    desk.requests.map (fun request => (request.source, request.count)) = requests ∧
    (∀ position request, desk.requests[position]? = some request →
      request.drawn.length = min request.count (turns.countP (·.1 == position))) ∧
    (∀ source, (Drawing.numbers desk.drawings source).map UInt64.toNat =
      List.range (Drawing.numbers desk.drawings source).length) ∧
    (∀ source, (desk.identifiers (· == source)).Nodup) ∧
    ((desk.identifiers fun _ => true).Nodup ↔
      ∀ left ∈ desk.drawings, ∀ right ∈ desk.drawings, ¬left.Meets right) := by
  have keeps : Keeps stem sources requests turns ((start stem sources requests).run turns) :=
    Keeps.run valid turns (keeps_start stem sources requests)
  refine ⟨keeps.requests, keeps.drawn, keeps.numbers_eq few, fun source => ?_, ?_⟩
  · refine (keeps.nodup_iff few _).mpr fun left _ right _ here hereToo meets => ?_
    exact meets.different ((eq_of_beq here).trans (eq_of_beq hereToo).symm)
  · rw [keeps.nodup_iff few]
    simp only [true_imp_iff]

/-- Requests that draw in turns from two sources, from one of them while the clock goes back. -/
theorem run_identifiers_backwards :
    let late := Moment.ofEpoch 1735732801 0
    let early := Moment.ofEpoch 1735732800 0
    let desk := (start "urn:sm:" 2 [(0, 2), (1, 1), (0, 1)]).run
      [(0, late), (1, early), (2, early), (0, early)]
    desk.requests.map IdRequest.drawn =
      [["urn:sm:20250101T120001Z-0", "urn:sm:20250101T120000Z-2"], ["urn:sm:20250101T120000Z-0"],
        ["urn:sm:20250101T120000Z-1"]] ∧ (desk.identifiers fun _ => true).Nodup :=
  ⟨by decide +kernel, (run_identifiers "urn:sm:" 2 [(0, 2), (1, 1), (0, 1)] _ (by decide)
    (by decide +kernel)).2.2.2.2.mpr (by decide +kernel)⟩

/-- Two sources that draw in the same second yield the same identifier. -/
theorem sources_meet :
    let moment := Moment.ofEpoch 1735732800 0
    let desk := (start "urn:sm:" 2 [(0, 1), (1, 1)]).run [(0, moment), (1, moment)]
    desk.identifiers (fun _ => true) =
        ["urn:sm:20250101T120000Z-0", "urn:sm:20250101T120000Z-0"] ∧
      ¬(desk.identifiers fun _ => true).Nodup := by
  decide +kernel

end IdDesk

end TemplateFill
