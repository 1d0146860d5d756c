import TemplateFill.Document.Location
import TemplateFill.Proofs.Document.History
import TemplateFill.Proofs.Path.PlainPath
import TemplateFill.Proofs.Path.Selection
import TemplateFill.Proofs.Text.Occurrences

/-!
Locations lead back to their nodes.

A location is a list of steps from the root to a node. The text of a step reads as tokens of one
segment, whatever the key of a member is: a key that is written after a dot is one name for the
reader of paths, and the escapes of any other key are undone by the reader of strings. The segment
selects the child that the step was written for, provided that no earlier member has its key.
-/

namespace TemplateFill

/-! ### Escaped keys -/

namespace Text

theorem replaceAll_singleton (c : Char) (replacement text : List Char) :
    replaceAll [c] replacement text = text.flatMap fun d => if d = c then replacement else [d] := by
  unfold replaceAll
  induction text with
  | nil => rfl
  | cons d text ih =>
      rw [List.flatMap_cons, ← ih]
      by_cases same : d = c
      · subst same
        rw [if_pos rfl]
        exact replaceFrom_of_isPrefixOf text
      · rw [if_neg same, replaceFrom_of_not_isPrefixOf (by simp [List.isPrefixOf, Ne.symm same])]
        rfl

/-- Characters of keys that are ASCII are of the classes that the reader of paths looks at. -/
theorem startsName_of_isAlphabetic {c : Char} (alphabetic : isAlphabetic c = true) :
    Lexer.startsName c = true := by
  unfold isAlphabetic at alphabetic
  unfold Lexer.startsName
  split at alphabetic
  · simp [alphabetic]
  · have beyond : 0x80 ≤ c.toNat := by omega
    simp [beyond]

theorem continuesName_of_isAlphanumeric {c : Char} (alphanumeric : isAlphanumeric c = true) :
    Lexer.continuesName c = true := by
  unfold Lexer.continuesName
  by_cases beyond : 0x80 ≤ c.toNat
  · simp [beyond]
  · have ascii : c.toNat < 0x80 := by omega
    simp only [isAlphanumeric, isAlphabetic, isNumeric, if_pos ascii] at alphanumeric
    simp [Char.isAlphanum, alphanumeric]

end Text

namespace Document

theorem nameText_of_isPlainKey {key : String} (plain : isPlainKey key = true) : NameText key := by
  unfold isPlainKey at plain
  split at plain
  · cases plain
  · rename_i first rest split
    simp only [Bool.and_eq_true, List.all_eq_true, Bool.or_eq_true, beq_iff_eq] at plain
    obtain ⟨starts, others⟩ := plain
    constructor
    · refine ⟨first, rest, split, ?_⟩
      rcases starts with alphabetic | rfl
      · exact Text.startsName_of_isAlphabetic alphabetic
      · rfl
    · intro c inside
      rw [split] at inside
      rcases others c inside with (alphanumeric | rfl) | rfl
      · exact Text.continuesName_of_isAlphanumeric alphanumeric
      · rfl
      · rfl

def escape (c : Char) : List Char :=
  if c = '\\' then ['\\', '\\'] else if c = '\'' then ['\\', '\''] else [c]

theorem memberStep_of_not_isPlainKey {key : String} (quoted : isPlainKey key = false) :
    memberStep key = '[' :: '\'' :: (key.toList.flatMap escape ++ ['\'', ']']) := by
  have escapes : ∀ c : Char, ((if c = '\\' then ['\\', '\\'] else [c]).flatMap fun d =>
      if d = '\'' then ['\\', '\''] else [d]) = escape c := by
    intro c
    unfold escape
    split
    · rfl
    · simp
  unfold memberStep
  rw [quoted, if_neg Bool.false_ne_true]
  simp only [Text.replaceAll_singleton, List.flatMap_assoc, escapes]
  rfl

open Lexer in
theorem decodes_escape (chars : List Char) :
    Decodes ReadEscape '\'' (chars.flatMap escape) chars := by
  induction chars with
  | nil => exact .nil
  | cons c chars ih =>
      rw [List.flatMap_cons, escape]
      split
      · rename_i same
        subst same
        exact @Decodes.escaped _ _ ['\\'] _ _ _ (.proper (.letter (by decide))) ih
      · split
        · rename_i same
          subst same
          exact @Decodes.escaped _ _ ['\''] _ _ _ (.proper (.letter (by decide))) ih
        · rename_i noBackslash noQuote
          exact .plain noQuote noBackslash ih

open Lexer in
theorem reads_escape (key : String) (rest : List Char) :
    Reads (.string key) ('\'' :: (key.toList.flatMap escape ++ '\'' :: rest)) rest := by
  have writes := Writes.string (Or.inl rfl) (decodes_escape key.toList)
  have reads := Reads.of_writes writes (endsBefore_string _ _ rest)
  rwa [String.ofList_toList, List.cons_append, List.append_assoc, List.singleton_append] at reads

/-! ### Steps of locations -/

inductive Hop where
  | member (key : String)
  | element (position : Nat)

namespace Hop

def text : Hop → List Char
  | member key => memberStep key
  | element position => elementStep position

def tokens : Hop → List Token
  | member key =>
      if isPlainKey key then [.dot, .ofWord key] else [.leftBracket, .string key, .rightBracket]
  | element position => [.leftBracket, .integer position, .rightBracket]

def segment : Hop → Segment
  | member key => .child (.name key)
  | element position => .child (.index position)

/-- A position fits if it is at most the greatest integer literal. -/
def Fits : Hop → Prop
  | member _ => True
  | element position => (position : Int) ≤ Lexer.greatestInteger

theorem isSegment (hop : Hop) : Grammar.IsSegment hop.tokens hop.segment := by
  cases hop with
  | member key =>
      rw [tokens]
      split
      · exact .child (Grammar.isDotted_ofWord key)
      · exact .bracketChild (.name key)
  | element position => exact .bracketChild (.index position)

theorem areSegments (hops : List Hop) :
    Grammar.AreSegments (hops.flatMap tokens) (hops.map segment) := by
  induction hops with
  | nil => exact .nil
  | cons hop later ih => exact .cons hop.isSegment ih

theorem startsStep (hops : List Hop) : StartsStep (hops.flatMap text) := by
  cases hops with
  | nil => trivial
  | cons hop later =>
      cases hop with
      | member key =>
          rw [List.flatMap_cons, text]
          cases plain : isPlainKey key with
          | true =>
              rw [memberStep, if_pos plain]
              exact Or.inl rfl
          | false =>
              rw [memberStep_of_not_isPlainKey plain]
              exact Or.inr (Or.inl rfl)
      | element position => exact Or.inr (Or.inl rfl)

theorem scans {hop : Hop} (fits : hop.Fits) {later : List Token} {rest : List Char}
    (apart : StartsStep rest) (behind : Scans later rest) :
    Scans (hop.tokens ++ later) (hop.text ++ rest) := by
  cases hop with
  | member key =>
      cases plain : isPlainKey key with
      | true =>
          have named := nameText_of_isPlainKey plain
          rw [tokens, text, memberStep, if_pos plain, if_pos plain]
          refine .next (reads_dot ?_) (.next (named.reads apart) behind)
          obtain ⟨⟨first, others, split, starts⟩, -⟩ := named
          rintro more same
          rw [split] at same
          cases same
          exact absurd starts (by decide)
      | false =>
          rw [tokens, text, memberStep_of_not_isPlainKey plain, plain, if_neg Bool.false_ne_true]
          simp only [List.cons_append, List.append_assoc, List.nil_append]
          refine .next (reads_mark _ (by decide) fun _ => rfl) (.next (reads_escape key _) ?_)
          exact .next (reads_mark _ (by decide) fun _ => rfl) behind
  | element position =>
      have plain : (Step.entry position).Plain := fits
      exact Step.scans plain apart behind

theorem scans_all {hops : List Hop} (fits : ∀ hop ∈ hops, hop.Fits) :
    Scans (hops.flatMap tokens) (hops.flatMap text) := by
  induction hops with
  | nil => exact .done
  | cons hop later ih =>
      apply Hop.scans (fits hop (List.mem_cons_self ..)) (startsStep later)
      exact ih fun other inside => fits other (List.mem_cons_of_mem _ inside)

/-- Reading the text of steps from the root gives back their segments. -/
theorem parse {hops : List Hop} (fits : ∀ hop ∈ hops, hop.Fits) :
    Segment.parse (String.ofList ('$' :: hops.flatMap text)) = .ok (hops.map segment) := by
  have scans : Scans (.dollar :: hops.flatMap tokens)
      (String.ofList ('$' :: hops.flatMap text)).toList := by
    rw [String.toList_ofList]
    exact .next (reads_mark _ (by decide) fun _ => rfl) (scans_all fits)
  exact scans.parse (.root (areSegments hops))

end Hop

/-! ### Climbing -/

variable {document : Document}

/-- The position of each element, on the way up from a node, is an integer literal. -/
def PositionsFit (document : Document) (node : NodeId) : Prop :=
  ∀ levels element array, document.ancestor? node levels = some element →
    document.parent? element = some array →
      ((document.elements array).idxOf element : Int) ≤ Lexer.greatestInteger

theorem PositionsFit.parent {node parent : NodeId} (fits : document.PositionsFit node)
    (link : document.parent? node = some parent) : document.PositionsFit parent := by
  intro levels element array found
  refine fits (levels + 1) element array ?_
  rw [ancestor?, link]
  exact found

theorem WellFormed.length_elements_le (wellFormed : document.WellFormed) (node : NodeId) :
    (document.elements node).length ≤ document.size := by
  have listed : document.elements node ⊆ document.children node := by
    intro element inside
    rw [elements] at inside
    rw [children]
    split at inside
    · rename_i elements recorded
      rw [recorded]
      exact inside
    · cases inside
  have bounded : document.elements node ⊆ List.range document.size := fun element inside =>
    List.mem_range.mpr (wellFormed.child (listed inside)).2.1
  have apart : (document.elements node).Nodup := by
    have distinct := wellFormed.distinct node
    rw [children] at distinct
    rw [elements]
    split
    · rename_i elements recorded
      rwa [recorded] at distinct
    · exact List.nodup_nil
  have atMost := (apart.subperm bounded).length_le
  rwa [List.length_range] at atMost

theorem WellFormed.positionsFit (wellFormed : document.WellFormed)
    (small : (document.size : Int) ≤ Lexer.greatestInteger) (node : NodeId) :
    document.PositionsFit node := by
  intro levels element array _ _
  have short := wellFormed.length_elements_le array
  have within := List.idxOf_le_length (a := element) (l := document.elements array)
  omega

/-- The step to a child is there, and its segment selects that child alone. -/
theorem exists_hop (wellFormed : document.WellFormed) {node parent : NodeId}
    (link : document.parent? node = some parent) (keys : (document.content parent).KeysDistinct) :
    ∃ hop : Hop,
      (((document.elements parent).idxOf node : Int) ≤ Lexer.greatestInteger → hop.Fits) ∧
      stepTo? node (document.content parent) = some hop.text ∧
      document.view.select root [hop.segment] [parent] = [node] := by
  have listed := wellFormed.listed link
  rw [children] at listed
  cases recorded : document.content parent with
  | scalar value =>
      rw [recorded] at listed
      cases listed
  | array elements =>
      rw [recorded] at listed
      have inside : node ∈ elements := listed
      have same : document.elements parent = elements := by rw [Document.elements, recorded]
      have position : elements.findIdx? (· == node) = some (elements.idxOf node) :=
        List.findIdx?_eq_some_of_exists ⟨node, inside, beq_self_eq_true node⟩
      have there : elements[elements.idxOf node]? = some node := List.getElem?_idxOf inside
      refine ⟨.element (elements.idxOf node), fun bounded => ?_, ?_, ?_⟩
      · rwa [same] at bounded
      · rw [stepTo?, position]
        rfl
      · have picked : document.view.element? (elements.idxOf node) parent = some node := by
          rw [← there, ← same]
          rfl
        rw [Hop.segment, View.select_cons, List.flatMap_singleton, View.step, View.pick, picked]
        rfl
  | object members =>
      rw [recorded] at listed keys
      obtain ⟨⟨key, member⟩, inside, rfl⟩ := List.mem_map.mp listed
      cases found : members.find? (·.2 == member) with
      | none =>
          rw [List.find?_eq_none] at found
          exact absurd (beq_self_eq_true member) (found _ inside)
      | some other =>
          have first := List.mem_of_find?_eq_some found
          have equal : other.2 = member := by simpa using List.find?_some found
          refine ⟨.member other.1, fun _ => trivial, by rw [stepTo?, found]; rfl, ?_⟩
          have picked : document.view.member? other.1 parent = some member := by
            rw [← equal]
            show document.member? other.1 parent = some other.2
            rw [Document.member?, recorded]
            exact memberOf?_of_mem keys first
          rw [Hop.segment, View.select_cons, List.flatMap_singleton, View.step, View.pick, picked]
          rfl

/-- Climbing from an attached node writes steps that lead back to it, provided that no object above it
has a key twice. -/
theorem exists_hops (wellFormed : document.WellFormed) :
    ∀ (levels : Nat) (node : NodeId), document.topOf? node levels = some root →
      (∀ upwards above, document.ancestor? node upwards = some above →
        (document.content above).KeysDistinct) →
      ∃ hops : List Hop, (document.PositionsFit node → ∀ hop ∈ hops, hop.Fits) ∧
        (∀ behind, document.locationBefore? levels node behind =
          some ('$' :: hops.flatMap Hop.text ++ behind)) ∧
        document.view.select root (hops.map Hop.segment) [root] = [node] := by
  intro levels
  -- the text is written from its end, so what stands behind varies along the climb
  induction levels with
  | zero =>
      intro node top
      cases top
  | succ levels ih =>
      intro node top keys
      rw [topOf?] at top
      cases link : document.parent? node with
      | none =>
          rw [link] at top
          cases top
          refine ⟨[], fun _ => List.forall_mem_nil _, fun behind => ?_, rfl⟩
          rw [locationBefore?, link, if_pos rfl]
          rfl
      | some parent =>
          rw [link] at top
          have further : ∀ upwards above, document.ancestor? parent upwards = some above →
              (document.content above).KeysDistinct := by
            intro upwards above found
            apply keys (upwards + 1) above
            rw [ancestor?, link]
            exact found
          obtain ⟨hops, each, climbed, leads⟩ := ih parent top further
          obtain ⟨hop, fit, step, last⟩ := exists_hop wellFormed link (further 0 parent rfl)
          refine ⟨hops ++ [hop], fun fits => ?_, fun behind => ?_, ?_⟩
          · intro other inside
            rcases List.mem_append.mp inside with earlier | here
            · exact each (fits.parent link) other earlier
            · rw [List.mem_singleton.mp here]
              exact fit (fits 0 node parent rfl link)
          · rw [locationBefore?, link]
            dsimp only
            rw [step]
            dsimp only
            rw [climbed, List.flatMap_append, List.flatMap_singleton]
            simp only [List.cons_append, List.append_assoc]
          · rw [List.map_append, View.select_append, leads]
            exact last

theorem locationBefore?_of_topOf? (wellFormed : document.WellFormed)
    (distinct : document.KeysDistinct) (levels : Nat) (node : NodeId)
    (top : document.topOf? node levels = some root) (fits : document.PositionsFit node) :
    ∃ hops : List Hop, (∀ hop ∈ hops, hop.Fits) ∧
      (∀ behind, document.locationBefore? levels node behind =
        some ('$' :: hops.flatMap Hop.text ++ behind)) ∧
      document.view.select root (hops.map Hop.segment) [root] = [node] := by
  obtain ⟨hops, each, climbed, leads⟩ :=
    exists_hops wellFormed levels node top fun _ above _ => distinct above
  exact ⟨hops, each fits, climbed, leads⟩

/-- An attached node has a location. It is read as a path that selects that node alone. -/
theorem exists_location (wellFormed : document.WellFormed) {node : NodeId}
    (attached : document.isAttached node = true)
    (keys : ∀ levels above, document.ancestor? node levels = some above →
      (document.content above).KeysDistinct) :
    ∃ path, document.location? node = some path ∧ (document.PositionsFit node →
      ∃ query, Query.parse path = .ok query ∧ query.select document.view root = [node]) := by
  rw [isAttached, beq_iff_eq] at attached
  obtain ⟨hops, each, climbed, leads⟩ := exists_hops wellFormed _ node attached keys
  let path := String.ofList ('$' :: hops.flatMap Hop.text)
  refine ⟨path, ?_, fun fits => ⟨⟨path, hops.map Hop.segment⟩, ?_, leads⟩⟩
  · rw [location?, climbed, List.append_nil, Option.map_some]
  · rw [Query.parse, Hop.parse (each fits)]

theorem locationBefore?_of_topOf?_ne :
    ∀ (levels : Nat) (node : NodeId) (behind : List Char),
      document.topOf? node levels ≠ some root →
        document.locationBefore? levels node behind = none := by
  intro levels
  induction levels with
  | zero => exact fun node behind _ => rfl
  | succ levels ih =>
      intro node behind other
      rw [topOf?] at other
      rw [locationBefore?]
      cases link : document.parent? node with
      | none =>
          rw [link] at other
          exact if_neg fun same => other (congrArg some same)
      | some parent =>
          rw [link] at other
          dsimp only
          cases stepTo? node (document.content parent) with
          | none => rfl
          | some step => exact ih parent (step ++ behind) other

/-- The location of an attached node is read as a path that selects that node alone. A detached node
has no location. -/
theorem location?_run (value : Json) (edits : List Edit) (distinct : value.KeysDistinct)
    (allowed : (ofJson value).AllowsAll edits) (node : NodeId) :
    let document := (ofJson value).run edits
    (document.isAttached node = true → document.PositionsFit node →
      ∃ path query, document.location? node = some path ∧ Query.parse path = .ok query ∧
        query.select document.view root = [node]) ∧
    (document.isAttached node = false → document.location? node = none) := by
  intro document
  obtain ⟨reachable, keys⟩ := reachable_run (.ofJson value) (keysDistinct_ofJson distinct) allowed
  constructor
  · intro attached fits
    rw [isAttached, beq_iff_eq] at attached
    obtain ⟨hops, each, climbed, leads⟩ :=
      locationBefore?_of_topOf? reachable.wellFormed keys _ node attached fits
    let path := String.ofList ('$' :: hops.flatMap Hop.text)
    refine ⟨path, ⟨path, hops.map Hop.segment⟩, ?_, ?_, leads⟩
    · rw [location?, climbed, List.append_nil, Option.map_some]
    · rw [Query.parse, Hop.parse each]
  · intro detached
    rw [isAttached, beq_eq_false_iff_ne] at detached
    rw [location?, locationBefore?_of_topOf?_ne _ _ _ detached, Option.map_none]

/-- An element behind a removed one, below a member whose key needs quotes. -/
theorem location?_run_quoted :
    let value : Json := .object [("it's", .array [.null, .object [("true", .integer 1)]])]
    let edits : List Edit := [.removeNode 2]
    let document := (ofJson value).run edits
    value.KeysDistinct ∧ (ofJson value).AllowsAll edits ∧ document.isAttached 4 = true ∧
      document.PositionsFit 4 ∧ document.isAttached 2 = false ∧
      (∃ path query, document.location? 4 = some path ∧ Query.parse path = .ok query ∧
        query.select document.view root = [4]) ∧
      document.location? 2 = none := by
  intro value edits document
  have distinct : value.KeysDistinct := by
    refine .object (by decide) fun member inside => ?_
    cases List.mem_singleton.mp inside
    refine .array fun element inside => ?_
    rcases List.mem_cons.mp inside with rfl | last
    · exact .scalar _
    · cases List.mem_singleton.mp last
      refine .object (by decide) fun member inside => ?_
      cases List.mem_singleton.mp inside
      exact .scalar _
  have allowed : (ofJson value).AllowsAll edits := by
    simp only [edits, AllowsAll, Allows, and_true]
    decide
  have attached : document.isAttached 4 = true := by decide
  have detached : document.isAttached 2 = false := by decide
  have fits : document.PositionsFit 4 := by
    have run := reachable_run (.ofJson value) (keysDistinct_ofJson distinct) allowed
    exact run.1.wellFormed.positionsFit (by decide) 4
  exact ⟨distinct, allowed, attached, fits, detached,
    (location?_run value edits distinct allowed 4).1 attached fits,
    (location?_run value edits distinct allowed 2).2 detached⟩

end Document

end TemplateFill
