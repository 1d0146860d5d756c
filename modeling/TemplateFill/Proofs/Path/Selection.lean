import TemplateFill.Path.Selection

/-!
Selecting in two views at once.

A map between the nodes of two views that keeps members, elements, children, scalars and descents
also keeps what every path selects, in order and with repetitions. The proof follows the syntax:
one statement for lists of segments, segments, selectors, filters and operands.
-/

namespace TemplateFill

namespace View

variable {ν μ : Type}

/-! ### Segments in a row -/

@[simp] theorem select_nil (view : View ν) (root : ν) (segments : List Segment) :
    view.select root segments [] = [] := by
  cases segments with
  | nil => rfl
  | cons segment later => rfl

/-- Stopping at an empty list changes nothing. -/
theorem select_cons (view : View ν) (root : ν) (segment : Segment) (later : List Segment)
    (nodes : List ν) :
    view.select root (segment :: later) nodes =
      view.select root later (nodes.flatMap fun node => view.step root segment node) := by
  rw [select]
  cases nodes.flatMap fun node => view.step root segment node with
  | nil => rw [select_nil]
  | cons next others => rfl

theorem select_append (view : View ν) (root : ν) (first later : List Segment) (nodes : List ν) :
    view.select root (first ++ later) nodes =
      view.select root later (view.select root first nodes) := by
  induction first generalizing nodes with
  | nil => rfl
  | cons segment rest ih => rw [List.cons_append, select_cons, select_cons, ih]

/-! ### Descents -/

/-- The walk lists the pending nodes and all below them, and stops when its steps are used up. -/
theorem walk_eq_take (view : View ν) (enumerate : ν → List ν)
    (unfolds : ∀ node, enumerate node = node :: (view.children node).flatMap enumerate) :
    ∀ (steps : Nat) (pending : List ν),
      view.walk steps pending = (pending.flatMap enumerate).take steps := by
  intro steps
  induction steps with
  | zero => intro pending; rw [walk, List.take_zero]
  | succ steps ih =>
      intro pending
      cases pending with
      | nil => rfl
      | cons node rest =>
          rw [walk, ih, List.flatMap_cons, unfolds node, List.cons_append, List.take_succ_cons,
            List.flatMap_append]

theorem walk_map (view : View ν) (other : View μ) (change : ν → μ) (within : ν → Prop)
    (children : ∀ node, within node →
      other.children (change node) = (view.children node).map change)
    (closed : ∀ node, within node → ∀ child ∈ view.children node, within child) :
    ∀ (steps : Nat) (pending : List ν), (∀ node ∈ pending, within node) →
      other.walk steps (pending.map change) = (view.walk steps pending).map change ∧
        ∀ node ∈ view.walk steps pending, within node := by
  intro steps
  induction steps with
  | zero => exact fun pending _ => ⟨rfl, nofun⟩
  | succ steps ih =>
      intro pending inside
      cases pending with
      | nil => exact ⟨rfl, nofun⟩
      | cons node rest =>
          have here := inside node (List.mem_cons_self ..)
          have further : ∀ next ∈ view.children node ++ rest, within next := by
            intro next present
            rcases List.mem_append.mp present with child | later
            · exact closed node here next child
            · exact inside next (List.mem_cons_of_mem _ later)
          obtain ⟨mapped, kept⟩ := ih (view.children node ++ rest) further
          constructor
          · rw [List.map_cons, walk, walk, children node here, ← List.map_append, mapped,
              List.map_cons]
          · intro next present
            rw [walk] at present
            rcases List.mem_cons.mp present with rfl | later
            · exact here
            · exact kept next later

/-! ### Maps between views -/

/-- The map keeps what selecting looks at, on nodes of a kind that is closed downwards. -/
structure Carries (view : View ν) (other : View μ) (change : ν → μ) (within : ν → Prop) :
    Prop where
  member? : ∀ node, within node → ∀ key,
    other.member? key (change node) = (view.member? key node).map change
  element? : ∀ node, within node → ∀ position,
    other.element? position (change node) = (view.element? position node).map change
  children : ∀ node, within node →
    other.children (change node) = (view.children node).map change
  scalar? : ∀ node, within node → other.scalar? (change node) = view.scalar? node
  descendants : ∀ node, within node →
    other.descendants (change node) = (view.descendants node).map change
  memberWithin : ∀ node, within node → ∀ key found, view.member? key node = some found →
    within found
  elementWithin : ∀ node, within node → ∀ position found,
    view.element? position node = some found → within found
  childWithin : ∀ node, within node → ∀ child ∈ view.children node, within child
  descendantWithin : ∀ node, within node → ∀ below ∈ view.descendants node, within below

variable {view : View ν} {other : View μ} {change : ν → μ} {within : ν → Prop} {root : ν}

private theorem flatMap_carried (nodes : List ν) (inside : ∀ node ∈ nodes, within node)
    (onNode : ν → List ν) (onImage : μ → List μ)
    (each : ∀ node, within node →
      onImage (change node) = (onNode node).map change ∧ ∀ next ∈ onNode node, within next) :
    (nodes.map change).flatMap onImage = (nodes.flatMap onNode).map change ∧
      ∀ next ∈ nodes.flatMap onNode, within next := by
  induction nodes with
  | nil => exact ⟨rfl, nofun⟩
  | cons node rest ih =>
      obtain ⟨mapped, kept⟩ := ih fun next later => inside next (List.mem_cons_of_mem _ later)
      obtain ⟨here, hereKept⟩ := each node (inside node (List.mem_cons_self ..))
      constructor
      · rw [List.map_cons, List.flatMap_cons, List.flatMap_cons, here, mapped, List.map_append]
      · intro next present
        rw [List.flatMap_cons] at present
        rcases List.mem_append.mp present with first | later
        · exact hereKept next first
        · exact kept next later

private theorem of_singleton {node : ν} (inside : within node) :
    ∀ next ∈ [node], within next := by
  intro next single
  rwa [List.mem_singleton.mp single]

private theorem resolveFirst_map (carries : Carries view other change within) (nodes : List ν)
    (inside : ∀ node ∈ nodes, within node) :
    other.resolveFirst (nodes.map change) = view.resolveFirst nodes := by
  cases nodes with
  | nil => rfl
  | cons node rest =>
      rw [List.map_cons, resolveFirst, resolveFirst,
        carries.scalar? node (inside node (List.mem_cons_self ..))]

mutual

theorem select_map (carries : Carries view other change within) (top : within root) :
    ∀ (segments : List Segment) (nodes : List ν), (∀ node ∈ nodes, within node) →
      other.select (change root) segments (nodes.map change) =
          (view.select root segments nodes).map change ∧
        ∀ node ∈ view.select root segments nodes, within node
  | [], nodes, inside => ⟨rfl, inside⟩
  | segment :: later, nodes, inside => by
      obtain ⟨mapped, kept⟩ := flatMap_carried nodes inside (view.step root segment)
        (other.step (change root) segment) (step_map carries top segment)
      rw [select_cons, select_cons, mapped]
      exact select_map carries top later _ kept

theorem step_map (carries : Carries view other change within) (top : within root) :
    ∀ (segment : Segment) (node : ν), within node →
      other.step (change root) segment (change node) =
          (view.step root segment node).map change ∧
        ∀ next ∈ view.step root segment node, within next
  | .child selector, node, inside => by
      rw [step, step]
      exact pick_map carries top selector node inside
  | .descendant selector, node, inside => by
      rw [step, step, carries.descendants node inside]
      exact flatMap_carried (view.descendants node) (carries.descendantWithin node inside)
        (view.pick root selector) (other.pick (change root) selector)
        (pick_map carries top selector)

theorem pick_map (carries : Carries view other change within) (top : within root) :
    ∀ (selector : Selector) (node : ν), within node →
      other.pick (change root) selector (change node) =
          (view.pick root selector node).map change ∧
        ∀ next ∈ view.pick root selector node, within next
  | .name name, node, inside => by
      rw [pick, pick, carries.member? node inside name]
      cases found : view.member? name node with
      | none => exact ⟨rfl, nofun⟩
      | some member =>
          refine ⟨rfl, fun next present => ?_⟩
          rw [Option.toList_some, List.mem_singleton] at present
          subst present
          exact carries.memberWithin node inside name next found
  | .index position, node, inside => by
      rw [pick, pick, carries.element? node inside position]
      cases found : view.element? position node with
      | none => exact ⟨rfl, nofun⟩
      | some element =>
          refine ⟨rfl, fun next present => ?_⟩
          rw [Option.toList_some, List.mem_singleton] at present
          subst present
          exact carries.elementWithin node inside position next found
  | .wildcard, node, inside => by
      rw [pick, pick]
      exact ⟨carries.children node inside, carries.childWithin node inside⟩
  | .filter condition, node, inside => by
      rw [pick, pick, carries.children node inside]
      have same : ∀ candidate ∈ view.children node,
          (other.satisfies (change root) condition ∘ change) candidate =
            view.satisfies root condition candidate := fun candidate present =>
        satisfies_map carries top condition candidate
          (carries.childWithin node inside candidate present)
      constructor
      · exact (List.filter_map ..).trans (congrArg _ (List.filter_congr same))
      · exact fun next present =>
          carries.childWithin node inside next ((List.mem_filter.mp present).1)

theorem satisfies_map (carries : Carries view other change within) (top : within root) :
    ∀ (condition : Filter) (candidate : ν), within candidate →
      other.satisfies (change root) condition (change candidate) =
        view.satisfies root condition candidate
  | .or left right, candidate, inside => by
      rw [satisfies, satisfies, satisfies_map carries top left candidate inside,
        satisfies_map carries top right candidate inside]
  | .and left right, candidate, inside => by
      rw [satisfies, satisfies, satisfies_map carries top left candidate inside,
        satisfies_map carries top right candidate inside]
  | .not condition, candidate, inside => by
      rw [satisfies, satisfies, satisfies_map carries top condition candidate inside]
  | .compare left comparison right, candidate, inside => by
      rw [satisfies, satisfies, resolve_map carries top left candidate inside,
        resolve_map carries top right candidate inside]
  | .holds operand, candidate, inside => by
      rw [satisfies, satisfies, present_map carries top operand candidate inside]

theorem present_map (carries : Carries view other change within) (top : within root) :
    ∀ (operand : Operand) (candidate : ν), within candidate →
      other.present (change root) operand (change candidate) =
        view.present root operand candidate
  | .literal value, candidate, inside => by rw [present, present]
  | .candidate segments, candidate, inside => by
      have selected := (select_map carries top segments [candidate] (of_singleton inside)).1
      rw [List.map_singleton] at selected
      rw [present, present, selected, List.isEmpty_map]
  | .root segments, candidate, inside => by
      have selected := (select_map carries top segments [root] (of_singleton top)).1
      rw [List.map_singleton] at selected
      rw [present, present, selected, List.isEmpty_map]

theorem resolve_map (carries : Carries view other change within) (top : within root) :
    ∀ (operand : Operand) (candidate : ν), within candidate →
      other.resolve (change root) operand (change candidate) =
        view.resolve root operand candidate
  | .literal value, candidate, inside => by rw [resolve, resolve]
  | .candidate segments, candidate, inside => by
      obtain ⟨selected, kept⟩ := select_map carries top segments [candidate] (of_singleton inside)
      rw [List.map_singleton] at selected
      rw [resolve, resolve, selected, resolveFirst_map carries _ kept]
  | .root segments, candidate, inside => by
      obtain ⟨selected, kept⟩ := select_map carries top segments [root] (of_singleton top)
      rw [List.map_singleton] at selected
      rw [resolve, resolve, selected, resolveFirst_map carries _ kept]

end

theorem Carries.select_root (carries : Carries view other change within) (top : within root)
    (segments : List Segment) :
    other.select (change root) segments [change root] =
        (view.select root segments [root]).map change ∧
      ∀ node ∈ view.select root segments [root], within node :=
  select_map carries top segments [root] (of_singleton top)

end View

end TemplateFill
