import TemplateFill.Proofs.Document.Reshape
import Mathlib.Logic.Hydra

/-!
The shapes of trees, and an order on them without infinite descent.

A shape is a tree without values, keys and numbers. It gets lighter when one subtree below it is taken
away and finitely many lighter ones are put beside the place where it was, however many they are.
This is the order of the hydra game; that every descent ends is proved from the children upwards,
with multisets of children in the order that the children have.
-/

namespace TemplateFill

/-- A tree of which only the branching is left. -/
inductive Shape where
  | node (children : List Shape)

namespace Shape

theorem induction {motive : Shape → Prop}
    (step : ∀ children, (∀ child ∈ children, motive child) → motive (.node children))
    (shape : Shape) : motive shape := by
  cases shape with
  | node children => exact step children fun child _ => induction step child
termination_by shape
decreasing_by
  have smaller := List.sizeOf_lt_of_mem ‹child ∈ children›
  rename_i equal _
  subst equal
  simp only [node.sizeOf_spec]
  omega

/-- One child is replaced by finitely many lighter ones, or several such replacements are made one
after the other. -/
inductive Lighter : Shape → Shape → Prop
  | cut {removed : Shape} {added smaller larger : List Shape} (inside : removed ∈ larger)
      (balance : (smaller ++ [removed]).Perm (larger ++ added))
      (each : ∀ shape ∈ added, Lighter shape removed) : Lighter (node smaller) (node larger)
  | trans {first second third : Shape} (lower : Lighter first second)
      (upper : Lighter second third) : Lighter first third

/-! ### Making shapes lighter -/

/-- Taking a child away makes a shape lighter. -/
theorem lighter_drop (before after : List Shape) (child : Shape) :
    Lighter (node (before ++ after)) (node (before ++ child :: after)) := by
  refine @Lighter.cut child [] _ _ List.mem_append_cons_self ?_ nofun
  rw [List.append_nil, List.append_assoc]
  exact (List.perm_append_singleton child after).append_left before

theorem lighter_child (before after : List Shape) {lower upper : Shape}
    (lighter : Lighter lower upper) :
    Lighter (node (before ++ lower :: after)) (node (before ++ upper :: after)) := by
  refine @Lighter.cut upper [lower] _ _ List.mem_append_cons_self ?_ ?_
  · rw [List.append_assoc, List.append_assoc]
    apply List.Perm.append_left before
    rw [List.cons_append, List.cons_append]
    exact (List.Perm.cons lower (List.perm_append_singleton upper after)).trans
      ((List.Perm.swap upper lower after).trans
        (List.Perm.cons upper (List.perm_append_singleton lower after).symm))
  · intro shape inside
    rwa [List.mem_singleton.mp inside]

/-! ### Descents end -/

private theorem last_cut {lower upper : Shape} (lighter : Lighter lower upper) :
    ∃ (removed : Shape) (added smaller larger : List Shape), upper = node larger ∧
      removed ∈ larger ∧ (smaller ++ [removed]).Perm (larger ++ added) ∧
      (∀ shape ∈ added, Lighter shape removed) ∧
      (lower = node smaller ∨ Lighter lower (node smaller)) := by
  induction lighter with
  | @cut removed added smaller larger inside balance each _ =>
      exact ⟨removed, added, smaller, larger, rfl, inside, balance, each, Or.inl rfl⟩
  | trans lowerStep upperStep lowerIh upperIh =>
      obtain ⟨removed, added, smaller, larger, same, inside, balance, each, rest⟩ := upperIh
      refine ⟨removed, added, smaller, larger, same, inside, balance, each, Or.inr ?_⟩
      rcases rest with rfl | further
      · exact lowerStep
      · exact lowerStep.trans further

private def Below (lower upper : Shape) : Prop := Lighter lower upper ∧ Acc Lighter upper

theorem not_lighter_self {shape : Shape} (accessible : Acc Lighter shape) :
    ¬Lighter shape shape := by
  induction accessible with
  | intro shape _ ih => exact fun lighter => ih shape lighter lighter

private instance irrefl_below : Std.Irrefl Below :=
  ⟨fun _ below => not_lighter_self below.2 below.1⟩

private theorem acc_node {children : Multiset Shape}
    (accessible : Acc (Relation.CutExpand Below) children) :
    ∀ list : List Shape, (list : Multiset Shape) = children →
      (∀ child ∈ list, Acc Lighter child) → Acc Lighter (node list) := by
  induction accessible with
  | intro children _ ih =>
      rintro list rfl each
      refine .intro _ fun lower lighter => ?_
      obtain ⟨removed, added, smaller, larger, same, inside, balance, lower', rest⟩ :=
        last_cut lighter
      cases same
      have removedAcc := each removed inside
      have step : Relation.CutExpand Below (smaller : Multiset Shape) (list : Multiset Shape) := by
        refine ⟨(added : Multiset Shape), removed, ?_, ?_⟩
        · exact fun shape listed => ⟨lower' shape (Multiset.mem_coe.mp listed), removedAcc⟩
        · exact Multiset.coe_eq_coe.mpr balance
      have smallerAcc : ∀ child ∈ smaller, Acc Lighter child := by
        intro child listed
        have moved := balance.subset (List.mem_append_left [removed] listed)
        rcases List.mem_append.mp moved with old | new
        · exact each child old
        · exact removedAcc.inv (lower' child new)
      have nodeAcc := ih _ step smaller rfl smallerAcc
      rcases rest with rfl | further
      · exact nodeAcc
      · exact nodeAcc.inv further

theorem acc_lighter (shape : Shape) : Acc Lighter shape := by
  induction shape using induction with
  | step children ih =>
      refine acc_node (Relation.acc_of_singleton fun child inside => ?_) children rfl ih
      have childAcc := ih child (Multiset.mem_coe.mp inside)
      have belowAcc : Acc Below child :=
        Subrelation.accessible (fun below => below.1) childAcc
      exact belowAcc.cutExpand

end Shape

namespace Tree

/-! ### The shapes of trees -/

def shape (tree : Tree) : Shape :=
  .node (tree.children.attach.map fun child => child.1.shape)
termination_by tree
decreasing_by exact sizeOf_children_lt child.2

theorem shape_eq (tree : Tree) : tree.shape = .node (tree.children.map shape) := by
  rw [shape]
  simp only [List.map_subtype, List.unattach_attach]

theorem shape_eq_of_toJson {first second : Tree} (same : first.toJson = second.toJson) :
    first.shape = second.shape := by
  induction first using induction generalizing second with
  | step first ih =>
      have children := congrArg Json.children same
      rw [children_toJson, children_toJson] at children
      rw [shape_eq, shape_eq second]
      refine congrArg Shape.node ?_
      generalize second.children = others at children
      generalize first.children = list at ih children
      induction list generalizing others with
      | nil =>
          cases others with
          | nil => rfl
          | cons other rest => cases children
      | cons child list listIh =>
          cases others with
          | nil => cases children
          | cons other rest =>
              rw [List.map_cons, List.map_cons, List.cons.injEq] at children
              rw [List.map_cons, List.map_cons, ih child (List.mem_cons_self ..) children.1,
                listIh rest (fun next inside => ih next (List.mem_cons_of_mem _ inside)) children.2]

theorem shape_retext (texts : NodeId → Option String) (tree : Tree) :
    (tree.retext texts).shape = tree.shape := by
  induction tree using induction with
  | step tree ih =>
      rw [shape_eq, shape_eq tree, children_retext, List.map_map]
      exact congrArg Shape.node (List.map_congr_left ih)

section Lists

open Shape

variable {change : Tree → Tree} {keep : Tree → Bool}

private theorem map_shape_eq {list : List Tree}
    (unchanged : ∀ child ∈ list, keep child = true ∧ (change child).shape = child.shape) :
    ((list.filter keep).map fun child => (change child).shape) = list.map shape := by
  rw [List.filter_eq_self.mpr fun child inside => (unchanged child inside).1]
  exact List.map_congr_left fun child inside => (unchanged child inside).2

/-- Dropping some children and changing others to lighter ones makes a shape lighter, unless no child
is dropped or changed. -/
private theorem unchanged_or_lighter (list : List Tree)
    (each : ∀ child ∈ list, (change child).shape = child.shape ∨
      Lighter (change child).shape child.shape) :
    ∀ before : List Shape,
      (∀ child ∈ list, keep child = true ∧ (change child).shape = child.shape) ∨
        Lighter (.node (before ++ (list.filter keep).map fun child => (change child).shape))
          (.node (before ++ list.map shape)) := by
  induction list with
  | nil => exact fun before => Or.inl fun child none => absurd none List.not_mem_nil
  | cons child list ih =>
      intro before
      have further := ih fun next inside => each next (List.mem_cons_of_mem _ inside)
      by_cases kept : keep child = true
      · rw [List.filter_cons_of_pos kept, List.map_cons, List.map_cons]
        have rest := further (before ++ [(change child).shape])
        rw [List.append_assoc, List.append_assoc, List.singleton_append, List.singleton_append]
          at rest
        rcases each child (List.mem_cons_self ..) with same | lighter
        · rcases rest with unchanged | lower
          · refine Or.inl fun next inside => ?_
            rcases List.mem_cons.mp inside with rfl | later
            · exact ⟨kept, same⟩
            · exact unchanged next later
          · rw [same] at lower ⊢
            exact Or.inr lower
        · have step := lighter_child before (list.map shape) lighter
          rcases rest with unchanged | lower
          · rw [map_shape_eq unchanged]
            exact Or.inr step
          · exact Or.inr (lower.trans step)
      · rw [List.filter_cons_of_neg kept, List.map_cons]
        have step := lighter_drop before (list.map shape) child.shape
        rcases further before with unchanged | lower
        · rw [map_shape_eq unchanged]
          exact Or.inr step
        · exact Or.inr (lower.trans step)

private theorem lighter_of_child {list : List Tree}
    (each : ∀ child ∈ list, (change child).shape = child.shape ∨
      Lighter (change child).shape child.shape)
    (some : ∃ child ∈ list, keep child = false ∨ Lighter (change child).shape child.shape) :
    Lighter (.node ((list.filter keep).map fun child => (change child).shape))
      (.node (list.map shape)) := by
  rcases @unchanged_or_lighter change keep list each [] with unchanged | lighter
  · obtain ⟨child, inside, dropped | lighter⟩ := some
    · rw [(unchanged child inside).1] at dropped
      cases dropped
    · rw [(unchanged child inside).2] at lighter
      exact absurd lighter (not_lighter_self (acc_lighter _))
  · exact lighter

end Lists

/-- A tree is not heavier without some of its nodes, and lighter if one of them was below its top. -/
theorem lighter_without (gone : NodeId → Bool) (tree : Tree) :
    ((tree.without gone).shape = tree.shape ∨
        Shape.Lighter (tree.without gone).shape tree.shape) ∧
      ((∃ child ∈ tree.children, ∃ below ∈ child.preorder, gone below.number = true) →
        Shape.Lighter (tree.without gone).shape tree.shape) := by
  induction tree using induction with
  | step tree ih =>
      have each := fun child inside => (ih child inside).1
      have strict : (∃ child ∈ tree.children, ∃ below ∈ child.preorder, gone below.number = true) →
          Shape.Lighter (tree.without gone).shape tree.shape := by
        rintro ⟨child, inside, below, within, isGone⟩
        rw [shape_eq, shape_eq tree, children_without, List.map_map]
        refine lighter_of_child each ⟨child, inside, ?_⟩
        rcases mem_preorder_iff.mp within with rfl | ⟨grandchild, directly, deeper⟩
        · rw [isGone]
          exact Or.inl rfl
        · exact Or.inr ((ih child inside).2 ⟨grandchild, directly, below, deeper, isGone⟩)
      refine ⟨?_, strict⟩
      by_cases some : ∃ child ∈ tree.children, ∃ below ∈ child.preorder, gone below.number = true
      · exact Or.inr (strict some)
      · refine Or.inl (congrArg shape (without_of_not_mem fun child inside number deeper => ?_))
        obtain ⟨below, within, rfl⟩ := exists_of_mem_numbers deeper
        rw [Bool.eq_false_iff]
        exact fun isGone => some ⟨child, inside, below, within, isGone⟩

theorem lighter_graft {document : Document} {tree place subtree : Tree}
    (holds : document.Holds tree) (within : place ∈ tree.preorder)
    (same : subtree.number = place.number)
    (lighter : Shape.Lighter subtree.shape place.shape) :
    Shape.Lighter (tree.graft subtree).shape tree.shape := by
  have placeHolds := holds.of_mem_preorder within
  induction holds with
  | @intro tree present content linked held ih =>
      have holds : document.Holds tree := .intro present content linked held
      by_cases here : tree.number = subtree.number
      · have top := holds.unique placeHolds (here.trans same)
        subst top
        rwa [graft_of_eq here]
      · rw [graft_of_ne here, shape_eq, shape_eq tree, children_mapChildren, List.map_map]
        have all : tree.children.filter (fun _ => true) = tree.children :=
          List.filter_eq_self.mpr fun _ _ => rfl
        have step := @lighter_of_child (fun child => child.graft subtree) (fun _ => true)
          tree.children ?_ ?_
        · rwa [all] at step
        · intro child inside
          by_cases deeper : place ∈ child.preorder
          · exact Or.inr (ih child inside deeper)
          · refine Or.inl (congrArg shape (graft_of_not_mem fun shared => deeper ?_))
            rw [same] at shared
            obtain ⟨found, foundIn, equal⟩ := exists_of_mem_numbers shared
            rwa [← ((held child inside).of_mem_preorder foundIn).unique placeHolds equal]
        · rcases mem_preorder_iff.mp within with top | ⟨child, inside, deeper⟩
          · rw [same, ← top] at here
            exact absurd rfl here
          · exact ⟨child, inside, Or.inr (ih child inside deeper)⟩

end Tree

end TemplateFill
