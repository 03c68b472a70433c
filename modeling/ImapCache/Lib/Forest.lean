import Mathlib.Algebra.BigOperators.Group.List.Basic
import Mathlib.Data.Fintype.EquivFin
import Mathlib.Data.List.Sort
import Mathlib.Order.WellFounded
import Mathlib.Tactic.Ring

/-!
# Forests

Ordered trees with labels, and how they grow from a relation between parents and children: every label's
branches carry its children. If each item has at most one parent and no item is above itself, a forest
that grows from the items without a parent carries each item once.
-/

namespace ImapCache.Lib.Forest

/-- A label with the trees below it. -/
inductive RoseTree (α : Type) where
  | node (label : α) (branches : List (RoseTree α))

namespace RoseTree
variable {α β : Type}

def label : RoseTree α → α
  | node label _ => label

def branches : RoseTree α → List (RoseTree α)
  | node _ branches => branches

mutual
def labels : RoseTree α → List α
  | node label branches => label :: labelsOf branches
def labelsOf : List (RoseTree α) → List α
  | [] => []
  | tree :: trees => tree.labels ++ labelsOf trees
end

mutual
/-- The most labels above each other. -/
def depth : RoseTree α → Nat
  | node _ branches => depthOf branches + 1
def depthOf : List (RoseTree α) → Nat
  | [] => 0
  | tree :: trees => max tree.depth (depthOf trees)
end

theorem labelsOf_eq (trees : List (RoseTree α)) : labelsOf trees = trees.flatMap labels := by
  induction trees with
  | nil => rfl
  | cons tree trees ih => rw [labelsOf, ih, List.flatMap_cons]

theorem mem_labelsOf {trees : List (RoseTree α)} {x : α} :
    x ∈ labelsOf trees ↔ ∃ tree ∈ trees, x ∈ tree.labels := by
  rw [labelsOf_eq, List.mem_flatMap]

theorem label_mem_labels : ∀ tree : RoseTree α, tree.label ∈ tree.labels
  | node .. => by
      rw [labels]
      exact List.mem_cons_self ..

theorem mem_labels_of_branch {tree branch : RoseTree α} {x : α} (isBranch : branch ∈ tree.branches)
    (member : x ∈ branch.labels) : x ∈ tree.labels := by
  cases tree with
  | node label branches =>
      rw [labels]
      exact List.mem_cons_of_mem _ (mem_labelsOf.mpr ⟨branch, isBranch, member⟩)

theorem depthOf_le {trees : List (RoseTree α)} {bound : Nat} (below : ∀ tree ∈ trees, tree.depth ≤ bound) :
    depthOf trees ≤ bound := by
  induction trees with
  | nil => exact Nat.zero_le _
  | cons tree trees ih =>
      rw [depthOf]
      exact max_le (below tree (List.mem_cons_self ..))
        (ih fun other member => below other (List.mem_cons_of_mem _ member))

theorem depth_le_of_mem {trees : List (RoseTree α)} {tree : RoseTree α} (member : tree ∈ trees) :
    tree.depth ≤ depthOf trees := by
  induction trees with
  | nil => cases member
  | cons first trees ih =>
      rw [depthOf]
      rcases List.mem_cons.mp member with rfl | later
      · exact le_max_left ..
      · exact (ih later).trans (le_max_right ..)

@[elab_as_elim, induction_eliminator]
theorem induction {motive : RoseTree α → Prop}
    (node : ∀ label branches, (∀ branch ∈ branches, motive branch) → motive (node label branches))
    (tree : RoseTree α) : motive tree :=
  @RoseTree.rec α motive (fun trees => ∀ tree ∈ trees, motive tree) node (fun _ member => by cases member)
    (fun _ _ first others _ member => (List.mem_cons.mp member).elim (· ▸ first) (others _)) tree

end RoseTree

open RoseTree

/-! ## How forests grow -/

variable {α : Type}

/-- Below every label are labels that it allows. -/
inductive Shaped (allowed : α → List α → Prop) : RoseTree α → Prop where
  | node {label : α} {branches : List (RoseTree α)} (own : allowed label (branches.map RoseTree.label))
      (each : ∀ branch ∈ branches, Shaped allowed branch) : Shaped allowed (.node label branches)

namespace Shaped
variable {allowed permitted : α → List α → Prop} {tree : RoseTree α}

theorem mono (weaker : ∀ label below, allowed label below → permitted label below)
    (shaped : Shaped allowed tree) : Shaped permitted tree := by
  induction shaped with
  | node own each ih => exact .node (weaker _ _ own) ih

theorem own (shaped : Shaped allowed tree) : allowed tree.label (tree.branches.map RoseTree.label) := by
  cases shaped with
  | node own each => exact own

theorem each (shaped : Shaped allowed tree) : ∀ branch ∈ tree.branches, Shaped allowed branch := by
  cases shaped with
  | node own each => exact each

end Shaped

/-- Below every label are its children, in any order. -/
abbrev Grown (children : α → List α) : RoseTree α → Prop :=
  Shaped fun label below => below.Perm (children label)

theorem reaches_of_mem_labels {allowed : α → List α → Prop} (above : α → α → Prop)
    (child : ∀ label below, allowed label below → ∀ x ∈ below, above x label) {tree : RoseTree α}
    (shaped : Shaped allowed tree) :
    ∀ x ∈ tree.labels, Relation.ReflTransGen above x tree.label := by
  induction shaped with
  | node own each ih =>
      intro x member
      rw [labels, List.mem_cons, mem_labelsOf] at member
      rcases member with rfl | ⟨branch, isBranch, below⟩
      · exact .refl
      · exact (ih branch isBranch x below).tail
          (child _ _ own _ (List.mem_map_of_mem isBranch))

theorem Shaped.of_mem_labels {allowed : α → List α → Prop} {tree : RoseTree α} (shaped : Shaped allowed tree) :
    ∀ x ∈ tree.labels, ∃ below, allowed x below := by
  induction shaped with
  | node own each ih =>
      intro x member
      rw [labels, List.mem_cons, mem_labelsOf] at member
      rcases member with rfl | ⟨branch, isBranch, below⟩
      · exact ⟨_, own⟩
      · exact ih branch isBranch x below

theorem labelsOf_perm {trees others : List (RoseTree α)} (perm : trees.Perm others) :
    (labelsOf trees).Perm (labelsOf others) := by
  rw [labelsOf_eq, labelsOf_eq]
  exact perm.flatMap_right _

theorem labelsOf_map_perm {trees : List (RoseTree α)} {f : RoseTree α → RoseTree α}
    (each : ∀ tree ∈ trees, (f tree).labels.Perm tree.labels) :
    (labelsOf (trees.map f)).Perm (labelsOf trees) := by
  induction trees with
  | nil => exact .nil
  | cons tree trees ih =>
      rw [List.map_cons, labelsOf, labelsOf]
      exact (each tree (List.mem_cons_self ..)).append
        (ih fun other member => each other (List.mem_cons_of_mem _ member))

section Counting
variable [DecidableEq α] {children : α → List α}

theorem count_labelsOf {trees : List (RoseTree α)} {x : α} {f : RoseTree α → Nat}
    (each : ∀ tree ∈ trees, tree.labels.count x = f tree) :
    (labelsOf trees).count x = (trees.map f).sum := by
  induction trees with
  | nil => rfl
  | cons tree trees ih =>
      rw [labelsOf, List.count_append, each tree (List.mem_cons_self ..),
        ih fun other member => each other (List.mem_cons_of_mem _ member), List.map_cons, List.sum_cons]

theorem count_map_label (trees : List (RoseTree α)) (x : α) :
    (trees.map RoseTree.label).count x = (trees.map fun tree => if tree.label = x then 1 else 0).sum := by
  induction trees with
  | nil => rfl
  | cons tree trees ih =>
      rw [List.map_cons, List.count_cons, ih, List.map_cons, List.sum_cons, Nat.add_comm]
      simp only [beq_iff_eq]

theorem Shaped.count_root {tree : RoseTree α} {x : α} (grown : Grown children tree)
    (root : ∀ q, x ∉ children q) : tree.labels.count x = if tree.label = x then 1 else 0 := by
  induction grown with
  | @node label branches own each ih =>
      have below : (branches.map RoseTree.label).count x = 0 := by
        rw [own.count_eq, List.count_eq_zero]
        exact root label
      rw [labels, List.count_cons, count_labelsOf ih, ← count_map_label, below, RoseTree.label, Nat.zero_add]
      simp only [beq_iff_eq]

theorem Shaped.count_child {tree : RoseTree α} {x parent : α} (grown : Grown children tree)
    (once : ∀ q, (children q).count x = if q = parent then 1 else 0) :
    tree.labels.count x = (if tree.label = x then 1 else 0) + tree.labels.count parent := by
  induction grown with
  | @node label branches own each ih =>
      have below := once label
      rw [← own.count_eq, count_map_label] at below
      have parents : (labelsOf branches).count parent =
          (branches.map fun branch => branch.labels.count parent).sum :=
        count_labelsOf fun _ _ => rfl
      rw [labels, List.count_cons, List.count_cons, count_labelsOf ih, List.sum_map_add, below, parents,
        RoseTree.label]
      simp only [beq_iff_eq]
      ring

theorem two_le_count {trees : List (RoseTree α)} {tree other : RoseTree α} {x : α} (inTrees : tree ∈ trees)
    (otherInTrees : other ∈ trees) (apart : tree ≠ other) (member : x ∈ tree.labels)
    (inOther : x ∈ other.labels) : 2 ≤ (labelsOf trees).count x := by
  induction trees with
  | nil => cases inTrees
  | cons first trees ih =>
      have found : ∀ {tree}, tree ∈ trees → x ∈ tree.labels → 0 < (labelsOf trees).count x :=
        fun here carries => List.count_pos_iff.mpr (mem_labelsOf.mpr ⟨_, here, carries⟩)
      rw [labelsOf, List.count_append]
      rcases List.mem_cons.mp inTrees with rfl | later
      · rcases List.mem_cons.mp otherInTrees with rfl | otherLater
        · exact absurd rfl apart
        · have one := List.count_pos_iff.mpr member
          have another := found otherLater inOther
          omega
      · rcases List.mem_cons.mp otherInTrees with rfl | otherLater
        · have one := List.count_pos_iff.mpr inOther
          have another := found later member
          omega
        · exact (ih later otherLater).trans (Nat.le_add_left ..)

end Counting

/-! ## Items with parents -/

section Items
variable [DecidableEq α] (items : List α) (parent : α → Option α)

/-- The items below an item. -/
def childrenOf (p : α) : List α := items.filter fun x => parent x = some p

/-- The items that are below none. -/
def rootsOf : List α := items.filter fun x => (parent x).isNone

/-- No item is above itself. -/
def Acyclic : Prop := ∀ x, ¬ Relation.TransGen (fun x p => parent x = some p) x x

variable {items parent}

theorem mem_childrenOf {x p : α} : x ∈ childrenOf items parent p ↔ x ∈ items ∧ parent x = some p := by
  simp [childrenOf]

omit [DecidableEq α] in
theorem mem_rootsOf {x : α} : x ∈ rootsOf items parent ↔ x ∈ items ∧ parent x = none := by
  simp [rootsOf]

/-- Going from item to parent ends. -/
theorem Acyclic.induction (acyclic : Acyclic parent) (listed : ∀ x p, parent x = some p → p ∈ items)
    {motive : α → Prop} (step : ∀ x, (∀ p, parent x = some p → motive p) → motive x) (x : α) :
    motive x := by
  let above (p x : {x // x ∈ items}) : Prop :=
    Relation.TransGen (fun x p => parent x = some p) x.1 p.1
  have irrefl : Std.Irrefl above := ⟨fun x => acyclic x.1⟩
  have trans : IsTrans _ above := ⟨fun _ _ _ first second => second.trans first⟩
  have wellFounded : WellFounded above := Finite.wellFounded_of_trans_of_irrefl above
  have inItems : ∀ p : {x // x ∈ items}, motive p.1 := by
    intro p
    induction p using wellFounded.induction with
    | _ p ih => exact step p.1 fun q isParent => ih ⟨q, listed _ q isParent⟩ (.single isParent)
  exact step x fun p isParent => inItems ⟨p, listed x p isParent⟩

omit [DecidableEq α] in
theorem parent_of_cycle {x y : α} (cycle : Relation.TransGen (fun x p => parent x = some p) x x)
    (above : Relation.ReflTransGen (fun x p => parent x = some p) x y) : ∃ p, parent y = some p := by
  have onCycle : Relation.TransGen (fun x p => parent x = some p) y y := by
    induction above with
    | refl => exact cycle
    | tail _ step ih =>
        obtain ⟨next, first, back⟩ := Relation.TransGen.head'_iff.mp ih
        obtain rfl := Option.some.inj (first.symm.trans step)
        exact .tail' back step
  obtain ⟨p, isParent, -⟩ := Relation.TransGen.head'_iff.mp onCycle
  exact ⟨p, isParent⟩

omit [DecidableEq α] in
variable (items) in
theorem acyclic_of_roots (listed : ∀ x p, parent x = some p → p ∈ items)
    (up : ∀ x ∈ items, ∃ root, Relation.ReflTransGen (fun x p => parent x = some p) x root ∧
      parent root = none) : Acyclic parent := by
  intro x cycle
  obtain ⟨p, isParent⟩ := parent_of_cycle cycle .refl
  obtain ⟨root, above, none⟩ := up p (listed x p isParent)
  obtain ⟨q, some⟩ := parent_of_cycle cycle (above.head isParent)
  rw [none] at some
  cases some

variable {forest : List (RoseTree α)}

/-- A forest that grows from the roots carries every item once. -/
theorem count_eq_one (distinct : items.Nodup) (listed : ∀ x p, parent x = some p → p ∈ items)
    (acyclic : Acyclic parent) (roots : (forest.map RoseTree.label).Perm (rootsOf items parent))
    (grown : ∀ tree ∈ forest, Grown (childrenOf items parent) tree) {x : α} (member : x ∈ items) :
    (labelsOf forest).count x = 1 := by
  revert member
  induction x using acyclic.induction listed with
  | _ x ih =>
      intro member
      cases above : parent x with
      | none =>
          have root : ∀ q, x ∉ childrenOf items parent q := fun q child => by
            rw [mem_childrenOf, above] at child
            cases child.2
          rw [count_labelsOf fun tree inForest => (grown tree inForest).count_root root,
            ← count_map_label, roots.count_eq]
          exact List.count_eq_one_of_mem (distinct.filter _) (mem_rootsOf.mpr ⟨member, above⟩)
      | some p =>
          have once : ∀ q, (childrenOf items parent q).count x = if q = p then 1 else 0 := by
            intro q
            by_cases same : q = p
            · rw [if_pos same]
              exact List.count_eq_one_of_mem (distinct.filter _)
                (mem_childrenOf.mpr ⟨member, same ▸ above⟩)
            · rw [if_neg same, List.count_eq_zero, mem_childrenOf, above]
              exact fun child => same (Option.some.inj child.2).symm
          have notRoot : (forest.map RoseTree.label).count x = 0 := by
            rw [roots.count_eq, List.count_eq_zero, mem_rootsOf, above]
            exact fun root => by cases root.2
          have parents : (labelsOf forest).count p =
              (forest.map fun tree => tree.labels.count p).sum :=
            count_labelsOf fun _ _ => rfl
          rw [count_labelsOf fun tree inForest => (grown tree inForest).count_child once,
            List.sum_map_add, ← count_map_label, notRoot, Nat.zero_add, ← parents]
          exact ih p above (listed x p above)

theorem labels_perm (distinct : items.Nodup) (listed : ∀ x p, parent x = some p → p ∈ items)
    (acyclic : Acyclic parent) (roots : (forest.map RoseTree.label).Perm (rootsOf items parent))
    (grown : ∀ tree ∈ forest, Grown (childrenOf items parent) tree) :
    (labelsOf forest).Perm items := by
  rw [List.perm_iff_count]
  intro x
  by_cases member : x ∈ items
  · rw [count_eq_one distinct listed acyclic roots grown member,
      List.count_eq_one_of_mem distinct member]
  · rw [List.count_eq_zero.mpr member, List.count_eq_zero, mem_labelsOf]
    rintro ⟨tree, inForest, inTree⟩
    have reaches := reaches_of_mem_labels (fun x p => x ∈ items ∧ parent x = some p)
      (fun label below own y isBelow => mem_childrenOf.mp (own.subset isBelow)) (grown tree inForest) x inTree
    have isRoot : tree.label ∈ items :=
      (mem_rootsOf.mp (roots.subset (List.mem_map_of_mem inForest))).1
    rcases reaches.cases_head with rfl | ⟨_, ⟨inItems, -⟩, -⟩
    · exact member isRoot
    · exact member inItems

end Items

/-! ## Sorted forests -/

section Sorting
variable (r : α → α → Prop) [DecidableRel r]

mutual
/-- A tree with the branches of each label sorted. -/
def sorted : RoseTree α → RoseTree α
  | .node label branches => .node label
      ((sortedBranches branches).insertionSort fun a b => r a.label b.label)
def sortedBranches : List (RoseTree α) → List (RoseTree α)
  | [] => []
  | tree :: trees => sorted tree :: sortedBranches trees
end

/-- The branches of each label are in order. -/
abbrev Sorted : RoseTree α → Prop := Shaped fun _ below => below.Pairwise r

variable {r}

theorem sortedBranches_eq (trees : List (RoseTree α)) : sortedBranches r trees = trees.map (sorted r) := by
  induction trees with
  | nil => rfl
  | cons tree trees ih => rw [sortedBranches, ih, List.map_cons]

@[simp] theorem sorted_label (tree : RoseTree α) : (sorted r tree).label = tree.label := by
  cases tree with
  | node label branches =>
      rw [sorted]
      rfl

theorem map_label_sorted (trees : List (RoseTree α)) :
    (trees.map (sorted r)).map RoseTree.label = trees.map RoseTree.label := by
  rw [List.map_map]
  exact List.map_congr_left fun tree _ => sorted_label tree

theorem map_label_insertionSort (trees : List (RoseTree α)) :
    (trees.insertionSort fun a b => r a.label b.label).map RoseTree.label =
      (trees.map RoseTree.label).insertionSort r :=
  List.map_insertionSort _ _ _ _ fun _ _ _ _ => Iff.rfl

theorem pairwise_map_label [Std.Total r] [IsTrans α r] (trees : List (RoseTree α)) :
    ((trees.insertionSort fun a b => r a.label b.label).map RoseTree.label).Pairwise r := by
  rw [map_label_insertionSort]
  exact List.pairwise_insertionSort r _

theorem sorted_sorted [Std.Total r] [IsTrans α r] (tree : RoseTree α) : Sorted r (sorted r tree) := by
  induction tree with
  | node label branches ih =>
      rw [sorted, sortedBranches_eq]
      refine .node (pairwise_map_label _) fun branch member => ?_
      rw [List.mem_insertionSort] at member
      obtain ⟨tree, isBranch, rfl⟩ := List.mem_map.mp member
      exact ih tree isBranch

theorem labels_sorted (tree : RoseTree α) : (sorted r tree).labels.Perm tree.labels := by
  induction tree with
  | node label branches ih =>
      rw [sorted, sortedBranches_eq, labels, labels]
      exact ((labelsOf_perm (List.perm_insertionSort _ _)).trans (labelsOf_map_perm ih)).cons label

theorem depth_sorted (tree : RoseTree α) : (sorted r tree).depth ≤ tree.depth := by
  induction tree with
  | node label branches ih =>
      rw [sorted, sortedBranches_eq, depth, depth, Nat.add_le_add_iff_right]
      refine depthOf_le fun branch member => ?_
      rw [List.mem_insertionSort] at member
      obtain ⟨other, isBranch, rfl⟩ := List.mem_map.mp member
      exact (ih other isBranch).trans (depth_le_of_mem isBranch)

theorem Shaped.sorted {children : α → List α} {tree : RoseTree α} (grown : Grown children tree) :
    Grown children (sorted r tree) := by
  induction grown with
  | @node label branches own each ih =>
      rw [Forest.sorted, sortedBranches_eq]
      refine .node ?_ fun branch member => ?_
      · refine List.Perm.trans ((List.perm_insertionSort _ _).map _) ?_
        rw [map_label_sorted]
        exact own
      · rw [List.mem_insertionSort] at member
        obtain ⟨tree, isBranch, rfl⟩ := List.mem_map.mp member
        exact ih tree isBranch

end Sorting

end ImapCache.Lib.Forest
