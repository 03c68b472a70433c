import Mathlib.Data.List.SplitBy

/-!
# Groups of a key

A list in groups, one for each key. Of a list in the order of its keys, the runs of equal keys are such
groups.
-/

namespace ImapCache.Lib.Grouping

variable {α β : Type} {key : α → β}

/-- The items are in groups of one key each, and all items of a key are in one group. -/
structure Grouped (key : α → β) (items : List α) (groups : List (List α)) : Prop where
  perm : groups.flatten.Perm items
  nonempty : ∀ group ∈ groups, group ≠ []
  same : ∀ group ∈ groups, ∀ x ∈ group, ∀ y ∈ group, key x = key y
  apart : groups.Pairwise fun group other => ∀ x ∈ group, ∀ y ∈ other, key x ≠ key y

namespace Grouped
variable {items others : List α} {groups reordered : List (List α)}

theorem perm_items (grouped : Grouped key items groups) (perm : items.Perm others) : Grouped key others groups :=
  ⟨grouped.perm.trans perm, grouped.nonempty, grouped.same, grouped.apart⟩

theorem perm_groups (grouped : Grouped key items groups) (perm : groups.Perm reordered) :
    Grouped key items reordered where
  perm := perm.symm.flatten.trans grouped.perm
  nonempty group member := grouped.nonempty group (perm.mem_iff.mpr member)
  same group member := grouped.same group (perm.mem_iff.mpr member)
  apart := perm.pairwise grouped.apart fun apart x inGroup y inOther => (apart y inOther x inGroup).symm

theorem mem_items (grouped : Grouped key items groups) {x : α} : x ∈ items ↔ ∃ group ∈ groups, x ∈ group := by
  rw [← grouped.perm.mem_iff, List.mem_flatten]

theorem perm_filter [DecidableEq β] (grouped : Grouped key items groups) {group : List α}
    (member : group ∈ groups) {x : α} (inGroup : x ∈ group) :
    group.Perm (items.filter fun item => key item = key x) := by
  obtain ⟨before, after, rfl⟩ := List.append_of_mem member
  have apart := List.pairwise_append.mp grouped.apart
  obtain ⟨inAfter, -⟩ := List.pairwise_cons.mp apart.2.1
  have own : group.filter (fun item => key item = key x) = group :=
    List.filter_eq_self.mpr fun item isItem =>
      decide_eq_true (grouped.same group member item isItem x inGroup)
  have none : before.flatten.filter (fun item => key item = key x) = [] := by
    rw [List.filter_eq_nil_iff]
    intro item isItem
    obtain ⟨other, isOther, inOther⟩ := List.mem_flatten.mp isItem
    simpa using apart.2.2 other isOther group (List.mem_cons_self ..) item inOther x inGroup
  have noneAfter : after.flatten.filter (fun item => key item = key x) = [] := by
    rw [List.filter_eq_nil_iff]
    intro item isItem
    obtain ⟨other, isOther, inOther⟩ := List.mem_flatten.mp isItem
    simpa using (inAfter other isOther x inGroup item inOther).symm
  have filtered := grouped.perm.filter fun item => key item = key x
  rw [List.flatten_append, List.flatten_cons, List.filter_append, List.filter_append, none, own, noneAfter,
    List.nil_append, List.append_nil] at filtered
  exact filtered

end Grouped

/-! ## Runs of equal keys -/

section Runs
variable {r : β → β → Prop} {sorted : List α} {groups : List (List α)}

theorem same_of_chain {group : List α} (chain : group.IsChain fun x y => key x = key y) :
    ∀ x ∈ group, ∀ y ∈ group, key x = key y := by
  have trans : Trans (fun x y : α => key x = key y) (fun x y => key x = key y) fun x y => key x = key y :=
    ⟨Eq.trans⟩
  have pairwise := List.isChain_iff_pairwise.mp chain
  have symmetric : Std.Symm fun x y : α => key x = key y := ⟨fun _ _ => Eq.symm⟩
  intro x isX y isY
  by_cases eq : x = y
  · rw [eq]
  · exact pairwise.forall isX isY eq

theorem apart_of_neighbours (antisymm : ∀ {a b : β}, r a b → r b a → a = b)
    (nonempty : ∀ group ∈ groups, group ≠ [])
    (same : ∀ group ∈ groups, ∀ x ∈ group, ∀ y ∈ group, key x = key y)
    (ordered : groups.Pairwise fun group other => ∀ x ∈ group, ∀ y ∈ other, r (key x) (key y))
    (neighbours : groups.IsChain fun group other => ∀ x ∈ group, ∀ y ∈ other, key x ≠ key y) :
    groups.Pairwise fun group other => ∀ x ∈ group, ∀ y ∈ other, key x ≠ key y := by
  induction groups with
  | nil => exact .nil
  | cons group groups ih =>
      obtain ⟨first, later⟩ := List.pairwise_cons.mp ordered
      have others := ih (fun other member => nonempty other (List.mem_cons_of_mem _ member))
        (fun other member => same other (List.mem_cons_of_mem _ member)) later neighbours.of_cons
      refine List.pairwise_cons.mpr ⟨fun other member x inGroup y inOther eq => ?_, others⟩
      cases groups with
      | nil => cases member
      | cons next groups =>
          have isNext : next ∈ group :: next :: groups := List.mem_cons_of_mem _ (List.mem_cons_self ..)
          have apart := (List.isChain_cons_cons.mp neighbours).1
          rcases List.mem_cons.mp member with rfl | after
          · exact apart x inGroup y inOther eq
          · -- the key of the next group is between two equal keys
            obtain ⟨z, inNext⟩ := List.exists_mem_of_ne_nil _ (nonempty next isNext)
            have below := first next (List.mem_cons_self ..) x inGroup z inNext
            have above := (List.pairwise_cons.mp later).1 other after z inNext y inOther
            exact apart x inGroup z inNext (antisymm below (eq ▸ above))

/-- The runs of equal keys of a list in the order of its keys are its groups. -/
theorem grouped_splitBy [DecidableEq β] (antisymm : ∀ {a b : β}, r a b → r b a → a = b)
    (ordered : sorted.Pairwise fun x y => r (key x) (key y)) :
    Grouped key sorted (sorted.splitBy fun x y => key x == key y) := by
  have nonempty : ∀ group ∈ sorted.splitBy fun x y => key x == key y, group ≠ [] :=
    fun _ member => List.ne_nil_of_mem_splitBy member
  have same : ∀ group ∈ sorted.splitBy fun x y => key x == key y, ∀ x ∈ group, ∀ y ∈ group, key x = key y := by
    intro group member
    exact same_of_chain ((List.isChain_of_mem_splitBy member).imp fun x y eq => by simpa using eq)
  refine ⟨by rw [List.flatten_splitBy], nonempty, same, apart_of_neighbours antisymm nonempty same ?_ ?_⟩
  · rw [← List.flatten_splitBy (fun x y => key x == key y) sorted, List.pairwise_flatten] at ordered
    exact ordered.2
  · refine (List.isChain_getLast_head_splitBy (fun x y => key x == key y) sorted).imp_of_mem_imp ?_
    rintro group other member isOther ⟨some, otherSome, differ⟩ x inGroup y inOther eq
    rw [beq_eq_false_iff_ne] at differ
    refine differ ?_
    rw [same group member _ (List.getLast_mem some) x inGroup, eq,
      same other isOther y inOther _ (List.head_mem otherSome)]

end Runs

end ImapCache.Lib.Grouping
