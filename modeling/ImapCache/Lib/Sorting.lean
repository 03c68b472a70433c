import Mathlib.Data.List.Destutter
import Mathlib.Data.List.Sort

/-!
# Sorted lists without repetitions

Sorting a list and leaving out each element that equals the one before it.
-/

namespace ImapCache.Lib.Sorting

variable {α : Type} [LinearOrder α]

theorem mem_destutter'_ne (last value : α) (values : List α) :
    value ∈ values.destutter' (· ≠ ·) last ↔ value = last ∨ value ∈ values := by
  induction values generalizing last with
  | nil => simp
  | cons first values ih =>
      by_cases same : last = first
      · rw [List.destutter'_cons_neg _ (by simpa using same), ih, List.mem_cons, ← same]
        simp
      · rw [List.destutter'_cons_pos _ same, List.mem_cons, ih, List.mem_cons]

theorem mem_sorted {value : α} {values : List α} :
    value ∈ (values.insertionSort (· ≤ ·)).destutter (· ≠ ·) ↔ value ∈ values := by
  have plain : ∀ values : List α, value ∈ values.destutter (· ≠ ·) ↔ value ∈ values := by
    intro values
    cases values with
    | nil => rfl
    | cons first values => rw [List.destutter_cons', mem_destutter'_ne, List.mem_cons]
  rw [plain, List.mem_insertionSort]

theorem sorted_ascending (values : List α) :
    ((values.insertionSort (· ≤ ·)).destutter (· ≠ ·)).Pairwise (· < ·) := by
  have ordered : ((values.insertionSort (· ≤ ·)).destutter (· ≠ ·)).Pairwise (· ≤ ·) :=
    (List.pairwise_insertionSort (· ≤ ·) values).sublist (List.destutter_sublist _ _)
  have distinct : ((values.insertionSort (· ≤ ·)).destutter (· ≠ ·)).IsChain (· ≠ ·) :=
    List.isChain_destutter _ _
  rw [← List.isChain_iff_pairwise]
  rw [List.isChain_iff_getElem] at distinct ⊢
  intro i inside
  exact lt_of_le_of_ne (List.pairwise_iff_getElem.mp ordered i (i + 1) _ _ (Nat.lt_succ_self i))
    (distinct i inside)

/-- In an ascending list the position of an element is the number of elements up to it. -/
theorem getElem?_ascending_iff {values : List α} (ascending : values.Pairwise (· < ·)) {value : α}
    (member : value ∈ values) (i : Nat) :
    values[i]? = some value ↔ (values.filter fun other => other ≤ value).length = i + 1 := by
  obtain ⟨before, after, rfl⟩ := List.append_of_mem member
  rw [List.pairwise_append, List.pairwise_cons] at ascending
  obtain ⟨inBefore, ⟨smaller, inAfter⟩, across⟩ := ascending
  have below : before.filter (fun other => other ≤ value) = before :=
    List.filter_eq_self.mpr fun other isOther =>
      decide_eq_true (across other isOther value List.mem_cons_self).le
  have above : after.filter (fun other => other ≤ value) = [] :=
    List.filter_eq_nil_iff.mpr fun other isOther => by simpa using smaller other isOther
  have distinct : (before ++ value :: after).Nodup := by
    refine List.Pairwise.imp ne_of_lt ?_
    rw [List.pairwise_append, List.pairwise_cons]
    exact ⟨inBefore, ⟨smaller, inAfter⟩, across⟩
  have here : (before ++ value :: after)[before.length]? = some value := by simp
  rw [List.filter_append, List.filter_cons_of_pos (by simp), below, above, List.length_append,
    List.length_singleton, Nat.add_left_inj]
  constructor
  · intro found
    exact (List.getElem?_inj (by simp) distinct).mp (here.trans found.symm)
  · rintro rfl
    exact here

end ImapCache.Lib.Sorting
