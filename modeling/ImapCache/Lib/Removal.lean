import Mathlib.Data.List.Induction
import Mathlib.Data.List.InsertIdx
import Mathlib.Data.List.Nodup

/-!
# Removing elements by their positions

A list is kept by someone who is told the positions of its elements as they go, one after another;
every removal moves the elements behind it forward. Told from the last to the first, the positions
that the elements had at the beginning are right. Told from the first to the last, they are not.
-/

namespace ImapCache.Lib.Removal

variable {α : Type}

/-- Remove the element at a position, which counts from 1. -/
def removeAt (l : List α) (position : Nat) : Option (List α) :=
  if 1 ≤ position ∧ position ≤ l.length then some (l.eraseIdx (position - 1)) else none

def removeAll (l : List α) (positions : List Nat) : Option (List α) := positions.foldlM removeAt l

/-- The positions of the elements with a property. -/
def positions (p : α → Bool) (l : List α) : List Nat :=
  (l.zipIdx.filter fun entry => p entry.1).map fun entry => entry.2 + 1

@[simp] theorem removeAll_nil (l : List α) : removeAll l [] = some l := rfl

theorem removeAll_cons (l : List α) (position : Nat) (rest : List Nat) :
    removeAll l (position :: rest) = (removeAt l position).bind fun l => removeAll l rest := rfl

theorem removeAll_map {β : Type} (f : α → β) (l : List α) (positions : List Nat) :
    removeAll (l.map f) positions = (removeAll l positions).map (List.map f) := by
  induction positions generalizing l with
  | nil => rfl
  | cons position rest ih =>
      rw [removeAll_cons, removeAll_cons]
      unfold removeAt
      rw [List.length_map]
      split
      · rw [List.eraseIdx_map, Option.bind_some, Option.bind_some, ih]
      · rfl

theorem removeAll_append {l l' : List α} {positions : List Nat}
    (removed : removeAll l positions = some l') (t : List α) :
    removeAll (l ++ t) positions = some (l' ++ t) := by
  induction positions generalizing l with
  | nil =>
      cases removed
      rfl
  | cons position rest ih =>
      rw [removeAll_cons] at removed ⊢
      obtain ⟨next, first, removed⟩ := Option.bind_eq_some_iff.mp removed
      unfold removeAt at first
      split at first
      · rename_i inside
        cases first
        have longer : removeAt (l ++ t) position = some (l.eraseIdx (position - 1) ++ t) := by
          unfold removeAt
          rw [if_pos (by rw [List.length_append]; omega),
            List.eraseIdx_append_of_lt_length (by omega)]
        rw [longer]
        exact ih removed
      · cases first

theorem positions_concat (p : α → Bool) (l : List α) (x : α) :
    positions p (l ++ [x]) = positions p l ++ if p x then [l.length + 1] else [] := by
  unfold positions
  rw [List.zipIdx_append, List.filter_append, List.map_append]
  congr 1
  cases chosen : p x with
  | false => simp [chosen]
  | true => simp [chosen]

/-- Told from the last to the first, the positions remove the elements with the property. -/
theorem removeAll_positions_reverse (p : α → Bool) (l : List α) :
    removeAll l (positions p l).reverse = some (l.filter fun x => !p x) := by
  induction l using List.reverseRecOn with
  | nil => rfl
  | append_singleton l x ih =>
      rw [positions_concat, List.filter_append, List.reverse_append]
      cases chosen : p x with
      | false =>
          simpa [chosen] using removeAll_append ih [x]
      | true =>
          have last : removeAt (l ++ [x]) (l.length + 1) = some l := by
            unfold removeAt
            rw [if_pos (by simp)]
            simp [List.eraseIdx_append_of_length_le]
          simp only [↓reduceIte, List.reverse_singleton, List.singleton_append, removeAll_cons, last,
            Option.bind_some, ih]
          simp [chosen]

theorem removeAll_singleton [DecidableEq α] {l : List α} (distinct : l.Nodup) {position : Nat} {x : α}
    (positive : 0 < position) (here : l[position - 1]? = some x) :
    removeAll l [position] = some (l.filter fun y => y ≠ x) := by
  obtain ⟨inside, rfl⟩ := List.getElem?_eq_some_iff.mp here
  have removed : removeAt l position = some (l.eraseIdx (position - 1)) := by
    unfold removeAt
    rw [if_pos ⟨positive, by omega⟩]
  have filtered : (l.filter fun y => y ≠ l[position - 1]) = l.filter (· != l[position - 1]) :=
    List.filter_congr fun y _ => by rw [Bool.eq_iff_iff]; simp
  rw [removeAll_cons, removed, filtered, ← distinct.erase_eq_filter, distinct.erase_getElem]
  rfl

theorem getElem?_of_removeAll {l l' : List α} {positions : List Nat}
    (removed : removeAll l positions = some l') {i : Nat} (behind : ∀ n ∈ positions, i + 1 < n) :
    l'[i]? = l[i]? := by
  induction positions generalizing l with
  | nil =>
      cases removed
      rfl
  | cons position rest ih =>
      rw [removeAll_cons] at removed
      obtain ⟨next, first, removed⟩ := Option.bind_eq_some_iff.mp removed
      have after := behind position List.mem_cons_self
      unfold removeAt at first
      split at first
      · cases first
        rw [ih removed fun n member => behind n (List.mem_cons_of_mem _ member),
          List.getElem?_eraseIdx_of_lt (by omega)]
      · cases first

/-- Told from the first to the last, at least two of them, the positions leave the second element
in the list. -/
theorem mem_of_removeAll_ascending {l l' : List α} {first second : Nat} {rest : List Nat}
    (ascending : (first :: second :: rest).Pairwise (· < ·))
    (removed : removeAll l (first :: second :: rest) = some l') {x : α}
    (here : l[second - 1]? = some x) : x ∈ l' := by
  rw [removeAll_cons] at removed
  obtain ⟨next, isNext, removed⟩ := Option.bind_eq_some_iff.mp removed
  rw [List.pairwise_cons, List.pairwise_cons] at ascending
  obtain ⟨later, latest, -⟩ := ascending
  have less := later second List.mem_cons_self
  unfold removeAt at isNext
  split at isNext
  · rename_i inside
    cases isNext
    -- The first removal has moved the element one position forward, before all others.
    have moved : (l.eraseIdx (first - 1))[second - 2]? = some x := by
      rw [List.getElem?_eraseIdx_of_ge (by omega), ← here]
      congr 1
      omega
    have kept := getElem?_of_removeAll removed (i := second - 2) (by
      intro n member
      rcases List.mem_cons.mp member with rfl | member
      · omega
      · have := latest n member
        omega)
    rw [moved] at kept
    exact List.mem_of_getElem? kept
  · cases isNext

end ImapCache.Lib.Removal
