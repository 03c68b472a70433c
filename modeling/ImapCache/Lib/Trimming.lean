import Mathlib.Data.List.DropRight

/-!
# Trimming

A list without the items at its two ends that satisfy a predicate.
-/

namespace ImapCache.Lib.Trimming
variable {α : Type} {p : α → Bool}

theorem rdropWhile_append (a b : List α) :
    (a ++ b).rdropWhile p = if b.rdropWhile p = [] then a.rdropWhile p else a ++ b.rdropWhile p := by
  induction b using List.reverseRecOn with
  | nil => simp
  | append_singleton b x ih =>
      rw [← List.append_assoc, List.rdropWhile_concat, List.rdropWhile_concat]
      by_cases goes : p x
      · rw [if_pos goes, if_pos goes, ih]
      · rw [if_neg goes, if_neg goes, if_neg (by simp), List.append_assoc]

theorem rdropWhile_cons (x : α) (l : List α) :
    (x :: l).rdropWhile p = if l.rdropWhile p = [] ∧ p x then [] else x :: l.rdropWhile p := by
  rw [← List.singleton_append, rdropWhile_append, List.rdropWhile_singleton]
  by_cases all : l.rdropWhile p = []
  · rw [if_pos all]
    by_cases goes : p x
    · rw [if_pos goes, if_pos ⟨all, goes⟩]
    · rw [if_neg goes, if_neg (fun both => goes both.2), all]
  · rw [if_neg all, if_neg (fun both => all both.1), List.singleton_append]

theorem dropWhile_rdropWhile (l : List α) :
    (l.rdropWhile p).dropWhile p = (l.dropWhile p).rdropWhile p := by
  induction l with
  | nil => rfl
  | cons x l ih =>
      rw [rdropWhile_cons]
      by_cases goes : p x
      · rw [List.dropWhile_cons_of_pos goes]
        by_cases all : l.rdropWhile p = []
        · rw [if_pos ⟨all, goes⟩, ← ih, all]
        · rw [if_neg (fun both => all both.1), List.dropWhile_cons_of_pos goes, ih]
      · rw [if_neg (fun both => goes both.2), List.dropWhile_cons_of_neg goes,
          List.dropWhile_cons_of_neg goes, rdropWhile_cons, if_neg (fun both => goes both.2)]

theorem rdropWhile_map {β : Type} {f : α → β} {q : β → Bool} (same : ∀ x, q (f x) = p x) (l : List α) :
    (l.map f).rdropWhile q = (l.rdropWhile p).map f := by
  have composed : q ∘ f = p := funext same
  rw [List.rdropWhile, ← List.map_reverse, List.dropWhile_map, composed, ← List.map_reverse]
  rfl

end ImapCache.Lib.Trimming
