import Mathlib.Data.List.Infix
import ImapCache.Lib.Slice
import ImapCache.Lib.Trimming

/-!
# Occurrences

Where a list has another one in it: an occurrence does not start before its first item can, and trimming
the end of a list takes no occurrence away that ends with an item that stays.
-/

namespace ImapCache.Lib
variable {α : Type}

namespace Occurrences

theorem infix_append_iff {first : α} {pattern before : List α} (absent : first ∉ before) (after : List α) :
    first :: pattern <:+: before ++ after ↔ first :: pattern <:+: after := by
  induction before with
  | nil => rfl
  | cons x before ih =>
      rw [List.mem_cons, not_or] at absent
      rw [List.cons_append, List.infix_cons_iff, ih absent.2]
      refine or_iff_right fun starts => absent.1 ?_
      exact (List.cons_prefix_cons.mp starts).1

theorem prefix_separated_iff {separator : α} {a b : List α} (left : separator ∉ a) (right : separator ∉ b)
    (rest : List α) : a ++ [separator] <+: b ++ separator :: rest ↔ a = b := by
  constructor
  · intro starts
    induction a generalizing b with
    | nil =>
        cases b with
        | nil => rfl
        | cons y b =>
            have same : separator = y := (List.cons_prefix_cons.mp starts).1
            exact absurd (same ▸ List.mem_cons_self) right
    | cons x a ih =>
        rw [List.mem_cons, not_or] at left
        cases b with
        | nil => exact absurd (List.cons_prefix_cons.mp starts).1.symm left.1
        | cons y b =>
            rw [List.mem_cons, not_or] at right
            obtain ⟨rfl, others⟩ := List.cons_prefix_cons.mp starts
            rw [ih left.2 right.2 others]
  · rintro rfl
    exact ⟨rest, by simp⟩

theorem infix_rdropWhile_iff {p : α → Bool} {pattern : List α} {last : α} (stays : p last = false)
    (l : List α) : pattern ++ [last] <:+: l.rdropWhile p ↔ pattern ++ [last] <:+: l := by
  constructor
  · exact fun inside => inside.trans (List.rdropWhile_prefix p l).isInfix
  · rintro ⟨before, after, rfl⟩
    have kept : (before ++ (pattern ++ [last])).rdropWhile p = before ++ (pattern ++ [last]) := by
      rw [← List.append_assoc]
      exact List.rdropWhile_concat_neg p _ last (by simp [stays])
    rw [Trimming.rdropWhile_append, kept]
    split
    · exact ⟨before, [], by simp⟩
    · exact ⟨before, after.rdropWhile p, rfl⟩

theorem exists_first {pattern l : List α} (some : pattern ≠ []) (inside : pattern <:+: l) :
    ∃ before after, l = before ++ (pattern ++ after) ∧ ¬ pattern <:+: before ++ pattern.dropLast := by
  induction l with
  | nil => exact absurd (List.infix_nil.mp inside) some
  | cons x l ih =>
      by_cases starts : pattern <+: x :: l
      · obtain ⟨after, split⟩ := starts
        refine ⟨[], after, split.symm, fun shorter => ?_⟩
        have length := shorter.length_le
        have positive := List.length_pos_of_ne_nil some
        rw [List.nil_append, List.length_dropLast] at length
        omega
      · obtain ⟨before, after, rfl, first⟩ := ih ((List.infix_cons_iff.mp inside).resolve_left starts)
        refine ⟨x :: before, after, rfl, fun earlier => ?_⟩
        rcases List.infix_cons_iff.mp earlier with here | later
        · have beginning : x :: (before ++ pattern.dropLast) <+: x :: (before ++ (pattern ++ after)) := by
            rw [List.cons_prefix_cons, List.prefix_append_right_inj]
            exact ⟨rfl, (List.dropLast_prefix pattern).trans (List.prefix_append pattern after)⟩
          exact starts (here.trans beginning)
        · exact first later

end Occurrences

namespace Slice

theorem findOffset_append {p : List Char → Bool} {before after : List Char}
    (none : ∀ a b, before = a ++ b → b ≠ [] → p (b ++ after) = false) (here : p after = true) :
    findOffset p (before ++ after) = some (byteLength before) := by
  induction before with
  | nil => cases after <;> simp [findOffset, here]
  | cons c before ih =>
      have notHere : p (c :: (before ++ after)) = false := none [] (c :: before) rfl (List.cons_ne_nil _ _)
      have later := ih fun a b split nonempty => none (c :: a) b (by rw [split, List.cons_append]) nonempty
      rw [List.cons_append, findOffset, if_neg (by simp [notHere]), later, byteLength_cons]
      rfl

theorem findOffset_isSome_iff (p : List Char → Bool) (text : List Char) :
    (findOffset p text).isSome = true ↔ ∃ before after, text = before ++ after ∧ p after = true := by
  constructor
  · intro found
    obtain ⟨offset, isOffset⟩ := Option.isSome_iff_exists.mp found
    obtain ⟨before, after, split, -, holds⟩ := findOffset_eq_some isOffset
    exact ⟨before, after, split, holds⟩
  · rintro ⟨before, after, rfl, holds⟩
    induction before with
    | nil => cases after <;> simp [findOffset, holds]
    | cons c before ih =>
        rw [List.cons_append, findOffset]
        split
        · rfl
        · rw [Option.isSome_map]
          exact ih

/-- The predicate that looks for a text finds its occurrences. -/
theorem findOffset_infix_iff (text pattern : List Char) :
    (findOffset (fun rest => pattern.isPrefixOf rest) text).isSome = true ↔ pattern <:+: text := by
  rw [findOffset_isSome_iff]
  constructor
  · rintro ⟨before, after, rfl, starts⟩
    exact (List.isPrefixOf_iff_prefix.mp starts).isInfix.trans (List.suffix_append before after).isInfix
  · rintro ⟨before, after, rfl⟩
    exact ⟨before, pattern ++ after, by simp, List.isPrefixOf_iff_prefix.mpr (List.prefix_append _ _)⟩

theorem findOffset_last {c : Char} (before : List Char) {after : List Char} (absent : c ∉ after) :
    findOffset (fun rest => rest.head? == some c && !rest.tail.contains c) (before ++ c :: after) =
      some (byteLength before) := by
  refine findOffset_append ?_ ?_
  · intro a b _ nonempty
    cases b with
    | nil => exact absurd rfl nonempty
    | cons d b => simp
  · simp [absent]

theorem findOffset_first {pattern before : List Char} (_ : pattern ≠ [])
    (first : ¬ pattern <:+: before ++ pattern.dropLast) (after : List Char) :
    findOffset (fun rest => pattern.isPrefixOf rest) (before ++ (pattern ++ after)) =
      Option.some (byteLength before) := by
  refine findOffset_append ?_ (List.isPrefixOf_iff_prefix.mpr (List.prefix_append _ _))
  rintro a b rfl nonempty
  by_contra starts
  rw [Bool.not_eq_false, List.isPrefixOf_iff_prefix] at starts
  have beginning : b ++ pattern.dropLast <+: b ++ (pattern ++ after) := by
    rw [List.prefix_append_right_inj]
    exact (List.dropLast_prefix pattern).trans (List.prefix_append pattern after)
  have length : pattern.length ≤ (b ++ pattern.dropLast).length := by
    have positive := List.length_pos_of_ne_nil nonempty
    rw [List.length_append, List.length_dropLast]
    omega
  have inside : pattern <+: b ++ pattern.dropLast := List.prefix_of_prefix_length_le starts beginning length
  rw [List.append_assoc] at first
  exact first (inside.isInfix.trans (List.suffix_append a _).isInfix)

end Slice
end ImapCache.Lib
