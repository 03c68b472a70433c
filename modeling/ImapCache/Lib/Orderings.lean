import Mathlib.Data.List.Sort

/-!
# Sorting by comparisons

A comparison that is oriented and transitive gives a total preorder to sort by. Several comparisons are
put together by asking the next one where the one before finds no difference.
-/

namespace ImapCache.Lib.Orderings

variable {α : Type}

/-- Whether a value may stand before another. -/
abbrev Before (cmp : α → α → Ordering) (a b : α) : Prop := (cmp a b).isLE = true

section
variable (cmp : α → α → Ordering)

instance [Std.OrientedCmp cmp] : Std.Total (Before cmp) where
  total a b := by
    have swap : cmp b a = (cmp a b).swap := Std.OrientedCmp.eq_swap
    unfold Before
    rw [swap]
    cases cmp a b <;> decide

instance [Std.TransCmp cmp] : IsTrans α (Before cmp) where
  trans _ _ _ first second := Std.TransCmp.isLE_trans first second

end

/-- The first comparison that finds a difference decides. -/
def lexicographic (comparisons : List (α → α → Ordering)) : α → α → Ordering :=
  comparisons.foldr compareLex fun _ _ => .eq

theorem lexicographic_transitive {comparisons : List (α → α → Ordering)}
    (transitive : ∀ cmp ∈ comparisons, Std.TransCmp cmp) : Std.TransCmp (lexicographic comparisons) := by
  induction comparisons with
  | nil => exact { eq_swap := rfl, isLE_trans := fun _ _ => rfl }
  | cons cmp comparisons ih =>
      have first := transitive cmp (List.mem_cons_self ..)
      have others := ih fun other member => transitive other (List.mem_cons_of_mem _ member)
      exact inferInstanceAs (Std.TransCmp (compareLex cmp (lexicographic comparisons)))

end ImapCache.Lib.Orderings
