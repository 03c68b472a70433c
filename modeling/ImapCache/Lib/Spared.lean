import ImapCache.Lib.Table

/-!
# Records that a change spares

A change of a table spares the records that satisfy `p` if the same of them are there afterwards.
-/

namespace ImapCache.Lib.Table
variable {α : Type} {c : Constraint α}

def Spares (p : Row α → Prop) (t t' : Table α c) : Prop := ∀ row, p row → (row ∈ t'.rows ↔ row ∈ t.rows)

variable {p : Row α → Prop} {t t' t'' : Table α c}

theorem Spares.refl (t : Table α c) : Spares p t t := fun _ _ => Iff.rfl

theorem Spares.of_eq (same : t' = t) : Spares p t t' := by
  rw [same]
  exact .refl t

theorem Spares.trans (first : Spares p t t') (second : Spares p t' t'') : Spares p t t'' :=
  fun row spared => (second row spared).trans (first row spared)

theorem Spares.mono {q : Row α → Prop} (spares : Spares q t t') (implies : ∀ row, p row → q row) :
    Spares p t t' := fun row spared => spares row (implies row spared)

theorem spares_insert {a : α} {row : Row α} (inserted : t.insert a = some (row, t')) (own : ¬ p row) :
    Spares p t t' := by
  intro other spared
  obtain ⟨rfl, rows, -⟩ := insert_eq_some inserted
  rw [rows, List.mem_append, List.mem_singleton, or_iff_left]
  rintro rfl
  exact own spared

theorem spares_modify {q : Row α → Bool} {f : α → α} (modified' : t.modify q f = some t')
    (own : ∀ row ∈ t.rows, q row = true → ¬ p row ∧ ¬ p ⟨row.id, f row.data⟩) : Spares p t t' := by
  intro other spared
  rw [mem_modify modified']
  constructor
  · rintro ⟨row, member, rfl⟩
    by_cases selected : q row = true
    · rw [modified, if_pos selected] at spared
      exact absurd spared (own row member selected).2
    · rwa [modified, if_neg selected]
  · intro member
    refine ⟨other, member, ?_⟩
    rw [modified, if_neg fun selected => (own other member selected).1 spared]

theorem spares_remove {q : Row α → Bool} (own : ∀ row ∈ t.rows, q row = true → ¬ p row) :
    Spares p t (t.remove q) := by
  intro other spared
  rw [mem_remove, and_iff_left_iff_imp]
  intro member
  rw [← Bool.not_eq_true]
  exact fun selected => own other member selected spared

theorem spares_upsert {conflicts : Row α → Bool} {update : α → α} {a : α} {row : Row α}
    (upserted : t.upsert conflicts update a = some (row, t'))
    (own : ∀ row ∈ t.rows, conflicts row = true → ¬ p row) (new : ¬ p row) : Spares p t t' := by
  unfold upsert at upserted
  split at upserted
  · rename_i old found
    simp only [Option.map_eq_some_iff, Prod.mk.injEq] at upserted
    obtain ⟨table, success, rfl, rfl⟩ := upserted
    obtain ⟨oldMember, oldConflicts⟩ := mem_of_find found
    refine spares_modify success fun other member same => ?_
    obtain rfl := Table.eq_of_id member oldMember (by simpa using same)
    exact ⟨own other member oldConflicts, new⟩
  · exact spares_insert upserted new

end ImapCache.Lib.Table
