import ImapCache.Lib.System
import ImapCache.Lib.Table

/-!
# Serial ids over runs

A serial id is handed out once. A column that no statement changes is therefore the same in every row
that has had the id, in whichever two states of a run.
-/

namespace ImapCache.Lib

namespace Table
variable {α β : Type} {c : Constraint α}

/-- The second table is a later state of the first: it has handed out only new ids, and left the column of
every record as it was. -/
structure Succeeds (column : α → β) (t t' : Table α c) : Prop where
  nextId : t.nextId ≤ t'.nextId
  rows : ∀ row' ∈ t'.rows, t.nextId ≤ row'.id ∨
    ∃ row ∈ t.rows, row.id = row'.id ∧ column row.data = column row'.data

variable {column : α → β} {t t' t'' : Table α c}

theorem Succeeds.refl (t : Table α c) : Succeeds column t t :=
  ⟨Int.le_refl _, fun row member => .inr ⟨row, member, rfl, rfl⟩⟩

theorem Succeeds.of_eq (same : t' = t) : Succeeds column t t' := by
  rw [same]
  exact .refl t

theorem Succeeds.trans (first : Succeeds column t t') (second : Succeeds column t' t'') :
    Succeeds column t t'' where
  nextId := Int.le_trans first.nextId second.nextId
  rows row'' member := by
    rcases second.rows row'' member with new | ⟨row', member', id, kept⟩
    · exact .inl (Int.le_trans first.nextId new)
    · rcases first.rows row' member' with new | ⟨row, old, id', kept'⟩
      · exact .inl (id ▸ new)
      · exact .inr ⟨row, old, id'.trans id, kept'.trans kept⟩

theorem Succeeds.eq_of_id (succeeds : Succeeds column t t') {row row' : Row α} (member : row ∈ t.rows)
    (member' : row' ∈ t'.rows) (same : row.id = row'.id) : column row.data = column row'.data := by
  rcases succeeds.rows row' member' with new | ⟨old, oldMember, id, kept⟩
  · have fresh := t.fresh row member
    omega
  · obtain rfl := Table.eq_of_id member oldMember (same.trans id.symm)
    exact kept

theorem succeeds_insert {a : α} {row : Row α} (inserted : t.insert a = some (row, t')) :
    Succeeds column t t' := by
  obtain ⟨-, rows, nextId, -⟩ := insert_eq_some inserted
  refine ⟨by omega, fun row' member => ?_⟩
  rw [rows] at member
  rcases List.mem_append.mp member with old | new
  · exact .inr ⟨row', old, rfl, rfl⟩
  · rw [List.mem_singleton.mp new]
    exact .inl (Int.le_refl _)

theorem succeeds_modify {p : Row α → Bool} {f : α → α} (modified' : t.modify p f = some t')
    (keeps : ∀ row ∈ t.rows, p row = true → column (f row.data) = column row.data) :
    Succeeds column t t' := by
  refine ⟨Int.le_of_eq (modify_eq_some modified').2.symm, fun row' member => ?_⟩
  obtain ⟨row, old, rfl⟩ := (mem_modify modified' row').mp member
  refine .inr ⟨row, old, (modified_id ..).symm, ?_⟩
  unfold modified
  split
  · rename_i selected
    exact (keeps row old selected).symm
  · rfl

theorem succeeds_remove (p : Row α → Bool) : Succeeds column t (t.remove p) :=
  ⟨Int.le_refl _, fun row member => .inr ⟨row, List.mem_of_mem_filter member, rfl, rfl⟩⟩

theorem succeeds_upsert {conflicts : Row α → Bool} {update : α → α} {a : α} {row : Row α}
    (upserted : t.upsert conflicts update a = some (row, t'))
    (keeps : ∀ row ∈ t.rows, conflicts row = true → column (update row.data) = column row.data) :
    Succeeds column t t' := by
  unfold upsert at upserted
  split at upserted
  · rename_i old found
    simp only [Option.map_eq_some_iff, Prod.mk.injEq] at upserted
    obtain ⟨table, success, -, rfl⟩ := upserted
    obtain ⟨oldMember, oldConflicts⟩ := mem_of_find found
    refine succeeds_modify success fun other member same => ?_
    obtain rfl := Table.eq_of_id member oldMember (by simpa using same)
    exact keeps other member oldConflicts
  · exact succeeds_insert upserted

end Table

namespace System
variable {σ : Signature} {S α β : Type} {sys : System σ S} {c : Constraint α}

/-- The state before or after the transition. -/
def Transition.Passes (t : Transition sys) (s : S) : Prop := s = t.before.state ∨ s = t.after.state

section Columns
variable {table : S → Table α c} {column : α → β}
variable (answers : ∀ fault op s, (table s).Succeeds column (table (sys.handler.answer fault op s).2))
  (disturbs : ∀ change s, (table s).Succeeds column (table (sys.disturb change s)))
include answers disturbs

theorem Step.succeeds {before after : Config sys} {event : Event sys} (step : Step before event after) :
    (table before.state).Succeeds column (table after.state) := by
  cases step with
  | call fault here => exact answers _ _ _
  | disturb change => exact disturbs _ _
  | _ => exact .refl _

theorem Run.succeeds {start last : Config sys} {trace : List (Transition sys)} (run : Run start trace last) :
    ∀ t ∈ trace, ∀ s, t.Passes s → (table s).Succeeds column (table last.state) := by
  induction run with
  | start => exact fun t member => absurd member List.not_mem_nil
  | step run step ih =>
      intro t member s passes
      rcases List.mem_cons.mp member with rfl | older
      · rcases passes with rfl | rfl
        · exact step.succeeds answers disturbs
        · exact .refl _
      · exact (ih t older s passes).trans (step.succeeds answers disturbs)

/-- The column of an id is the same in any two states of a run. -/
theorem Run.column_eq {start last : Config sys} {trace : List (Transition sys)} (run : Run start trace last)
    {t t' : Transition sys} (member : t ∈ trace) (member' : t' ∈ trace) {s s' : S} (passes : t.Passes s)
    (passes' : t'.Passes s') {row row' : Row α} (here : row ∈ (table s).rows) (there : row' ∈ (table s').rows)
    (same : row.id = row'.id) : column row.data = column row'.data := by
  induction run with
  | start => exact absurd member List.not_mem_nil
  | @step trace older event last run step ih =>
      have earlier {t : Transition sys} (member : t ∈ trace) {s : S} (passes : t.Passes s) {s' : S}
          (passes' : s' = older.state ∨ s' = last.state) : (table s).Succeeds column (table s') := by
        have first := run.succeeds answers disturbs t member s passes
        rcases passes' with rfl | rfl
        · exact first
        · exact first.trans (step.succeeds answers disturbs)
      rcases List.mem_cons.mp member with rfl | before <;> rcases List.mem_cons.mp member' with rfl | before'
      · have stepped := step.succeeds answers disturbs
        rcases passes with rfl | rfl <;> rcases passes' with rfl | rfl
        · exact (Table.Succeeds.refl _).eq_of_id here there same
        · exact stepped.eq_of_id here there same
        · exact (stepped.eq_of_id there here same.symm).symm
        · exact (Table.Succeeds.refl _).eq_of_id here there same
      · exact ((earlier before' passes' passes).eq_of_id there here same.symm).symm
      · exact (earlier before passes passes').eq_of_id here there same
      · exact ih before before'

end Columns

/-- What no call and no disturbance changes is the same in every state of a run. -/
theorem Run.constant {f : S → β} (answers : ∀ fault op s, f (sys.handler.answer fault op s).2 = f s)
    (disturbs : ∀ change s, f (sys.disturb change s) = f s) {start last : Config sys}
    {trace : List (Transition sys)} (run : Run start trace last) :
    ∀ t ∈ trace, ∀ s, t.Passes s → f s = f start.state := by
  have after : f last.state = f start.state ∧ ∀ t ∈ trace, ∀ s, t.Passes s → f s = f start.state := by
    induction run with
    | start => exact ⟨rfl, fun t member => absurd member List.not_mem_nil⟩
    | @step trace older event last run step ih =>
        have same : f last.state = f older.state := by
          cases step with
          | call fault here => exact answers _ _ _
          | disturb change => exact disturbs _ _
          | _ => rfl
        refine ⟨same.trans ih.1, fun t member s passes => ?_⟩
        rcases List.mem_cons.mp member with rfl | before
        · rcases passes with rfl | rfl
          · exact ih.1
          · exact same.trans ih.1
        · exact ih.2 t before s passes
  exact after.2

end System
end ImapCache.Lib
