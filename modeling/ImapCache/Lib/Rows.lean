import ImapCache.Lib.Table

/-!
# One row of a table

What removing or updating a single row, selected by its id, does to the list of the rows.
-/

namespace ImapCache.Lib.Table
variable {α : Type} {c : Constraint α} {t t' : Table α c} {row : Row α}

theorem apart_of_split {before after : List (Row α)} (split : t.rows = before ++ row :: after) :
    ∀ other ∈ before ++ after, other.id ≠ row.id := by
  intro other otherMember same
  have distinct := t.distinct
  rw [split] at distinct
  obtain ⟨-, tail, across⟩ := List.pairwise_append.mp distinct
  rcases List.mem_append.mp otherMember with left | right
  · exact (across other left row (List.mem_cons_self ..)).1 same
  · exact ((List.pairwise_cons.mp tail).1 other right).1 same.symm

theorem remove_split {before after : List (Row α)} (split : t.rows = before ++ row :: after) :
    (t.remove (·.id == row.id)).rows = before ++ after := by
  have others : (before ++ after).filter (fun other => !(other.id == row.id)) = before ++ after := by
    refine List.filter_eq_self.mpr fun other member => ?_
    simpa using apart_of_split split other member
  change t.rows.filter (fun other => !(other.id == row.id)) = before ++ after
  rw [split]
  simp only [List.filter_append, List.filter_cons, beq_self_eq_true, Bool.not_true, Bool.false_eq_true,
    if_false] at others ⊢
  exact others

theorem modify_split {before after : List (Row α)} {f : α → α} (split : t.rows = before ++ row :: after)
    (changed : t.modify (·.id == row.id) f = some t') :
    t'.rows = before ++ ⟨row.id, f row.data⟩ :: after := by
  have kept (others : List (Row α)) (within : ∀ other ∈ others, other ∈ before ++ after) :
      others.map (modified (·.id == row.id) f) = others := by
    refine (List.map_congr_left fun other member => ?_).trans (List.map_id _)
    simp [modified, apart_of_split split other (within other member)]
  have here : modified (·.id == row.id) f row = ⟨row.id, f row.data⟩ := by simp [modified]
  rw [(modify_eq_some changed).1, split, List.map_append, List.map_cons, here,
    kept before fun _ => List.mem_append_left _, kept after fun _ => List.mem_append_right _]

theorem filter_id (t : Table α c) (p : Row α → Bool) (id : Int) :
    t.rows.filter (fun row => p row && row.id == id) = ((t.find (·.id == id)).filter p).toList := by
  cases found : t.find (·.id == id) with
  | none =>
      rw [List.filter_eq_nil_iff.mpr fun row member => by simp [find_none.mp found row member]]
      rfl
  | some row =>
      obtain ⟨same, before, after, split, -⟩ := List.find?_eq_some_iff_append.mp found
      have id_eq : row.id = id := by simpa using same
      have none (others : List (Row α)) (within : ∀ other ∈ others, other ∈ before ++ after) :
          others.filter (fun row => p row && row.id == id) = [] := by
        refine List.filter_eq_nil_iff.mpr fun other member => ?_
        have apart := apart_of_split split other (within other member)
        rw [id_eq] at apart
        simp [apart]
      rw [split, List.filter_append, List.filter_cons, none before fun _ => List.mem_append_left _,
        none after fun _ => List.mem_append_right _]
      cases holds : p row <;> simp [holds, id_eq, Option.filter]

theorem nodup (t : Table α c) : t.rows.Nodup :=
  t.distinct.imp fun separate same => separate.1 (congrArg Row.id same)

theorem remove_none {p : Row α → Bool} (unmatched : t.find p = none) : t.remove p = t := by
  have kept : t.rows.filter (fun row => !p row) = t.rows :=
    List.filter_eq_self.mpr fun row member => by simp [find_none.mp unmatched row member]
  obtain ⟨rows, nextId, fresh, distinct⟩ := t
  unfold remove
  simp only at kept ⊢
  congr

end ImapCache.Lib.Table
