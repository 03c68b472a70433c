import Mathlib.Data.List.Basic
import Mathlib.Data.List.Pairwise

/-!
# Tables with a serial key and unique constraints

A table keeps its records under serial ids that are never handed out twice, and any two of its
records satisfy the table's constraint. An insertion or an update that would break the constraint
is refused, so that a table which breaks it cannot be built.
-/

namespace ImapCache.Lib

structure Row (α : Type) where
  id : Int
  data : α
deriving DecidableEq, Repr

/-- What any two records of a table must satisfy, such as having different keys. -/
structure Constraint (α : Type) where
  admits : α → α → Bool
  symm : ∀ a b, admits a b = true → admits b a = true

/-- The constraint of a table without unique keys. -/
def Constraint.free (α : Type) : Constraint α := ⟨fun _ _ => true, fun _ _ h => h⟩

/-- No two records share a key; records without a key never clash. -/
def Constraint.unique {α κ : Type} [DecidableEq κ] (key : α → Option κ) : Constraint α where
  admits a b := decide (key a = none ∨ key a ≠ key b)
  symm a b h := by
    simp only [decide_eq_true_eq] at h ⊢
    rcases h with h | h
    · by_cases hb : key b = none
      · exact Or.inl hb
      · exact Or.inr fun eq => hb (eq.trans h)
    · exact Or.inr fun eq => h eq.symm

def Constraint.and {α : Type} (c d : Constraint α) : Constraint α where
  admits a b := c.admits a b && d.admits a b
  symm a b h := by
    simp only [Bool.and_eq_true] at h ⊢
    exact ⟨c.symm a b h.1, d.symm a b h.2⟩

theorem Constraint.unique_admits {α κ : Type} [DecidableEq κ] {key : α → Option κ} {a b : α} :
    (Constraint.unique key).admits a b = true ↔ ∀ k, key a = some k → key b ≠ some k := by
  simp only [Constraint.unique, decide_eq_true_eq]
  constructor
  · rintro (none | ne) k ha hb
    · simp [none] at ha
    · exact ne (ha.trans hb.symm)
  · intro h
    cases ha : key a with
    | none => exact Or.inl rfl
    | some k => exact Or.inr fun eq => h k ha eq.symm

theorem Constraint.and_admits {α : Type} {c d : Constraint α} {a b : α} :
    (c.and d).admits a b = true ↔ c.admits a b = true ∧ d.admits a b = true := by
  simp [Constraint.and]

/-- Two records that may stand in one table. -/
def Separate {α : Type} (c : Constraint α) (a b : Row α) : Prop :=
  a.id ≠ b.id ∧ c.admits a.data b.data = true

instance {α : Type} (c : Constraint α) : DecidableRel (Separate c) :=
  fun _ _ => inferInstanceAs (Decidable (_ ∧ _))

instance {α : Type} (c : Constraint α) : Std.Symm (Separate c) where
  symm a b h := ⟨h.1.symm, c.symm a.data b.data h.2⟩

structure Table (α : Type) (c : Constraint α) where
  rows : List (Row α)
  nextId : Int
  fresh : ∀ row ∈ rows, row.id < nextId
  distinct : rows.Pairwise (Separate c)

namespace Table
variable {α : Type} {c : Constraint α}

def empty : Table α c := ⟨[], 1, by simp, List.Pairwise.nil⟩

def find (t : Table α c) (p : Row α → Bool) : Option (Row α) := t.rows.find? p

def insert (t : Table α c) (a : α) : Option (Row α × Table α c) :=
  if h : ∀ row ∈ t.rows, c.admits row.data a = true then
    some (⟨t.nextId, a⟩,
      { rows := t.rows ++ [⟨t.nextId, a⟩]
        nextId := t.nextId + 1
        fresh := by
          intro row member
          rcases List.mem_append.mp member with old | new
          · have := t.fresh row old
            omega
          · rw [List.mem_singleton.mp new]
            exact Int.lt_succ t.nextId
        distinct := by
          refine List.pairwise_append.mpr ⟨t.distinct, List.pairwise_singleton _ _, ?_⟩
          intro row member new newMember
          rw [List.mem_singleton.mp newMember]
          exact ⟨Int.ne_of_lt (t.fresh row member), h row member⟩ })
  else none

/-- The record a `modify` leaves behind. -/
def modified (p : Row α → Bool) (f : α → α) (row : Row α) : Row α :=
  if p row then { row with data := f row.data } else row

@[simp] theorem modified_id (p : Row α → Bool) (f : α → α) (row : Row α) :
    (modified p f row).id = row.id := by
  unfold modified
  split <;> rfl

def modify (t : Table α c) (p : Row α → Bool) (f : α → α) : Option (Table α c) :=
  if h : (t.rows.map (modified p f)).Pairwise (Separate c) then
    some
      { rows := t.rows.map (modified p f)
        nextId := t.nextId
        fresh := by
          intro row member
          obtain ⟨old, oldMember, rfl⟩ := List.mem_map.mp member
          simpa using t.fresh old oldMember
        distinct := h }
  else none

def remove (t : Table α c) (p : Row α → Bool) : Table α c where
  rows := t.rows.filter fun row => !p row
  nextId := t.nextId
  fresh row member := t.fresh row (List.mem_of_mem_filter member)
  distinct := t.distinct.filter _

/-- Insert a record, or update the one it conflicts with. -/
def upsert (t : Table α c) (conflicts : Row α → Bool) (update : α → α) (a : α) :
    Option (Row α × Table α c) :=
  match t.find conflicts with
  | some row =>
      (t.modify (fun r => r.id == row.id) update).map fun t' => (⟨row.id, update row.data⟩, t')
  | none => t.insert a

/-- The table that results from inserting records one after the other, those that are refused left
out. -/
def ofList (records : List α) : Table α c :=
  records.foldl (fun t a => ((t.insert a).map (·.2)).getD t) empty

/-! ## Rows determined by a key -/

theorem eq_of_id {t : Table α c} {a b : Row α} (ha : a ∈ t.rows) (hb : b ∈ t.rows)
    (same : a.id = b.id) : a = b := by
  by_contra ne
  exact (t.distinct.forall ha hb ne).1 same

theorem eq_of_clash {t : Table α c} {a b : Row α} (ha : a ∈ t.rows) (hb : b ∈ t.rows)
    (clash : c.admits a.data b.data = false) : a = b := by
  by_contra ne
  simp [(t.distinct.forall ha hb ne).2] at clash

theorem mem_of_find {t : Table α c} {p : Row α → Bool} {row : Row α} (h : t.find p = some row) :
    row ∈ t.rows ∧ p row = true :=
  ⟨List.mem_of_find?_eq_some h, List.find?_some h⟩

theorem find_none {t : Table α c} {p : Row α → Bool} :
    t.find p = none ↔ ∀ row ∈ t.rows, p row = false := by
  simp [find]

theorem find_eq_some {t : Table α c} {p : Row α → Bool} {row : Row α} (member : row ∈ t.rows)
    (sat : p row = true)
    (clash : ∀ other ∈ t.rows, p other = true → c.admits other.data row.data = false) :
    t.find p = some row := by
  cases h : t.find p with
  | none => simp [find_none.mp h row member] at sat
  | some found =>
      obtain ⟨foundMember, foundSat⟩ := mem_of_find h
      rw [eq_of_clash foundMember member (clash found foundMember foundSat)]

/-! ## What the operations do to the rows -/

theorem find_id {t : Table α c} {id : Int} {row : Row α} :
    t.find (·.id == id) = some row ↔ row ∈ t.rows ∧ row.id = id := by
  constructor
  · intro found
    obtain ⟨member, same⟩ := mem_of_find found
    exact ⟨member, by simpa using same⟩
  · rintro ⟨member, rfl⟩
    cases found : t.find (·.id == row.id) with
    | none => simpa using find_none.mp found row member
    | some other =>
        obtain ⟨otherMember, same⟩ := mem_of_find found
        rw [eq_of_id otherMember member (by simpa using same)]

theorem insert_eq_some {t t' : Table α c} {a : α} {row : Row α}
    (h : t.insert a = some (row, t')) :
    row = ⟨t.nextId, a⟩ ∧ t'.rows = t.rows ++ [⟨t.nextId, a⟩] ∧ t'.nextId = t.nextId + 1 ∧
      ∀ old ∈ t.rows, c.admits old.data a = true := by
  unfold insert at h
  split at h
  · rename_i admitted
    simp only [Option.some.injEq, Prod.mk.injEq] at h
    obtain ⟨rfl, rfl⟩ := h
    exact ⟨rfl, rfl, rfl, admitted⟩
  · cases h

theorem insert_eq_none {t : Table α c} {a : α} :
    t.insert a = none ↔ ∃ old ∈ t.rows, c.admits old.data a = false := by
  unfold insert
  split
  · rename_i admitted
    simp only [reduceCtorEq, false_iff, not_exists, not_and, Bool.not_eq_false]
    exact admitted
  · rename_i refused
    simpa using refused

theorem modify_eq_some {t t' : Table α c} {p : Row α → Bool} {f : α → α}
    (h : t.modify p f = some t') :
    t'.rows = t.rows.map (modified p f) ∧ t'.nextId = t.nextId := by
  unfold modify at h
  split at h
  · simp only [Option.some.injEq] at h
    subst h
    exact ⟨rfl, rfl⟩
  · cases h

theorem mem_modify {t t' : Table α c} {p : Row α → Bool} {f : α → α}
    (h : t.modify p f = some t') (row : Row α) :
    row ∈ t'.rows ↔ ∃ old ∈ t.rows, row = modified p f old := by
  rw [(modify_eq_some h).1, List.mem_map]
  exact exists_congr fun old => and_congr_right fun _ => eq_comm

theorem modify_none {t t' : Table α c} {p : Row α → Bool} {f : α → α}
    (h : t.modify p f = some t') (unmatched : t.find p = none) : t' = t := by
  obtain ⟨rows, nextId⟩ := modify_eq_some h
  have same : t.rows.map (modified p f) = t.rows := by
    refine (List.map_congr_left fun row member => ?_).trans (List.map_id _)
    simp [modified, find_none.mp unmatched row member]
  rw [same] at rows
  obtain ⟨_, _, _, _⟩ := t
  obtain ⟨_, _, _, _⟩ := t'
  simp only at rows nextId
  subst rows nextId
  rfl

theorem modify_isSome {t : Table α c} {p : Row α → Bool} {f : α → α}
    (keeps : ∀ a ∈ t.rows, ∀ b ∈ t.rows, a ≠ b →
      c.admits (modified p f a).data (modified p f b).data = true) :
    ∃ t', t.modify p f = some t' := by
  unfold modify
  split
  · exact ⟨_, rfl⟩
  · rename_i refused
    refine absurd (List.pairwise_map.mpr ?_) refused
    refine t.distinct.imp_of_mem fun {a b} ha hb separate => ⟨by simpa using separate.1, ?_⟩
    exact keeps a ha b hb fun eq => separate.1 (congrArg Row.id eq)

theorem modify_eq_none {t : Table α c} {p : Row α → Bool} {f : α → α}
    (h : t.modify p f = none) : ∃ a ∈ t.rows, ∃ b ∈ t.rows, a ≠ b ∧
      c.admits (modified p f a).data (modified p f b).data = false := by
  by_contra admitted
  push Not at admitted
  obtain ⟨t', success⟩ := modify_isSome (t := t) (p := p) (f := f) fun a ha b hb ne => by
    simpa using admitted a ha b hb ne
  simp [h] at success

theorem modify_of_keeps (t : Table α c) (p : Row α → Bool) {f : α → α}
    (keeps : ∀ a b, c.admits (f a) b = c.admits a b) : ∃ t', t.modify p f = some t' := by
  have comm : ∀ a b, c.admits a b = c.admits b a := fun a b =>
    Bool.eq_iff_iff.mpr ⟨c.symm a b, c.symm b a⟩
  have first : ∀ row b, c.admits (modified p f row).data b = c.admits row.data b := by
    intro row b
    unfold modified
    split
    · exact keeps row.data b
    · rfl
  apply modify_isSome
  intro a ha b hb ne
  rw [first, comm, first, comm]
  exact (t.distinct.forall ha hb ne).2

theorem upsert_eq_none {t : Table α c} {conflicts : Row α → Bool} {update : α → α} {a : α}
    (h : t.upsert conflicts update a = none) :
    (∃ old, t.find conflicts = some old ∧
      ∃ other ∈ t.rows, other ≠ old ∧ c.admits other.data (update old.data) = false) ∨
    (t.find conflicts = none ∧ ∃ other ∈ t.rows, c.admits other.data a = false) := by
  unfold upsert at h
  split at h
  · rename_i old found
    obtain ⟨oldMember, -⟩ := mem_of_find found
    simp only [Option.map_eq_none_iff] at h
    obtain ⟨x, hx, y, hy, ne, clash⟩ := modify_eq_none h
    have apart : c.admits x.data y.data = true := (t.distinct.forall hx hy ne).2
    refine Or.inl ⟨old, found, ?_⟩
    by_cases first : x.id = old.id
    · obtain rfl := eq_of_id hx oldMember first
      have second : y.id ≠ x.id := fun same => ne (eq_of_id hx hy same.symm)
      refine ⟨y, hy, ne.symm, ?_⟩
      rw [← Bool.not_eq_true]
      intro admits
      simp [modified, second, c.symm _ _ admits] at clash
    · by_cases second : y.id = old.id
      · obtain rfl := eq_of_id hy oldMember second
        exact ⟨x, hx, ne, by simpa [modified, first] using clash⟩
      · simp [modified, first, second, apart] at clash
  · rename_i none
    exact Or.inr ⟨none, insert_eq_none.mp h⟩

theorem mem_upsert {t t' : Table α c} {conflicts : Row α → Bool} {update : α → α} {a : α}
    {row : Row α} (h : t.upsert conflicts update a = some (row, t'))
    (single : ∀ x ∈ t.rows, ∀ y ∈ t.rows, conflicts x = true → conflicts y = true → x = y)
    (other : Row α) :
    other ∈ t'.rows ↔ other = row ∨ (other ∈ t.rows ∧ conflicts other = false) := by
  unfold upsert at h
  split at h
  · rename_i old found
    obtain ⟨oldMember, oldConflicts⟩ := mem_of_find found
    simp only [Option.map_eq_some_iff, Prod.mk.injEq] at h
    obtain ⟨modifiedTable, success, rfl, rfl⟩ := h
    rw [mem_modify success]
    constructor
    · rintro ⟨source, sourceMember, rfl⟩
      by_cases same : source.id = old.id
      · obtain rfl := eq_of_id sourceMember oldMember same
        simp [modified]
      · refine Or.inr ⟨by simpa [modified, same] using sourceMember, ?_⟩
        simp only [modified, beq_iff_eq, same, if_false]
        by_contra conflict
        simp only [Bool.not_eq_false] at conflict
        exact same (congrArg Row.id (single source sourceMember old oldMember conflict oldConflicts))
    · rintro (rfl | ⟨member, free⟩)
      · exact ⟨old, oldMember, by simp [modified]⟩
      · refine ⟨other, member, ?_⟩
        have ne : other.id ≠ old.id := fun same => by
          rw [eq_of_id member oldMember same, oldConflicts] at free
          cases free
        simp [modified, ne]
  · rename_i none
    obtain ⟨rfl, rows, -, -⟩ := insert_eq_some h
    rw [rows, List.mem_append, List.mem_singleton, or_comm]
    refine or_congr_right ⟨fun member => ⟨member, find_none.mp none other member⟩, And.left⟩

theorem upsert_row {t t' : Table α c} {conflicts : Row α → Bool} {update : α → α} {a : α}
    {row : Row α} (h : t.upsert conflicts update a = some (row, t')) :
    (∃ old, t.find conflicts = some old ∧ row = ⟨old.id, update old.data⟩) ∨
      (t.find conflicts = none ∧ row = ⟨t.nextId, a⟩) := by
  unfold upsert at h
  split at h
  · rename_i old found
    simp only [Option.map_eq_some_iff, Prod.mk.injEq] at h
    obtain ⟨_, _, rfl, _⟩ := h
    exact Or.inl ⟨old, found, rfl⟩
  · rename_i none
    exact Or.inr ⟨none, (insert_eq_some h).1⟩

@[simp] theorem mem_remove {t : Table α c} {p : Row α → Bool} {row : Row α} :
    row ∈ (t.remove p).rows ↔ row ∈ t.rows ∧ p row = false := by
  simp [remove]

end Table
end ImapCache.Lib
