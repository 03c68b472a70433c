import Mathlib.Data.List.Nodup
import Mathlib.Data.List.Infix

/-!
# Lists up to a key

Two values with the same key are one value in two spellings. A list can be extended with the values
that it does not have in any spelling, and what it has does not depend on how a value is spelled.
-/

namespace ImapCache.Lib.Keyed

variable {α β : Type} [DecidableEq β] (key : α → β)

/-- Whether a value is in a list, in any spelling. -/
def has (values : List α) (value : α) : Bool := values.any fun other => key other == key value

/-- Extend a list with the values that are new, each in its first spelling. -/
def add (values added : List α) : List α :=
  added.foldl (fun out value => if has key out value then out else out ++ [value]) values

variable {key}

theorem has_eq_true {values : List α} {value : α} :
    has key values value = true ↔ ∃ other ∈ values, key other = key value := by
  simp [has]

theorem has_iff_mem_map {values : List α} {value : α} :
    has key values value = true ↔ key value ∈ values.map key := by
  rw [has_eq_true, List.mem_map]

theorem has_of_mem {values : List α} {value : α} (member : value ∈ values) :
    has key values value = true :=
  has_eq_true.mpr ⟨value, member, rfl⟩

theorem has_congr {values : List α} {value other : α} (same : key value = key other) :
    has key values value = has key values other := by
  simp only [has, same]

theorem has_append (values others : List α) (value : α) :
    has key (values ++ others) value = (has key values value || has key others value) := by
  simp [has]

theorem has_filter {keep : α → Bool} (keeps : ∀ a b, key a = key b → keep a = keep b)
    (values : List α) (value : α) :
    has key (values.filter keep) value = (has key values value && keep value) := by
  rw [Bool.eq_iff_iff, Bool.and_eq_true, has_eq_true, has_eq_true]
  constructor
  · rintro ⟨other, member, same⟩
    obtain ⟨inValues, kept⟩ := List.mem_filter.mp member
    exact ⟨⟨other, inValues, same⟩, keeps other value same ▸ kept⟩
  · rintro ⟨⟨other, member, same⟩, kept⟩
    exact ⟨other, List.mem_filter.mpr ⟨member, (keeps other value same).trans kept⟩, same⟩

theorem add_cons (values added : List α) (value : α) :
    add key values (value :: added) =
      add key (if has key values value then values else values ++ [value]) added := rfl

variable (key) in
theorem add_eq_append (values added : List α) :
    ∃ fresh, add key values added = values ++ fresh ∧ fresh.Sublist added ∧
      ∀ value ∈ fresh, has key values value = false := by
  induction added generalizing values with
  | nil => exact ⟨[], (List.append_nil _).symm, List.Sublist.refl _, by simp⟩
  | cons first added ih =>
      rw [add_cons]
      cases known : has key values first with
      | true =>
          obtain ⟨fresh, result, sublist, new⟩ := ih values
          exact ⟨fresh, result, sublist.cons first, new⟩
      | false =>
          obtain ⟨fresh, result, sublist, new⟩ := ih (values ++ [first])
          refine ⟨first :: fresh, ?_, sublist.cons_cons first, ?_⟩
          · rw [if_neg (by decide), result, List.append_assoc]
            rfl
          · intro value member
            rcases List.mem_cons.mp member with rfl | member
            · exact known
            · have notThere := new value member
              rw [has_append, Bool.or_eq_false_iff] at notThere
              exact notThere.1

theorem has_add (values added : List α) (value : α) :
    has key (add key values added) value = (has key values value || has key added value) := by
  induction added generalizing values with
  | nil => simp [add, has]
  | cons first added ih =>
      have whole : has key (first :: added) value =
          ((key first == key value) || has key added value) := rfl
      rw [add_cons, ih, whole]
      cases known : has key values first with
      | false =>
          have single : has key [first] value = (key first == key value) := by simp [has]
          rw [if_neg (by decide), has_append, single, Bool.or_assoc]
      | true =>
          rw [if_pos rfl]
          by_cases same : key first = key value
          · rw [← has_congr same, known, Bool.true_or, Bool.true_or]
          · rw [beq_eq_false_iff_ne.mpr same, Bool.false_or]

theorem nodup_add {values : List α} (distinct : (values.map key).Nodup) (added : List α) :
    ((add key values added).map key).Nodup := by
  induction added generalizing values with
  | nil => exact distinct
  | cons first added ih =>
      rw [add_cons]
      cases known : has key values first with
      | true => exact ih distinct
      | false =>
          have new : key first ∉ values.map key := by
            rw [← has_iff_mem_map, known]
            decide
          apply ih
          rw [if_neg (by decide), List.map_append, List.nodup_append]
          refine ⟨distinct, List.nodup_singleton _, ?_⟩
          rintro other member _ isFirst rfl
          rw [List.map_singleton, List.mem_singleton] at isFirst
          exact new (isFirst ▸ member)

theorem add_of_has {values added : List α} (all : ∀ value ∈ added, has key values value = true) :
    add key values added = values := by
  induction added with
  | nil => rfl
  | cons first added ih =>
      rw [add_cons, if_pos (all first (List.mem_cons_self ..))]
      exact ih fun value member => all value (List.mem_cons_of_mem _ member)

end ImapCache.Lib.Keyed
