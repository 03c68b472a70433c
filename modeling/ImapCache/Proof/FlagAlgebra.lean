import ImapCache.Lib.Keyed
import ImapCache.Model.FlagCommands

/-!
# The flags after a STORE

As sets of flags in any letter case, STORE replaces, unites or subtracts. What it keeps of the current
flags it keeps as they were spelled, unless it replaces: then a flag that stays takes the spelling and
the place that it has in the request.
-/

namespace ImapCache.FlagAlgebra
open Lib Commands Protocol

/-- Whether a flag is in a list, in any letter case. -/
def hasFlag (flags : List String) (flag : String) : Bool := Keyed.has toAsciiLowercase flags flag

def Distinct (flags : List String) : Prop := (flags.map toAsciiLowercase).Nodup

/-- What a list has of the current flags it has in their spelling and order. -/
def KeepsSpelling (current stored : List String) : Prop :=
  stored.filter (hasFlag current) = current.filter (hasFlag stored)

theorem hasFlag_of_mem {flags : List String} {flag : String} (member : flag ∈ flags) :
    hasFlag flags flag = true :=
  Keyed.has_of_mem member

variable (current requested : List String)

theorem remove_eq : applyStoreFlags current .remove requested =
    current.filter fun flag => !hasFlag requested flag := by
  refine List.filter_congr fun flag _ => congrArg not (List.any_congr rfl fun other => ?_)
  exact Bool.beq_comm ..

theorem requested_congr (a b : String) (same : toAsciiLowercase a = toAsciiLowercase b) :
    (!hasFlag requested a) = !hasFlag requested b :=
  congrArg not (Keyed.has_congr same)

theorem has_replace (flag : String) :
    hasFlag (applyStoreFlags current .replace requested) flag = hasFlag requested flag := by
  change Keyed.has _ (Keyed.add _ [] requested) flag = _
  rw [Keyed.has_add]
  rfl

theorem has_add (flag : String) : hasFlag (applyStoreFlags current .add requested) flag =
    (hasFlag current flag || hasFlag requested flag) :=
  Keyed.has_add current requested flag

theorem has_remove (flag : String) : hasFlag (applyStoreFlags current .remove requested) flag =
    (hasFlag current flag && !hasFlag requested flag) := by
  rw [remove_eq]
  exact Keyed.has_filter (requested_congr requested) current flag

theorem distinct_store (mode : StoreMode) (distinct : Distinct current) :
    Distinct (applyStoreFlags current mode requested) := by
  cases mode with
  | replace => exact Keyed.nodup_add (by simp) requested
  | add => exact Keyed.nodup_add distinct requested
  | remove =>
      rw [remove_eq]
      exact distinct.sublist (List.filter_sublist.map _)

theorem keepsSpelling_add : KeepsSpelling current (applyStoreFlags current .add requested) := by
  obtain ⟨fresh, stored, -, new⟩ := Keyed.add_eq_append toAsciiLowercase current requested
  change applyStoreFlags current .add requested = current ++ fresh at stored
  have kept : current.filter (hasFlag current) = current :=
    List.filter_eq_self.mpr fun flag member => hasFlag_of_mem member
  have dropped : fresh.filter (hasFlag current) = [] :=
    List.filter_eq_nil_iff.mpr fun flag member => by simp [hasFlag, new flag member]
  have all : current.filter (hasFlag (applyStoreFlags current .add requested)) = current :=
    List.filter_eq_self.mpr fun flag member => by
      rw [has_add, hasFlag_of_mem member, Bool.true_or]
  rw [KeepsSpelling, all, stored, List.filter_append, kept, dropped, List.append_nil]

theorem keepsSpelling_remove : KeepsSpelling current (applyStoreFlags current .remove requested) := by
  have all : (applyStoreFlags current .remove requested).filter (hasFlag current) =
      applyStoreFlags current .remove requested :=
    List.filter_eq_self.mpr fun flag member =>
      hasFlag_of_mem (List.mem_of_mem_filter (remove_eq current requested ▸ member))
  have kept : ∀ flag ∈ current, hasFlag (applyStoreFlags current .remove requested) flag =
      !hasFlag requested flag := by
    intro flag member
    rw [has_remove, hasFlag_of_mem member, Bool.true_and]
  rw [KeepsSpelling, all, List.filter_congr kept, remove_eq]

theorem replace_sublist : (applyStoreFlags current .replace requested).Sublist requested := by
  obtain ⟨fresh, stored, sublist, -⟩ := Keyed.add_eq_append toAsciiLowercase [] requested
  change applyStoreFlags current .replace requested = fresh at stored
  rw [stored]
  exact sublist

theorem store_again (mode : StoreMode) :
    applyStoreFlags (applyStoreFlags current mode requested) mode requested =
      applyStoreFlags current mode requested := by
  cases mode with
  | replace => rfl
  | add =>
      refine Keyed.add_of_has fun flag member => ?_
      change hasFlag (applyStoreFlags current .add requested) flag = true
      rw [has_add, hasFlag_of_mem member, Bool.or_true]
  | remove =>
      rw [remove_eq, List.filter_eq_self]
      intro flag member
      rw [remove_eq] at member
      exact (List.mem_filter.mp member).2

/-- STORE on flags as sets, on repetitions, on the spelling of what is kept, and twice. -/
theorem store_flags_algebra (mode : StoreMode) :
    (∀ flag, hasFlag (applyStoreFlags current mode requested) flag =
      match mode with
      | .replace => hasFlag requested flag
      | .add => hasFlag current flag || hasFlag requested flag
      | .remove => hasFlag current flag && !hasFlag requested flag) ∧
    (Distinct current → Distinct (applyStoreFlags current mode requested)) ∧
    (match mode with
      | .replace => (applyStoreFlags current mode requested).Sublist requested
      | .add | .remove => KeepsSpelling current (applyStoreFlags current mode requested)) ∧
    applyStoreFlags (applyStoreFlags current mode requested) mode requested =
      applyStoreFlags current mode requested := by
  refine ⟨?_, distinct_store current requested mode, ?_, store_again current requested mode⟩
  · cases mode with
    | replace => exact has_replace current requested
    | add => exact has_add current requested
    | remove => exact has_remove current requested
  · cases mode with
    | replace => exact replace_sublist current requested
    | add => exact keepsSpelling_add current requested
    | remove => exact keepsSpelling_remove current requested

/-- A replacement that names the current flags in other spellings and in another order. -/
theorem replace_respells : ¬ ∀ (current requested : List String) (mode : StoreMode),
    KeepsSpelling current (applyStoreFlags current mode requested) := by
  intro keeps
  have respelled := keeps ["\\Seen", "\\Flagged"] ["\\flagged", "\\seen"] .replace
  exact absurd respelled (by unfold KeepsSpelling; decide +kernel)

end ImapCache.FlagAlgebra
