import Mathlib.Logic.Function.Basic

/-!
# Keys with an expiry

A store of keys whose values vanish at a time given when they are set. The clock is an argument of
every access, so that no step is needed for the passing of time.
-/

namespace ImapCache.Lib

structure Timed (α : Type) where
  value : α
  expiresAt : Option Nat
deriving DecidableEq, Repr

def Timed.live {α : Type} (now : Nat) (entry : Timed α) : Bool := entry.expiresAt.all (now < ·)

abbrev Expiring (κ α : Type) := κ → Option (Timed α)

namespace Expiring
variable {κ α : Type}

/-- The value of a key that has not expired. -/
def get (keys : Expiring κ α) (now : Nat) (key : κ) : Option α :=
  ((keys key).filter (Timed.live now)).map Timed.value

section
variable [DecidableEq κ]

def set (keys : Expiring κ α) (key : κ) (value : α) (expiresAt : Option Nat) : Expiring κ α :=
  Function.update keys key (some ⟨value, expiresAt⟩)

def del (keys : Expiring κ α) (key : κ) : Expiring κ α := Function.update keys key none

variable (keys : Expiring κ α) (now : Nat) {key other : κ}

@[simp] theorem get_set_self (value : α) (expiresAt : Option Nat) :
    (keys.set key value expiresAt).get now key =
      if expiresAt.all (now < ·) then some value else none := by
  have live : Timed.live now ⟨value, expiresAt⟩ = expiresAt.all (now < ·) := rfl
  simp only [get, set, Function.update_self, Option.filter_some, live]
  cases expiresAt.all (now < ·) <;> rfl

theorem get_set_ne (value : α) (expiresAt : Option Nat) (ne : other ≠ key) :
    (keys.set key value expiresAt).get now other = keys.get now other := by
  simp only [get, set, Function.update_of_ne ne]

@[simp] theorem get_del_self : (keys.del key).get now key = none := by
  simp only [get, del, Function.update_self, Option.filter_none, Option.map_none]

theorem get_del_ne (ne : other ≠ key) : (keys.del key).get now other = keys.get now other := by
  simp only [get, del, Function.update_of_ne ne]

end

variable (keys : Expiring κ α) (now : Nat) {key : κ}

theorem get_of_entry {entry : Timed α} (stored : keys key = some entry) :
    keys.get now key = if entry.live now then some entry.value else none := by
  simp only [get, stored, Option.filter_some]
  cases entry.live now <;> rfl

theorem get_none_later {later : Nat} (le : now ≤ later) (gone : keys.get now key = none) :
    keys.get later key = none := by
  cases stored : keys key with
  | none => simp only [get, stored, Option.filter_none, Option.map_none]
  | some entry =>
      rw [get_of_entry keys later stored]
      rw [get_of_entry keys now stored] at gone
      have expired : entry.live now = false := by
        cases live : entry.live now with
        | true => simp [live] at gone
        | false => rfl
      have still : entry.live later = false := by
        obtain ⟨value, expiresAt⟩ := entry
        cases expiresAt with
        | none => cases expired
        | some stop =>
            simp only [Timed.live, Option.all_some, decide_eq_false_iff_not, Nat.not_lt] at expired ⊢
            exact Nat.le_trans expired le
      simp [still]

end Expiring

end ImapCache.Lib
