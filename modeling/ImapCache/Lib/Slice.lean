import Mathlib.Algebra.GroupWithZero.Nat
import Mathlib.Data.List.Basic
import Mathlib.Algebra.Order.Group.Nat
import Mathlib.Algebra.BigOperators.Group.List.Basic

/-!
# Slices of texts

A text is encoded in UTF-8 and is sliced by offsets into its bytes. A slice has a value only if its
bounds are in order and each stands between two characters.
-/

namespace ImapCache.Lib.Slice

def byteLength (text : List Char) : Nat := (text.map Char.utf8Size).sum

/-- `&text[start..]`. -/
def dropBytes : List Char → Nat → Option (List Char)
  | text, 0 => some text
  | [], _ + 1 => none
  | c :: text, start + 1 =>
      if c.utf8Size ≤ start + 1 then dropBytes text (start + 1 - c.utf8Size) else none

/-- `&text[..stop]`. -/
def takeBytes : List Char → Nat → Option (List Char)
  | _, 0 => some []
  | [], _ + 1 => none
  | c :: text, stop + 1 =>
      if c.utf8Size ≤ stop + 1 then (takeBytes text (stop + 1 - c.utf8Size)).map (c :: ·) else none

/-- `&text[start..stop]`. -/
def slice (text : List Char) (start stop : Nat) : Option (List Char) :=
  if start ≤ stop then (dropBytes text start).bind (takeBytes · (stop - start)) else none

/-- The offset of the first place at which a text satisfies a predicate of its rest. -/
def findOffset (p : List Char → Bool) : List Char → Option Nat
  | [] => if p [] then some 0 else none
  | c :: text => if p (c :: text) then some 0 else (findOffset p text).map (c.utf8Size + ·)

@[simp] theorem byteLength_nil : byteLength [] = 0 := rfl

@[simp] theorem byteLength_cons (c : Char) (text : List Char) :
    byteLength (c :: text) = c.utf8Size + byteLength text := by
  simp [byteLength]

@[simp] theorem byteLength_append (a b : List Char) :
    byteLength (a ++ b) = byteLength a + byteLength b := by
  simp [byteLength]

theorem dropBytes_append (a b : List Char) : dropBytes (a ++ b) (byteLength a) = some b := by
  induction a with
  | nil => cases b <;> rfl
  | cons c a ih =>
      have positive := c.utf8Size_pos
      obtain ⟨n, size⟩ : ∃ n, byteLength (c :: a) = n + 1 :=
        ⟨byteLength (c :: a) - 1, by rw [byteLength_cons]; omega⟩
      rw [List.cons_append, size, dropBytes, if_pos (by rw [byteLength_cons] at size; omega)]
      rw [byteLength_cons] at size
      rw [show n + 1 - c.utf8Size = byteLength a by omega]
      exact ih

theorem takeBytes_append (a b : List Char) : takeBytes (a ++ b) (byteLength a) = some a := by
  induction a with
  | nil => cases b <;> rfl
  | cons c a ih =>
      have positive := c.utf8Size_pos
      obtain ⟨n, size⟩ : ∃ n, byteLength (c :: a) = n + 1 :=
        ⟨byteLength (c :: a) - 1, by rw [byteLength_cons]; omega⟩
      rw [List.cons_append, size, takeBytes, if_pos (by rw [byteLength_cons] at size; omega)]
      rw [byteLength_cons] at size
      rw [show n + 1 - c.utf8Size = byteLength a by omega, ih]
      rfl

theorem slice_append (a b d : List Char) :
    slice (a ++ b ++ d) (byteLength a) (byteLength (a ++ b)) = some b := by
  have bounds : byteLength a ≤ byteLength (a ++ b) := by simp
  rw [slice, if_pos bounds, List.append_assoc, dropBytes_append, Option.bind_some]
  rw [byteLength_append, Nat.add_sub_cancel_left]
  exact takeBytes_append b d

theorem findOffset_eq_some {p : List Char → Bool} {text : List Char} {offset : Nat}
    (found : findOffset p text = some offset) :
    ∃ before after, text = before ++ after ∧ byteLength before = offset ∧ p after = true := by
  induction text generalizing offset with
  | nil =>
      simp only [findOffset] at found
      split at found
      · cases found
        exact ⟨[], [], rfl, rfl, ‹_›⟩
      · cases found
  | cons c text ih =>
      simp only [findOffset] at found
      split at found
      · cases found
        exact ⟨[], c :: text, rfl, rfl, ‹_›⟩
      · obtain ⟨rest, foundRest, rfl⟩ := Option.map_eq_some_iff.mp found
        obtain ⟨before, after, rfl, rfl, holds⟩ := ih foundRest
        exact ⟨c :: before, after, rfl, byteLength_cons .., holds⟩

end ImapCache.Lib.Slice
