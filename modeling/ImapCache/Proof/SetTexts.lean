import ImapCache.Proof.NumberSets

/-!
# The texts of number sets

A set is a list of numbers and ranges, each of which may have a `*` for a bound. `parse_number_set` reads from
its text the numbers within the bounds of its parts.
-/

namespace ImapCache.SetTexts
open Lib Commands

/-! ## Sets -/

/-- A number that a client can name: positive and in the range of the type that it is read as. -/
structure MessageNumber where
  value : Nat
  positive : 0 < value
  fits : (value : Int) ≤ i64Max

inductive Bound where
  | number (n : MessageNumber)
  | star

inductive Part where
  | single (bound : Bound)
  | range (first last : Bound)

structure NumberSet where
  parts : List Part
  nonempty : parts ≠ []

def Bound.text : Bound → List Char
  | .number n => (toString n.value).toList
  | .star => ['*']

def Part.text : Part → List Char
  | .single bound => bound.text
  | .range first last => first.text ++ ':' :: last.text

def NumberSet.text (set : NumberSet) : String :=
  String.ofList ([','].intercalate (set.parts.map Part.text))

/-- The value of a bound if `*` stands for the number. -/
def Bound.value (star : Int) : Bound → Int
  | .number n => n.value
  | .star => star

def Part.bounds (star : Int) : Part → Int × Int
  | .single bound => (bound.value star, bound.value star)
  | .range first last =>
      (min (first.value star) (last.value star), max (first.value star) (last.value star))

def NumberSet.has (set : NumberSet) (star n : Int) : Bool :=
  0 < n && set.parts.any fun part => (part.bounds star).1 ≤ n && n ≤ (part.bounds star).2

/-- Whether a vector has room for all numbers of the parts, one part after the other. -/
def NumberSet.fits (set : NumberSet) (star : Int) : Bool :=
  (set.parts.foldlM (fun vector part => reserve vector ((part.bounds star).2 + 1 - (part.bounds star).1).toNat)
    (0, 0)).isSome

theorem Bound.boundText (star : Int) (bound : Bound) : BoundText star bound.text (bound.value star) := by
  cases bound with
  | number n => exact boundText_number star n.fits
  | star => exact boundText_star star

theorem Part.plain (part : Part) : part.text ≠ [] ∧ ∀ c ∈ part.text, isWhitespace c = false ∧ c ≠ ',' := by
  have plain (bound : Bound) : ∀ c ∈ bound.text, isWhitespace c = false ∧ c ≠ ',' := by
    intro c member
    refine ⟨(bound.boundText 0).visible c member, ?_⟩
    rintro rfl
    exact (bound.boundText 0).not_mem (by decide) (by decide) member
  cases part with
  | single bound => exact ⟨(bound.boundText 0).nonempty, plain bound⟩
  | range first last =>
      refine ⟨by simp [text], fun c member => ?_⟩
      simp only [text, List.mem_append, List.mem_cons] at member
      rcases member with member | rfl | member
      · exact plain first c member
      · decide
      · exact plain last c member

theorem partBounds_text (star : Int) (part : Part) : partBounds star part.text = some (part.bounds star) := by
  cases part with
  | single bound => exact partBounds_single (bound.boundText star)
  | range first last => exact partBounds_range (first.boundText star) (last.boundText star)

namespace NumberSet
variable (set : NumberSet) (star : Int)

theorem setParts_text : setParts set.text = set.parts.map Part.text := by
  refine setParts_intercalate (by simpa using set.nonempty) fun chars member => ?_
  obtain ⟨part, -, rfl⟩ := List.mem_map.mp member
  exact part.plain

theorem mem_parseNumberSet_text (n : Int) : n ∈ parseNumberSet set.text star ↔ set.has star n = true := by
  unfold has
  rw [mem_parseNumberSet, setParts_text, Bool.and_eq_true, decide_eq_true_eq, List.any_eq_true]
  refine and_congr_right fun _ => ?_
  constructor
  · rintro ⟨_, member, lo, hi, bounds, above, below⟩
    obtain ⟨part, listed, rfl⟩ := List.mem_map.mp member
    rw [partBounds_text, Option.some_inj] at bounds
    refine ⟨part, listed, ?_⟩
    rw [bounds]
    simp [above, below]
  · rintro ⟨part, listed, within⟩
    rw [Bool.and_eq_true, decide_eq_true_eq, decide_eq_true_eq] at within
    exact ⟨part.text, List.mem_map_of_mem listed, _, _, partBounds_text star part, within.1, within.2⟩

theorem numberSetFits_text : numberSetFits set.text star = set.fits star := by
  have bounds : (setParts set.text).filterMap (partBounds star) = set.parts.map (Part.bounds star) := by
    rw [setParts_text, List.filterMap_map]
    refine (List.filterMap_congr fun part _ => ?_).trans (congrFun List.filterMap_eq_map _)
    exact partBounds_text star part
  unfold numberSetFits fits
  rw [bounds, List.foldlM_map]

end NumberSet

end ImapCache.SetTexts
