import Mathlib.Algebra.GroupWithZero.Nat
import ImapCache.Model.ResultSets
import ImapCache.Proof.SetTexts

/-!
# The round trip of number sets

`format_number_set` writes the ranges of its numbers, and `parse_number_set` finds the same numbers in
them. A range is left open as long as the next number is the one after its end.
-/

namespace ImapCache.Protocol
open Lib Commands
open SetTexts (MessageNumber)

/-! ## Ranges -/

def runs (first last : Nat) : List Nat → List (Nat × Nat)
  | [] => [(first, last)]
  | value :: values =>
      if value = last + 1 then runs first value values else (first, last) :: runs value value values

def rangeText (range : Nat × Nat) : String := formatRange range.1 range.2

theorem numberRanges_eq (first last : Nat) (values : List Nat) :
    numberRanges first last values = (runs first last values).map rangeText := by
  induction values generalizing first last with
  | nil => rfl
  | cons value values ih =>
      rw [numberRanges, runs]
      split
      · exact ih first value
      · rw [ih, List.map_cons, rangeText]

/-- Ranges that go up, with a gap after each. -/
structure Gapped (ranges : List (Nat × Nat)) : Prop where
  inOrder : ∀ range ∈ ranges, range.1 ≤ range.2
  apart : ranges.Pairwise fun a b => a.2 + 1 < b.1

theorem first_le_of_mem_runs {first last : Nat} {values : List Nat} (ordered : first ≤ last)
    (ascending : (last :: values).Pairwise (· < ·)) : ∀ range ∈ runs first last values, first ≤ range.1 := by
  induction values generalizing first last with
  | nil =>
      intro range member
      rw [runs, List.mem_singleton] at member
      rw [member]
  | cons value values ih =>
      rw [List.pairwise_cons] at ascending
      have above : last < value := ascending.1 value List.mem_cons_self
      rw [runs]
      intro range member
      split at member
      · exact ih (by omega) ascending.2 range member
      · rcases List.mem_cons.mp member with rfl | member
        · exact Nat.le_refl _
        · have := ih (Nat.le_refl value) ascending.2 range member
          omega

theorem gapped_runs {first last : Nat} {values : List Nat} (ordered : first ≤ last)
    (ascending : (last :: values).Pairwise (· < ·)) : Gapped (runs first last values) := by
  induction values generalizing first last with
  | nil =>
      refine ⟨fun range member => ?_, List.pairwise_singleton _ _⟩
      rw [runs, List.mem_singleton] at member
      rw [member]
      exact ordered
  | cons value values ih =>
      rw [List.pairwise_cons] at ascending
      have above : last < value := ascending.1 value List.mem_cons_self
      rw [runs]
      split
      · exact ih (by omega) ascending.2
      · rename_i apart
        have rest := ih (Nat.le_refl value) ascending.2
        refine ⟨fun range member => ?_, List.pairwise_cons.mpr ⟨fun range member => ?_, rest.apart⟩⟩
        · rcases List.mem_cons.mp member with rfl | member
          · exact ordered
          · exact rest.inOrder range member
        · have := first_le_of_mem_runs (Nat.le_refl value) ascending.2 range member
          change last + 1 < range.1
          omega

theorem mem_runs_iff {first last : Nat} {values : List Nat} (ordered : first ≤ last)
    (ascending : (last :: values).Pairwise (· < ·)) (n : Nat) :
    (∃ range ∈ runs first last values, range.1 ≤ n ∧ n ≤ range.2) ↔
      first ≤ n ∧ n ≤ last ∨ n ∈ values := by
  induction values generalizing first last with
  | nil => simp [runs]
  | cons value values ih =>
      rw [List.pairwise_cons] at ascending
      have above : last < value := ascending.1 value List.mem_cons_self
      rw [runs]
      split
      · rename_i next
        rw [ih (by omega) ascending.2, List.mem_cons]
        constructor
        · rintro (⟨low, high⟩ | member)
          · by_cases same : n = value
            · exact .inr (.inl same)
            · exact .inl ⟨low, by omega⟩
          · exact .inr (.inr member)
        · rintro (⟨low, high⟩ | rfl | member)
          · exact .inl ⟨low, by omega⟩
          · exact .inl ⟨by omega, Nat.le_refl _⟩
          · exact .inr member
      · rw [List.exists_mem_cons_iff, ih (Nat.le_refl value) ascending.2, List.mem_cons]
        refine or_congr Iff.rfl (or_congr ?_ Iff.rfl)
        omega

/-! ## Sets of numbers -/

def rangesOf (values : List Nat) : List (Nat × Nat) :=
  match (values.insertionSort (· ≤ ·)).destutter (· ≠ ·) with
  | [] => []
  | first :: values => runs first first values

theorem formatNumberSet_eq (values : List Nat) :
    formatNumberSet values = ",".intercalate ((rangesOf values).map rangeText) := by
  unfold formatNumberSet rangesOf
  cases (values.insertionSort (· ≤ ·)).destutter (· ≠ ·) with
  | nil => rfl
  | cons first values => simp only [numberRanges_eq]

theorem gapped_rangesOf (values : List Nat) : Gapped (rangesOf values) := by
  have ascending := Sorting.sorted_ascending values
  unfold rangesOf
  cases sorted : (values.insertionSort (· ≤ ·)).destutter (· ≠ ·) with
  | nil => exact ⟨fun _ member => absurd member List.not_mem_nil, List.Pairwise.nil⟩
  | cons first rest =>
      rw [sorted] at ascending
      exact gapped_runs (Nat.le_refl first) ascending

theorem mem_rangesOf_iff (values : List Nat) (n : Nat) :
    (∃ range ∈ rangesOf values, range.1 ≤ n ∧ n ≤ range.2) ↔ n ∈ values := by
  have ascending := Sorting.sorted_ascending values
  rw [← Sorting.mem_sorted]
  unfold rangesOf
  cases sorted : (values.insertionSort (· ≤ ·)).destutter (· ≠ ·) with
  | nil => simp
  | cons first rest =>
      rw [sorted] at ascending
      rw [mem_runs_iff (Nat.le_refl first) ascending, List.mem_cons]
      refine or_congr ?_ Iff.rfl
      omega

/-! ## Reading the ranges -/

theorem rangeText_plain (range : Nat × Nat) :
    (rangeText range).toList ≠ [] ∧ ∀ c ∈ (rangeText range).toList, isWhitespace c = false ∧ c ≠ ',' := by
  have digit {n : Nat} {c : Char} (member : c ∈ (toString n).toList) : isWhitespace c = false ∧ c ≠ ',' := by
    have isDigit := isDigit_of_mem_toString member
    refine ⟨isWhitespace_of_isDigit isDigit, ?_⟩
    rintro rfl
    exact absurd isDigit (by decide)
  unfold rangeText formatRange
  split
  · exact ⟨toString_ne_nil _, fun c member => digit member⟩
  · refine ⟨by simp, fun c member => ?_⟩
    simp only [String.toList_append, List.mem_append] at member
    rcases member with (member | colon) | member
    · exact digit member
    · have : c = ':' := by simpa using colon
      rw [this]
      decide
    · exact digit member

theorem partBounds_rangeText (maxValue : Int) {range : Nat × Nat} (ordered : range.1 ≤ range.2)
    (fits : (range.2 : Int) ≤ i64Max) :
    partBounds maxValue (rangeText range).toList = some ((range.1 : Int), (range.2 : Int)) := by
  have start := boundText_number maxValue (n := range.1) (by omega)
  have stop := boundText_number maxValue fits
  unfold rangeText formatRange
  split
  · rename_i same
    rw [partBounds_single start, same]
  · have shape : (toString range.1 ++ ":" ++ toString range.2).toList =
        (toString range.1).toList ++ ':' :: (toString range.2).toList := by
      simp [String.toList_append]
    rw [shape, partBounds_range start stop, min_eq_left (by omega), max_eq_right (by omega)]

theorem setParts_formatNumberSet (values : List Nat) :
    setParts (formatNumberSet values) = (rangesOf values).map fun range => (rangeText range).toList := by
  rw [formatNumberSet_eq]
  by_cases empty : rangesOf values = []
  · rw [empty]
    decide
  · have joined : ",".intercalate ((rangesOf values).map rangeText) =
        String.ofList ([','].intercalate ((rangesOf values).map fun range => (rangeText range).toList)) := by
      rw [← String.toList_inj, String.toList_ofList, String.toList_intercalate, List.map_map]
      rfl
    rw [joined]
    refine setParts_intercalate (by simpa using empty) fun part member => ?_
    obtain ⟨range, -, rfl⟩ := List.mem_map.mp member
    exact rangeText_plain range

theorem range_fits {values : List MessageNumber} {range : Nat × Nat}
    (member : range ∈ rangesOf (values.map (·.value))) : 0 < range.1 ∧ (range.2 : Int) ≤ i64Max := by
  have ordered := (gapped_rangesOf _).inOrder range member
  have isValue (n : Nat) (low : range.1 ≤ n) (high : n ≤ range.2) : ∃ value ∈ values, value.value = n := by
    have inside := (mem_rangesOf_iff (values.map (·.value)) n).mp ⟨range, member, low, high⟩
    exact List.mem_map.mp inside
  obtain ⟨low, -, isLow⟩ := isValue range.1 (Nat.le_refl _) ordered
  obtain ⟨high, -, isHigh⟩ := isValue range.2 ordered (Nat.le_refl _)
  have positive := low.positive
  have fits := high.fits
  rw [isLow] at positive
  rw [isHigh] at fits
  exact ⟨positive, fits⟩

theorem mem_parseNumberSet_formatNumberSet (values : List MessageNumber) (maxValue n : Int) :
    n ∈ parseNumberSet (formatNumberSet (values.map (·.value))) maxValue ↔
      n ∈ values.map fun value => (value.value : Int) := by
  rw [mem_parseNumberSet, setParts_formatNumberSet]
  constructor
  · rintro ⟨positive, part, isPart, lo, hi, bounds, low, high⟩
    obtain ⟨range, member, rfl⟩ := List.mem_map.mp isPart
    have ordered := (gapped_rangesOf _).inOrder range member
    rw [partBounds_rangeText maxValue ordered (range_fits member).2] at bounds
    cases bounds
    have inside := (mem_rangesOf_iff (values.map (·.value)) n.toNat).mp
      ⟨range, member, by omega, by omega⟩
    obtain ⟨value, isValue, same⟩ := List.mem_map.mp inside
    exact List.mem_map.mpr ⟨value, isValue, by omega⟩
  · intro member
    obtain ⟨value, isValue, rfl⟩ := List.mem_map.mp member
    have inside : value.value ∈ values.map (·.value) := List.mem_map_of_mem isValue
    obtain ⟨range, member, low, high⟩ := (mem_rangesOf_iff _ _).mpr inside
    have ordered := (gapped_rangesOf _).inOrder range member
    have positive := value.positive
    exact ⟨by omega, _, List.mem_map_of_mem member, range.1, range.2,
      partBounds_rangeText maxValue ordered (range_fits member).2, by omega, by omega⟩

/-! ## The overflow -/

theorem numberRangesU64_eq {first last : UInt64} {values : List UInt64}
    (ascending : (last :: values).Pairwise (· < ·)) :
    numberRangesU64 first last values =
      some (numberRanges first.toNat last.toNat (values.map UInt64.toNat)) := by
  induction values generalizing first last with
  | nil => rfl
  | cons value values ih =>
      rw [List.pairwise_cons] at ascending
      have above : last.toNat < value.toNat := UInt64.lt_iff_toNat_lt.mp (ascending.1 value List.mem_cons_self)
      have bound := value.toNat_lt
      have notLargest : last ≠ 18446744073709551615 := by
        rintro rfl
        simp at above
        omega
      have succ : (last + 1).toNat = last.toNat + 1 := by
        rw [UInt64.toNat_add]
        simp
        omega
      have next : value = last + 1 ↔ value.toNat = last.toNat + 1 := by
        rw [← UInt64.toNat_inj, succ]
      rw [numberRangesU64, u64Succ, if_neg notLargest, List.map_cons, numberRanges]
      simp only [bind, Option.bind]
      by_cases adjacent : value = last + 1
      · rw [if_pos adjacent, if_pos (next.mp adjacent), ih ascending.2]
      · rw [if_neg adjacent, if_neg (fun same => adjacent (next.mpr same)), ih ascending.2]

theorem sorted_toNat (values : List UInt64) :
    ((values.insertionSort (· ≤ ·)).destutter (· ≠ ·)).map UInt64.toNat =
      ((values.map UInt64.toNat).insertionSort (· ≤ ·)).destutter (· ≠ ·) := by
  have injective : Function.Injective UInt64.toNat := fun a b => UInt64.toNat_inj.mp
  rw [List.map_destutter_ne _ injective, List.map_insertionSort (· ≤ ·) (· ≤ ·)]
  exact fun a _ b _ => UInt64.le_iff_toNat_le

theorem formatNumberSetU64_eq (values : List UInt64) :
    formatNumberSetU64 values = some (formatNumberSet (values.map UInt64.toNat)) := by
  have ascending := Sorting.sorted_ascending (values.map UInt64.toNat)
  rw [← sorted_toNat] at ascending
  unfold formatNumberSetU64 formatNumberSet
  rw [← sorted_toNat]
  cases sorted : (values.insertionSort (· ≤ ·)).destutter (· ≠ ·) with
  | nil => rfl
  | cons first rest =>
      rw [sorted, List.pairwise_map] at ascending
      simp only [List.map_cons, numberRangesU64_eq (ascending.imp UInt64.lt_iff_toNat_lt.mpr), Option.map_some]

theorem eq_of_ascending {a b : List Int} (left : a.Pairwise (· < ·)) (right : b.Pairwise (· < ·))
    (same : ∀ n, n ∈ a ↔ n ∈ b) : a = b := by
  have distinct {l : List Int} (ascending : l.Pairwise (· < ·)) : l.Nodup := ascending.imp fun h => ne_of_lt h
  have permuted : a.Perm b := (List.perm_ext_iff_of_nodup (distinct left) (distinct right)).mpr same
  refine permuted.eq_of_pairwise ?_ left right
  intro x y _ _ below above
  omega

/-! ## The vector -/

theorem sum_runs {first last : Nat} {values : List Nat} (ordered : first ≤ last)
    (ascending : (last :: values).Pairwise (· < ·)) :
    ((runs first last values).map fun range => range.2 + 1 - range.1).sum =
      last + 1 - first + values.length := by
  induction values generalizing first last with
  | nil => simp [runs]
  | cons value values ih =>
      rw [List.pairwise_cons] at ascending
      have above : last < value := ascending.1 value List.mem_cons_self
      rw [runs]
      split
      · rw [ih (by omega) ascending.2, List.length_cons]
        omega
      · rw [List.map_cons, List.sum_cons, ih (Nat.le_refl value) ascending.2, List.length_cons]
        omega

theorem sum_rangesOf_le (values : List Nat) :
    ((rangesOf values).map fun range => range.2 + 1 - range.1).sum ≤ values.length := by
  have ascending := Sorting.sorted_ascending values
  have shorter := (List.destutter_sublist (· ≠ ·) (values.insertionSort (· ≤ ·))).length_le
  rw [List.length_insertionSort] at shorter
  unfold rangesOf
  cases sorted : (values.insertionSort (· ≤ ·)).destutter (· ≠ ·) with
  | nil => exact Nat.zero_le _
  | cons first rest =>
      rw [sorted] at ascending shorter
      have sum := sum_runs (Nat.le_refl first) ascending
      rw [List.length_cons] at shorter
      change ((runs first first rest).map _).sum ≤ _
      omega

/-- A vector that at most doubles its room has room for half of what it can have room for. -/
theorem reserve_fits {sizes : List Nat} {vector : Nat × Nat} (room : vector.2 ≤ max (2 * vector.1) 4)
    (few : 2 * (vector.1 + sizes.sum) ≤ maxCapacity) : (sizes.foldlM reserve vector).isSome = true := by
  induction sizes generalizing vector with
  | nil => rfl
  | cons size sizes ih =>
      rw [List.sum_cons] at few
      rw [List.foldlM_cons, reserve]
      by_cases enough : vector.1 + size ≤ vector.2
      · rw [if_pos enough]
        exact ih (by dsimp only; omega) (by dsimp only; omega)
      · have capacity : max (max (2 * vector.2) (vector.1 + size)) 4 ≤ maxCapacity := by
          unfold maxCapacity at few ⊢
          omega
        rw [if_neg enough]
        dsimp only
        rw [if_pos capacity]
        exact ih (by dsimp only; omega) (by dsimp only; omega)

theorem formatNumberSet_fits (values : List MessageNumber) (maxValue : Int)
    (few : 2 * values.length ≤ maxCapacity) :
    numberSetFits (formatNumberSet (values.map (·.value))) maxValue = true := by
  have bounds : (setParts (formatNumberSet (values.map (·.value)))).filterMap (partBounds maxValue) =
      (rangesOf (values.map (·.value))).map fun range => ((range.1 : Int), (range.2 : Int)) := by
    rw [setParts_formatNumberSet, List.filterMap_map]
    refine (List.filterMap_congr fun range member => ?_).trans (congrFun List.filterMap_eq_map _)
    have ordered := (gapped_rangesOf _).inOrder range member
    exact partBounds_rangeText maxValue ordered (range_fits member).2
  have sizes : (rangesOf (values.map (·.value))).map (fun range => (((range.2 : Int) + 1 - range.1)).toNat) =
      (rangesOf (values.map (·.value))).map fun range => range.2 + 1 - range.1 :=
    List.map_congr_left fun range _ => by omega
  have sum := sum_rangesOf_le (values.map (·.value))
  rw [List.length_map] at sum
  have fits : (((rangesOf (values.map (·.value))).map fun range => range.2 + 1 - range.1).foldlM reserve
      (0, 0)).isSome = true := reserve_fits (by decide) (by dsimp only; omega)
  unfold numberSetFits
  rw [bounds, List.foldlM_map]
  rw [← sizes, List.foldlM_map] at fits
  exact fits

theorem number_set_round_trip (values : List MessageNumber) (maxValue : Int) (results : List UInt64) :
    parseNumberSet (formatNumberSet (values.map (·.value))) maxValue =
        ((values.map fun value => (value.value : Int)).insertionSort (· ≤ ·)).destutter (· ≠ ·) ∧
      (2 * values.length ≤ maxCapacity →
        numberSetFits (formatNumberSet (values.map (·.value))) maxValue = true) ∧
      formatNumberSetU64 results = some (formatNumberSet (results.map UInt64.toNat)) ∧
      ∃ ranges, formatNumberSet (results.map UInt64.toNat) = ",".intercalate (ranges.map rangeText) ∧
        Gapped ranges ∧
        ∀ n, (∃ range ∈ ranges, range.1 ≤ n ∧ n ≤ range.2) ↔ n ∈ results.map UInt64.toNat := by
  refine ⟨?_, formatNumberSet_fits values maxValue, formatNumberSetU64_eq results, rangesOf _,
    formatNumberSet_eq _, gapped_rangesOf _, mem_rangesOf_iff _⟩
  refine eq_of_ascending (parseNumberSet_ascending _ _) (Sorting.sorted_ascending _) fun n => ?_
  rw [mem_parseNumberSet_formatNumberSet, Sorting.mem_sorted]

end ImapCache.Protocol
