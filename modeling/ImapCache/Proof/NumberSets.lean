import Mathlib.Data.List.TakeDrop
import ImapCache.Lib.Sorting
import ImapCache.Model.Commands
import ImapCache.Proof.WhiteSpace

/-!
# Number sets

What `parse_number_set` makes of a set: the positive numbers within the bounds of its parts, in
ascending order and each once.
-/

namespace ImapCache.Commands
open Lib

/-! ## Numbers -/

theorem foldl_digits_cast {text : List Char} (digits : ∀ c ∈ text, c.isDigit = true) (n : Nat) :
    text.foldl (fun (n : Int) c => 10 * n + (c.toNat - '0'.toNat)) n =
      (text.foldl (fun n c => 10 * n + (c.toNat - '0'.toNat)) n : Nat) := by
  induction text generalizing n with
  | nil => rfl
  | cons c text ih =>
      have digit := digits c List.mem_cons_self
      rw [Char.isDigit, Bool.and_eq_true, decide_eq_true_eq, decide_eq_true_eq] at digit
      have above : '0'.toNat ≤ c.toNat := digit.1
      have next : 10 * (n : Int) + (c.toNat - '0'.toNat) =
          (10 * n + (c.toNat - '0'.toNat) : Nat) := by
        omega
      rw [List.foldl_cons, List.foldl_cons, next]
      exact ih (fun c member => digits c (List.mem_cons_of_mem _ member)) _

theorem isDigit_of_mem_toString {n : Nat} {c : Char} (member : c ∈ (toString n).toList) :
    c.isDigit = true := by
  have digits : (toString n).toList = Nat.toDigits 10 n := Nat.toList_repr
  rw [digits] at member
  exact Nat.isDigit_of_mem_toDigits (by decide) (by decide) member

theorem toString_ne_nil (n : Nat) : (toString n).toList ≠ [] := by
  have digits : (toString n).toList = Nat.toDigits 10 n := Nat.toList_repr
  rw [digits]
  exact Nat.toDigits_ne_nil

theorem parseI64_toString (n : Nat) :
    parseI64 (toString n).toList = if (n : Int) ≤ i64Max then some (n : Int) else none := by
  have digits : (toString n).toList = Nat.toDigits 10 n := Nat.toList_repr
  have allDigits : ∀ c ∈ Nat.toDigits 10 n, c.isDigit = true := fun c member =>
    Nat.isDigit_of_mem_toDigits (by decide) (by decide) member
  have value : (Nat.toDigits 10 n).foldl
      (fun (n : Int) c => 10 * n + (c.toNat - '0'.toNat)) (0 : Nat) = n := by
    rw [foldl_digits_cast allDigits]
    exact congrArg Nat.cast Nat.ofDigitChars_ten_toDigits
  have wellFormed : ((Nat.toDigits 10 n).isEmpty ||
      (Nat.toDigits 10 n).any (!·.isDigit)) = false := by
    simpa [Nat.toDigits_ne_nil] using allDigits
  unfold parseI64
  rw [digits]
  dsimp only
  split
  · rename_i rest eq
    exact absurd (allDigits '-' (eq ▸ List.mem_cons_self ..)) (by decide)
  · rename_i rest eq
    exact absurd (allDigits '+' (eq ▸ List.mem_cons_self ..)) (by decide)
  · dsimp only
    rw [wellFormed, value]
    simp only [Bool.false_eq_true, ↓reduceIte]
    congr 1
    unfold i64Max
    rw [eq_iff_iff]
    omega

/-! ## The texts of sets -/

/-- A bound of a part: a number or the star, which stands for the largest number. -/
structure BoundText (largest : Int) (text : List Char) (value : Int) : Prop where
  chars : ∀ c ∈ text, c.isDigit = true ∨ c = '*'
  nonempty : text ≠ []
  read : (if text = ['*'] then some largest else parseI64 text) = some value

theorem boundText_number (largest : Int) {n : Nat} (fits : (n : Int) ≤ i64Max) :
    BoundText largest (toString n).toList n where
  chars _ member := .inl (isDigit_of_mem_toString member)
  nonempty := toString_ne_nil n
  read := by
    have noStar : (toString n).toList ≠ ['*'] := by
      intro same
      have digit := isDigit_of_mem_toString (n := n) (c := '*') (by rw [same]; exact List.mem_cons_self)
      exact absurd digit (by decide)
    rw [if_neg noStar, parseI64_toString, if_pos fits]

theorem boundText_star (largest : Int) : BoundText largest ['*'] largest where
  chars _ member := .inr (List.mem_singleton.mp member)
  nonempty := List.cons_ne_nil _ _
  read := if_pos rfl

theorem BoundText.visible {largest value : Int} {text : List Char} (bound : BoundText largest text value) :
    ∀ c ∈ text, isWhitespace c = false := by
  intro c member
  rcases bound.chars c member with digit | rfl
  · exact isWhitespace_of_isDigit digit
  · decide

theorem BoundText.not_mem {largest value : Int} {text : List Char} {c : Char}
    (bound : BoundText largest text value) (noDigit : c.isDigit = false) (noStar : c ≠ '*') : c ∉ text := by
  intro member
  rcases bound.chars c member with digit | star
  · rw [noDigit] at digit
    cases digit
  · exact noStar star

theorem span_colon {before : List Char} (absent : ':' ∉ before) (after : List Char) :
    (before ++ after).span (· != ':') =
      (before ++ (after.span (· != ':')).1, (after.span (· != ':')).2) := by
  have different : ∀ c ∈ before, (c != ':') = true := by
    intro c member
    rw [bne_iff_ne]
    rintro rfl
    exact absent member
  rw [List.span_eq_takeWhile_dropWhile, List.span_eq_takeWhile_dropWhile,
    List.takeWhile_append_of_pos different, List.dropWhile_append_of_pos different]

theorem partBounds_single {largest value : Int} {text : List Char} (bound : BoundText largest text value) :
    partBounds largest text = some (value, value) := by
  have whole : text.span (· != ':') = (text, []) := by
    have spanned := span_colon (bound.not_mem (by decide) (by decide)) []
    have empty : ([] : List Char).span (· != ':') = ([], []) := rfl
    rwa [empty, List.append_nil] at spanned
  unfold partBounds
  simp only [whole, bound.read, Option.map_some]

theorem partBounds_range {largest first last : Int} {text text' : List Char}
    (start : BoundText largest text first) (stop : BoundText largest text' last) :
    partBounds largest (text ++ ':' :: text') = some (min first last, max first last) := by
  have halves : (text ++ ':' :: text').span (· != ':') = (text, ':' :: text') := by
    have spanned := span_colon (start.not_mem (by decide) (by decide)) (':' :: text')
    have colon : (':' :: text').span (· != ':') = ([], ':' :: text') := rfl
    rwa [colon, List.append_nil] at spanned
  unfold partBounds
  simp only [halves, trim_of_visible start.visible, trim_of_visible stop.visible, start.read, stop.read]

theorem setParts_intercalate {parts : List (List Char)} (nonempty : parts ≠ [])
    (plain : ∀ part ∈ parts, part ≠ [] ∧ ∀ c ∈ part, isWhitespace c = false ∧ c ≠ ',') :
    setParts (String.ofList ([','].intercalate parts)) = parts := by
  have split : ([','].intercalate parts).splitOn ',' = parts := by
    apply List.splitOn_intercalate
    · intro part member comma
      exact ((plain part member).2 ',' comma).2 rfl
    · exact nonempty
  have trimmed : parts.map trim = parts := by
    refine (List.map_congr_left fun part member => ?_).trans (List.map_id parts)
    exact trim_of_visible fun c inPart => ((plain part member).2 c inPart).1
  unfold setParts
  rw [String.toList_ofList, split, trimmed, List.filter_eq_self]
  intro part member
  simpa using (plain part member).1

/-! ## The numbers of a set -/

theorem mem_inclusiveRange {lo hi n : Int} : n ∈ inclusiveRange lo hi ↔ lo ≤ n ∧ n ≤ hi := by
  unfold inclusiveRange
  rw [List.mem_map]
  constructor
  · rintro ⟨i, inside, rfl⟩
    rw [List.mem_range] at inside
    omega
  · rintro ⟨above, below⟩
    refine ⟨(n - lo).toNat, ?_, ?_⟩
    · rw [List.mem_range]
      omega
    · omega

theorem mem_parseNumberSet {value : String} {maxValue n : Int} :
    n ∈ parseNumberSet value maxValue ↔ 0 < n ∧ ∃ part ∈ setParts value, ∃ lo hi,
      partBounds maxValue part = some (lo, hi) ∧ lo ≤ n ∧ n ≤ hi := by
  unfold parseNumberSet
  rw [List.mem_filter, Sorting.mem_sorted, List.mem_flatMap, and_comm, decide_eq_true_eq]
  refine and_congr_right fun _ => exists_congr fun part => and_congr_right fun _ => ?_
  cases partBounds maxValue part with
  | none => simp
  | some bounds =>
      obtain ⟨lo, hi⟩ := bounds
      simp [mem_inclusiveRange]

theorem parseNumberSet_ascending (value : String) (maxValue : Int) :
    (parseNumberSet value maxValue).Pairwise (· < ·) :=
  (Sorting.sorted_ascending _).filter _

theorem parseNumberSet_positive {value : String} {maxValue n : Int}
    (member : n ∈ parseNumberSet value maxValue) : 0 < n :=
  (mem_parseNumberSet.mp member).1

end ImapCache.Commands
