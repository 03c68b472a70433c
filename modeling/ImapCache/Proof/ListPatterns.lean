import Mathlib
import ImapCache.Model.Session

/-!
# Patterns of LIST

A pattern is a word of letters and wildcards: a star stands for any string and a percent sign for any
string within a level of the hierarchy. Patterns and names are compared in lower case, the delimiter as it
is; so a letter as delimiter ends a level in either case.
-/

namespace ImapCache.ListPatterns
open Session

/-- The names of a pattern. A percent sign stands for a string of the characters `inLevel`. -/
inductive Belongs (inLevel : Char → Prop) : List Char → List Char → Prop where
  | nil : Belongs inLevel [] []
  | star {pattern name : List Char} (any : List Char) (rest : Belongs inLevel pattern name) :
      Belongs inLevel ('*' :: pattern) (any ++ name)
  | percent {pattern name : List Char} (any : List Char) (within : ∀ c ∈ any, inLevel c)
      (rest : Belongs inLevel pattern name) : Belongs inLevel ('%' :: pattern) (any ++ name)
  | letter {pattern name : List Char} {c d : Char} (plain : c ≠ '*' ∧ c ≠ '%')
      (same : c.toLower = d.toLower) (rest : Belongs inLevel pattern name) :
      Belongs inLevel (c :: pattern) (d :: name)

theorem belongs_nil_iff {inLevel : Char → Prop} {name : List Char} :
    Belongs inLevel [] name ↔ name = [] := by
  constructor
  · rintro ⟨⟩
    rfl
  · rintro rfl
    exact .nil

theorem belongs_star_iff {inLevel : Char → Prop} {pattern name : List Char} :
    Belongs inLevel ('*' :: pattern) name ↔
      ∃ any rest, name = any ++ rest ∧ Belongs inLevel pattern rest := by
  constructor
  · intro belongs
    cases belongs with
    | star any rest => exact ⟨any, _, rfl, rest⟩
    | letter plain => exact absurd rfl plain.1
  · rintro ⟨any, rest, rfl, belongs⟩
    exact .star any belongs

theorem belongs_percent_iff {inLevel : Char → Prop} {pattern name : List Char} :
    Belongs inLevel ('%' :: pattern) name ↔
      ∃ any rest, name = any ++ rest ∧ (∀ c ∈ any, inLevel c) ∧ Belongs inLevel pattern rest := by
  constructor
  · intro belongs
    cases belongs with
    | percent any within rest => exact ⟨any, _, rfl, within, rest⟩
    | letter plain => exact absurd rfl plain.2
  · rintro ⟨any, rest, rfl, within, belongs⟩
    exact .percent any within belongs

theorem belongs_letter_iff {inLevel : Char → Prop} {c : Char} (plain : c ≠ '*' ∧ c ≠ '%')
    {pattern name : List Char} : Belongs inLevel (c :: pattern) name ↔
      ∃ d rest, name = d :: rest ∧ c.toLower = d.toLower ∧ Belongs inLevel pattern rest := by
  constructor
  · intro belongs
    generalize whole : c :: pattern = text at belongs
    cases belongs with
    | nil => cases whole
    | star any rest => exact absurd (List.cons.inj whole).1 plain.1
    | percent any within rest => exact absurd (List.cons.inj whole).1 plain.2
    | letter _ same rest =>
        obtain ⟨rfl, rfl⟩ := List.cons.inj whole
        exact ⟨_, _, rfl, same, rest⟩
  · rintro ⟨d, rest, rfl, same, belongs⟩
    exact .letter plain same belongs

/-! ## The search -/

def delimiterOf (delimiter : String) : Char := delimiter.toList.head?.getD '/'

theorem toLower_eq_self {c d : Char} (lower : c.toLower = d) (other : d.isLower = false) : c = d := by
  by_cases upper : c.isUpper = true
  · rw [← lower, Char.isLower_toLower_eq_isAlpha, Char.isAlpha, upper, Bool.true_or] at other
    cases other
  · rw [Char.toLower_eq_of_not_isUpper upper] at lower
    exact lower

theorem mem_restsWithin {delimiter : Char} {name rest : List Char} :
    rest ∈ restsWithin delimiter name ↔
      ∃ before, name = before ++ rest ∧ ∀ c ∈ before, c ≠ delimiter := by
  induction name with
  | nil =>
      rw [restsWithin, List.mem_singleton]
      constructor
      · rintro rfl
        exact ⟨[], rfl, by simp⟩
      · rintro ⟨before, split, -⟩
        exact (List.nil_eq_append_iff.mp split).2
  | cons c name ih =>
      rw [restsWithin, List.mem_cons]
      constructor
      · rintro (rfl | later)
        · exact ⟨[], rfl, by simp⟩
        · split at later
          · cases later
          · rename_i inLevel
            obtain ⟨before, rfl, others⟩ := ih.mp later
            refine ⟨c :: before, rfl, ?_⟩
            rintro d (_ | ⟨_, member⟩)
            · exact inLevel
            · exact others d member
      · rintro ⟨before, split, inLevel⟩
        cases before with
        | nil => exact .inl split.symm
        | cons first before =>
            obtain ⟨rfl, rfl⟩ := List.cons.inj split
            have apart := inLevel c (List.mem_cons_self ..)
            rw [if_neg apart]
            exact .inr (ih.mpr ⟨before, rfl, fun d member => inLevel d (List.mem_cons_of_mem _ member)⟩)

theorem lower_append {name before rest : List Char} (split : name.map Char.toLower = before ++ rest) :
    ∃ first others, name = first ++ others ∧ first.map Char.toLower = before ∧
      others.map Char.toLower = rest :=
  List.map_eq_append_iff.mp split

theorem patternMatches_iff (delimiter : Char) (pattern name : List Char) :
    patternMatches delimiter (pattern.map Char.toLower) (name.map Char.toLower) = true ↔
      Belongs (·.toLower ≠ delimiter) pattern name := by
  induction pattern generalizing name with
  | nil =>
      rw [belongs_nil_iff]
      cases name <;> simp [patternMatches]
  | cons c pattern ih =>
      rw [List.map_cons]
      by_cases star : c = '*'
      · subst star
        rw [belongs_star_iff]
        change ((name.map Char.toLower).tails.any
          (patternMatches delimiter (pattern.map Char.toLower))) = true ↔ _
        rw [List.any_eq_true]
        constructor
        · rintro ⟨rest, member, matched⟩
          obtain ⟨before, split⟩ := (List.mem_tails _ _).mp member
          obtain ⟨first, others, rfl, -, rfl⟩ := lower_append split.symm
          exact ⟨first, others, rfl, (ih others).mp matched⟩
        · rintro ⟨any, rest, rfl, belongs⟩
          refine ⟨_, (List.mem_tails _ _).mpr ⟨any.map Char.toLower, ?_⟩, (ih rest).mpr belongs⟩
          rw [List.map_append]
      by_cases percent : c = '%'
      · subst percent
        rw [belongs_percent_iff]
        change ((restsWithin delimiter (name.map Char.toLower)).any
          (patternMatches delimiter (pattern.map Char.toLower))) = true ↔ _
        rw [List.any_eq_true]
        constructor
        · rintro ⟨rest, member, matched⟩
          obtain ⟨before, split, inLevel⟩ := mem_restsWithin.mp member
          obtain ⟨first, others, rfl, rfl, rfl⟩ := lower_append split
          exact ⟨first, others, rfl, fun d isFirst => inLevel _ (List.mem_map_of_mem isFirst),
            (ih others).mp matched⟩
        · rintro ⟨any, rest, rfl, within, belongs⟩
          refine ⟨_, mem_restsWithin.mpr ⟨any.map Char.toLower, List.map_append, ?_⟩,
            (ih rest).mpr belongs⟩
          intro c member
          obtain ⟨d, isAny, rfl⟩ := List.mem_map.mp member
          exact within d isAny
      · have notStar : c.toLower ≠ '*' := fun lower => star (toLower_eq_self lower (by decide))
        have notPercent : c.toLower ≠ '%' := fun lower => percent (toLower_eq_self lower (by decide))
        rw [belongs_letter_iff ⟨star, percent⟩]
        cases name with
        | nil => simp [patternMatches]
        | cons d name =>
            have step : patternMatches delimiter (c.toLower :: pattern.map Char.toLower)
                (d.toLower :: name.map Char.toLower) = (c.toLower == d.toLower &&
                  patternMatches delimiter (pattern.map Char.toLower) (name.map Char.toLower)) := by
              rw [patternMatches]
              · exact notStar
              · exact notPercent
            rw [List.map_cons, step, Bool.and_eq_true, beq_iff_eq, ih]
            constructor
            · rintro ⟨same, belongs⟩
              exact ⟨d, name, rfl, same, belongs⟩
            · rintro ⟨_, _, split, same, belongs⟩
              obtain ⟨rfl, rfl⟩ := List.cons.inj split
              exact ⟨same, belongs⟩

/-- A pattern of LIST matches the names that belong to it, with levels that end at the delimiter in
either letter case. -/
theorem list_pattern_matches_iff (pattern name delimiter : String)
    (lower : (delimiterOf delimiter).isUpper = false) :
    imapListPatternMatches pattern name delimiter = true ↔
      Belongs (·.toLower ≠ (delimiterOf delimiter).toLower) pattern.toList name.toList := by
  have same : (delimiterOf delimiter).toLower = delimiterOf delimiter :=
    Char.toLower_eq_of_not_isUpper (by simp [lower])
  rw [same, ← patternMatches_iff]
  simp only [imapListPatternMatches, toAsciiLowercase, String.toList_ofList, delimiterOf]

theorem list_pattern_matches_iff_slash :
    (delimiterOf "/").isUpper = false ∧
      (imapListPatternMatches "A%/*" "ab/c/D" "/" = true ↔
        Belongs (·.toLower ≠ '/') "A%/*".toList "ab/c/D".toList) :=
  ⟨by decide, list_pattern_matches_iff "A%/*" "ab/c/D" "/" (by decide)⟩

/-- With the letter `a` as delimiter, a percent sign does not stand for `A`. -/
theorem capital_delimits : ¬ ∀ pattern name delimiter : String,
    (delimiterOf delimiter).isUpper = false →
      (imapListPatternMatches pattern name delimiter = true ↔
        Belongs (· ≠ delimiterOf delimiter) pattern.toList name.toList) := by
  intro claimed
  have belongs : Belongs (· ≠ delimiterOf "a") "%".toList "A".toList :=
    .percent ['A'] (by simp [delimiterOf]) .nil
  have matched := (claimed "%" "A" "a" (by decide)).mpr belongs
  revert matched
  decide +kernel

end ImapCache.ListPatterns
