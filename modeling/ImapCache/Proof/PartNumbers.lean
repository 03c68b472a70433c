import ImapCache.Model.MimeParts
import ImapCache.Proof.CommandStream
import ImapCache.Proof.CountedIngests

/-!
# Part numbers

A client names a part by its number: the children of a multipart are counted, a message that is not a
multipart has itself as its part 1. A FETCH looks for the record under `1.` and the number. The records
have such paths as long as the message is a multipart and no message in it is.
-/

namespace ImapCache.PartNumbers
open Mime Lib

/-! ## Numbers -/

def numberTail : List Nat → String
  | [] => ""
  | k :: ks => "." ++ toString k ++ numberTail ks

def numberText : List Nat → String
  | [] => ""
  | k :: ks => toString k ++ numberTail ks

theorem numberTail_append (ks : List Nat) (k : Nat) :
    numberTail (ks ++ [k]) = numberTail ks ++ "." ++ toString k := by
  induction ks with
  | nil => simp [numberTail]
  | cons first ks ih => simp only [List.cons_append, numberTail, ih, String.append_assoc]

theorem numberText_append {number : List Nat} (nonempty : number ≠ []) (k : Nat) :
    numberText (number ++ [k]) = numberText number ++ "." ++ toString k := by
  cases number with
  | nil => exact absurd rfl nonempty
  | cons first ks => simp only [List.cons_append, numberText, numberTail_append, String.append_assoc]

theorem numberText_one {number : List Nat} (nonempty : number ≠ []) :
    numberText (1 :: number) = "1." ++ numberText number := by
  cases number with
  | nil => exact absurd rfl nonempty
  | cons first ks =>
      have one : toString 1 ++ "." = "1." := by decide +kernel
      rw [numberText, numberTail, numberText, ← one]
      simp only [String.append_assoc]

theorem digits_toList (n : Nat) : (toString n).toList = Nat.toDigits 10 n := Nat.toList_repr

theorem digits_no_dot (n : Nat) : ∀ c ∈ (toString n).toList, c ≠ '.' := by
  intro c member
  rw [digits_toList] at member
  have digit := Nat.isDigit_of_mem_toDigits (by decide) (by decide) member
  rintro rfl
  exact absurd digit (by decide)

theorem digits_injective {n m : Nat} (same : (toString n).toList = (toString m).toList) : n = m := by
  rw [digits_toList, digits_toList] at same
  rw [← Nat.ofDigitChars_ten_toDigits (n := n), same, Nat.ofDigitChars_ten_toDigits]

theorem numberTail_starts (ks : List Nat) :
    (numberTail ks).toList = [] ∨ ∃ rest, (numberTail ks).toList = '.' :: rest := by
  cases ks with
  | nil => exact .inl rfl
  | cons k ks => exact .inr ⟨_, by simp [numberTail]; rfl⟩

theorem takeWhile_digits (n : Nat) (ks : List Nat) :
    ((toString n).toList ++ (numberTail ks).toList).takeWhile (· ≠ '.') = (toString n).toList := by
  have digits := digits_no_dot n
  rw [List.takeWhile_append_of_pos (by simpa using digits)]
  rcases numberTail_starts ks with empty | ⟨rest, starts⟩
  · simp [empty]
  · simp [starts]

theorem number_cons_injective {n m : Nat} {ks ls : List Nat}
    (same : (toString n).toList ++ (numberTail ks).toList =
      (toString m).toList ++ (numberTail ls).toList) :
    n = m ∧ (numberTail ks).toList = (numberTail ls).toList := by
  have first := congrArg (List.takeWhile (· ≠ '.')) same
  rw [takeWhile_digits, takeWhile_digits] at first
  rw [first] at same
  exact ⟨digits_injective first, List.append_cancel_left same⟩

theorem numberTail_injective {ks ls : List Nat}
    (same : (numberTail ks).toList = (numberTail ls).toList) : ks = ls := by
  induction ks generalizing ls with
  | nil =>
      cases ls with
      | nil => rfl
      | cons l ls => simp [numberTail] at same
  | cons k ks ih =>
      cases ls with
      | nil => simp [numberTail] at same
      | cons l ls =>
          simp only [numberTail, String.toList_append, List.append_assoc, List.append_cancel_left_eq] at same
          obtain ⟨rfl, rest⟩ := number_cons_injective same
          rw [ih rest]

theorem numberText_injective {number other : List Nat} (nonempty : number ≠ []) (otherNonempty : other ≠ [])
    (same : numberText number = numberText other) : number = other := by
  cases number with
  | nil => exact absurd rfl nonempty
  | cons n ks =>
      cases other with
      | nil => exact absurd rfl otherNonempty
      | cons m ls =>
          have chars := congrArg String.toList same
          simp only [numberText, String.toList_append] at chars
          obtain ⟨rfl, rest⟩ := number_cons_injective chars
          rw [numberTail_injective rest]

/-! ## Parts and their numbers -/

def isMultipart : ParsedMail → Bool
  | .mail head subparts _ => !head.isMessage && !subparts.isEmpty

mutual
/-- The parts within a part of this number that are not multiparts, each with its number. A message that
is not a multipart has one part, whose number is 1. -/
def partsAt (number : List Nat) : ParsedMail → List (List Nat × PartHead)
  | .mail head subparts embedded =>
      if head.isMessage then (number, head) :: embeddedPartsAt number embedded
      else if subparts.isEmpty then [(number, head)]
      else childPartsAt number 0 subparts
def embeddedPartsAt (number : List Nat) : Except String ParsedMail → List (List Nat × PartHead)
  | .error _ => []
  | .ok nested => partsAt (if isMultipart nested then number else number ++ [1]) nested
def childPartsAt (number : List Nat) : Nat → List ParsedMail → List (List Nat × PartHead)
  | _, [] => []
  | idx, child :: children => partsAt (number ++ [idx + 1]) child ++ childPartsAt number (idx + 1) children
end

def numberedParts (mail : ParsedMail) : List (List Nat × PartHead) :=
  partsAt (if isMultipart mail then [] else [1]) mail

mutual
/-- Whether a message that is a multipart is embedded in a part. -/
def embedsMultipart : ParsedMail → Bool
  | .mail head subparts embedded =>
      if head.isMessage then embeddedMultipart embedded else childEmbedsMultipart subparts
def embeddedMultipart : Except String ParsedMail → Bool
  | .error _ => false
  | .ok nested => isMultipart nested || embedsMultipart nested
def childEmbedsMultipart : List ParsedMail → Bool
  | [] => false
  | child :: children => embedsMultipart child || childEmbedsMultipart children
end

/-! ### Records and numbers side by side -/

/-- A part with the path that its record has and its number. -/
structure Place where
  stored : List Nat
  number : List Nat
  head : PartHead

mutual
def places (stored number : List Nat) : ParsedMail → List Place
  | .mail head subparts embedded =>
      if head.isMessage then ⟨stored, number, head⟩ :: embeddedPlaces stored number embedded
      else if subparts.isEmpty then [⟨stored, number, head⟩]
      else childPlaces stored number 0 subparts
def embeddedPlaces (stored number : List Nat) : Except String ParsedMail → List Place
  | .error _ => []
  | .ok nested => places (stored ++ [1]) (if isMultipart nested then number else number ++ [1]) nested
def childPlaces (stored number : List Nat) : Nat → List ParsedMail → List Place
  | _, [] => []
  | idx, child :: children =>
      places (stored ++ [idx + 1]) (number ++ [idx + 1]) child ++ childPlaces stored number (idx + 1) children
end

def messagePlaces (mail : ParsedMail) : List Place :=
  places [1] (if isMultipart mail then [] else [1]) mail

mutual
theorem places_numbers (stored number : List Nat) :
    ∀ mail, (places stored number mail).map (fun place => (place.number, place.head)) = partsAt number mail
  | .mail head subparts embedded => by
      rw [places, partsAt]
      split
      · rw [List.map_cons, embeddedPlaces_numbers]
      · split
        · rfl
        · exact childPlaces_numbers stored number 0 subparts
theorem embeddedPlaces_numbers (stored number : List Nat) :
    ∀ embedded, (embeddedPlaces stored number embedded).map (fun place => (place.number, place.head)) =
      embeddedPartsAt number embedded
  | .error _ => rfl
  | .ok nested => by
      rw [embeddedPlaces, embeddedPartsAt]
      exact places_numbers _ _ nested
theorem childPlaces_numbers (stored number : List Nat) :
    ∀ idx children, (childPlaces stored number idx children).map (fun place => (place.number, place.head)) =
      childPartsAt number idx children
  | _, [] => rfl
  | idx, child :: children => by
      rw [childPlaces, childPartsAt, List.map_append, places_numbers, childPlaces_numbers]
end

def IsRecord (lib : Libraries) (place : Place) (record : MimePartRecord) : Prop :=
  ∃ rawBytes, place.head.bodyRaw = .ok rawBytes ∧
    record = partRecord lib place.head (numberText place.stored) rawBytes

theorem decodeBody_ok {head : PartHead} {path : String} {rawBytes : Bytes}
    (decoded : decodeBody head path = .ok rawBytes) : head.bodyRaw = .ok rawBytes := by
  unfold decodeBody at decoded
  cases body : head.bodyRaw with
  | ok bytes =>
      rw [body] at decoded
      cases decoded
      rfl
  | error err =>
      rw [body] at decoded
      cases decoded

theorem numberText_ne_empty {number : List Nat} (nonempty : number ≠ []) :
    (numberText number).isEmpty = false := by
  cases number with
  | nil => exact absurd rfl nonempty
  | cons k ks =>
      rw [Bool.eq_false_iff]
      intro empty
      have chars := congrArg String.toList (String.isEmpty_iff.mp empty)
      simp [numberText] at chars

theorem childPath_eq {stored : List Nat} (nonempty : stored ≠ []) (idx : Nat) :
    childPath (numberText stored) idx = numberText (stored ++ [idx + 1]) := by
  rw [childPath, numberText_ne_empty nonempty, numberText_append nonempty]
  rfl

mutual
theorem buildPartTree_records (lib : Libraries) {stored : List Nat} (nonempty : stored ≠ []) (number : List Nat) :
    ∀ mail records, buildPartTree lib (numberText stored) mail = .ok records →
      List.Forall₂ (IsRecord lib) (places stored number mail) records
  | .mail head subparts embedded, records, built => by
      rw [buildPartTree] at built
      rw [places]
      split at built
      · rename_i message
        rw [if_pos message]
        cases decoded : decodeBody head (numberText stored) with
        | error err => rw [decoded] at built; cases built
        | ok rawBytes =>
            rw [decoded] at built
            change (buildEmbedded lib (numberText stored) embedded >>= _) = _ at built
            cases inner : buildEmbedded lib (numberText stored) embedded with
            | error err => rw [inner] at built; cases built
            | ok nested =>
                rw [inner] at built
                cases built
                exact .cons ⟨rawBytes, decodeBody_ok decoded, rfl⟩
                  (buildEmbedded_records lib nonempty number embedded nested inner)
      · rename_i other
        rw [if_neg other]
        split at built
        · rename_i leaf
          rw [if_pos leaf]
          cases decoded : decodeBody head (numberText stored) with
          | error err => rw [decoded] at built; cases built
          | ok rawBytes =>
              rw [decoded] at built
              cases built
              exact .cons ⟨rawBytes, decodeBody_ok decoded, rfl⟩ .nil
        · rename_i children
          rw [if_neg children]
          exact buildChildren_records lib nonempty number 0 subparts records built
theorem buildEmbedded_records (lib : Libraries) {stored : List Nat} (nonempty : stored ≠ []) (number : List Nat) :
    ∀ embedded records, buildEmbedded lib (numberText stored) embedded = .ok records →
      List.Forall₂ (IsRecord lib) (embeddedPlaces stored number embedded) records
  | .error _, _, built => by cases built
  | .ok nested, records, built => by
      rw [buildEmbedded] at built
      rw [embeddedPlaces]
      have path : numberText stored ++ ".1" = numberText (stored ++ [1]) := by
        have one : "." ++ toString 1 = ".1" := by decide +kernel
        rw [numberText_append nonempty, String.append_assoc, one]
      rw [path] at built
      exact buildPartTree_records lib (by simp) _ nested records built
theorem buildChildren_records (lib : Libraries) {stored : List Nat} (nonempty : stored ≠ []) (number : List Nat) :
    ∀ idx children records, buildChildren lib (numberText stored) idx children = .ok records →
      List.Forall₂ (IsRecord lib) (childPlaces stored number idx children) records
  | _, [], _, built => by
      cases built
      exact .nil
  | idx, child :: children, records, built => by
      rw [buildChildren, childPath_eq nonempty] at built
      rw [childPlaces]
      cases first : buildPartTree lib (numberText (stored ++ [idx + 1])) child with
      | error err => rw [first] at built; cases built
      | ok ofChild =>
          rw [first] at built
          change (buildChildren lib (numberText stored) (idx + 1) children >>= _) = _ at built
          cases later : buildChildren lib (numberText stored) (idx + 1) children with
          | error err => rw [later] at built; cases built
          | ok others =>
              rw [later] at built
              cases built
              exact List.rel_append
                (buildPartTree_records lib (by simp) _ child ofChild first)
                (buildChildren_records lib nonempty number (idx + 1) children others later)
end

/-! ### Where the paths and the numbers differ -/

mutual
theorem places_agree (number : List Nat) : ∀ mail, embedsMultipart mail = false →
    ∀ place ∈ places (1 :: number) number mail, place.stored = 1 :: place.number
  | .mail head subparts embedded, plain, place, member => by
      rw [embedsMultipart] at plain
      rw [places] at member
      split at plain
      · rename_i message
        rw [if_pos message] at member
        rcases List.mem_cons.mp member with rfl | member
        · rfl
        · exact embeddedPlaces_agree number embedded plain place member
      · rename_i other
        rw [if_neg other] at member
        split at member
        · rw [List.mem_singleton.mp member]
        · exact childPlaces_agree number 0 subparts plain place member
theorem embeddedPlaces_agree (number : List Nat) : ∀ embedded, embeddedMultipart embedded = false →
    ∀ place ∈ embeddedPlaces (1 :: number) number embedded, place.stored = 1 :: place.number
  | .error _, _, _, member => by
      rw [embeddedPlaces] at member
      cases member
  | .ok nested, plain, place, member => by
      rw [embeddedMultipart, Bool.or_eq_false_iff] at plain
      rw [embeddedPlaces, plain.1, if_neg (by decide), List.cons_append] at member
      exact places_agree (number ++ [1]) nested plain.2 place member
theorem childPlaces_agree (number : List Nat) : ∀ idx children, childEmbedsMultipart children = false →
    ∀ place ∈ childPlaces (1 :: number) number idx children, place.stored = 1 :: place.number
  | _, [], _, _, member => by
      rw [childPlaces] at member
      cases member
  | idx, child :: children, plain, place, member => by
      rw [childEmbedsMultipart, Bool.or_eq_false_iff] at plain
      rw [childPlaces, List.mem_append] at member
      rcases member with member | member
      · exact places_agree (number ++ [idx + 1]) child plain.1 place member
      · exact childPlaces_agree number (idx + 1) children plain.2 place member
end

mutual
theorem places_longer (stored number : List Nat) : ∀ mail, ∀ place ∈ places stored number mail,
    stored.length + place.number.length ≤ place.stored.length + number.length
  | .mail head subparts embedded, place, member => by
      rw [places] at member
      split at member
      · rcases List.mem_cons.mp member with rfl | member
        · exact le_refl _
        · exact embeddedPlaces_longer stored number embedded place member
      · split at member
        · rw [List.mem_singleton.mp member]
        · exact childPlaces_longer stored number 0 subparts place member
theorem embeddedPlaces_longer (stored number : List Nat) : ∀ embedded,
    ∀ place ∈ embeddedPlaces stored number embedded,
      stored.length + place.number.length ≤ place.stored.length + number.length
  | .error _, _, member => by
      rw [embeddedPlaces] at member
      cases member
  | .ok nested, place, member => by
      rw [embeddedPlaces] at member
      have longer := places_longer _ _ nested place member
      split at longer <;> simp only [List.length_append, List.length_singleton] at longer <;> omega
theorem childPlaces_longer (stored number : List Nat) : ∀ idx children,
    ∀ place ∈ childPlaces stored number idx children,
      stored.length + place.number.length ≤ place.stored.length + number.length
  | _, [], _, member => by
      rw [childPlaces] at member
      cases member
  | idx, child :: children, place, member => by
      rw [childPlaces, List.mem_append] at member
      rcases member with member | member
      · have longer := places_longer _ _ child place member
        simp only [List.length_append, List.length_singleton] at longer
        omega
      · exact childPlaces_longer stored number (idx + 1) children place member
end

theorem places_ne_nil (stored number : List Nat) : ∀ mail, places stored number mail ≠ []
  | .mail head subparts embedded => by
      rw [places]
      split
      · simp
      · split
        · simp
        · rename_i children
          cases subparts with
          | nil => exact absurd rfl children
          | cons child others =>
              rw [childPlaces]
              intro empty
              exact places_ne_nil _ _ child (List.append_eq_nil_iff.mp empty).1

mutual
/-- Within a message that is a multipart and in a part, a path is more than `1.` and the number. -/
theorem places_differ (stored number : List Nat) (gap : number.length < stored.length) :
    ∀ mail, embedsMultipart mail = true →
      ∃ place ∈ places stored number mail, place.number.length + 1 < place.stored.length
  | .mail head subparts embedded, embeds => by
      rw [embedsMultipart] at embeds
      rw [places]
      split at embeds
      · rename_i message
        rw [if_pos message]
        obtain ⟨place, member, longer⟩ := embeddedPlaces_differ stored number gap embedded embeds
        exact ⟨place, List.mem_cons_of_mem _ member, longer⟩
      · rename_i other
        have children : subparts.isEmpty = false := by
          cases subparts with
          | nil => cases embeds
          | cons child others => rfl
        rw [if_neg other, if_neg (by simp [children])]
        exact childPlaces_differ stored number gap 0 subparts embeds
theorem embeddedPlaces_differ (stored number : List Nat) (gap : number.length < stored.length) :
    ∀ embedded, embeddedMultipart embedded = true →
      ∃ place ∈ embeddedPlaces stored number embedded, place.number.length + 1 < place.stored.length
  | .error _, embeds => by cases embeds
  | .ok nested, embeds => by
      rw [embeddedMultipart, Bool.or_eq_true] at embeds
      rw [embeddedPlaces]
      cases multipart : isMultipart nested with
      | true =>
          rw [if_pos rfl]
          obtain ⟨place, member⟩ := List.exists_mem_of_ne_nil _ (places_ne_nil (stored ++ [1]) number nested)
          have longer := places_longer _ _ nested place member
          rw [List.length_append, List.length_singleton] at longer
          exact ⟨place, member, by omega⟩
      | false =>
          rw [if_neg (by decide)]
          rw [multipart] at embeds
          refine places_differ _ _ ?_ nested (embeds.resolve_left (by decide))
          simpa using gap
theorem childPlaces_differ (stored number : List Nat) (gap : number.length < stored.length) :
    ∀ idx children, childEmbedsMultipart children = true →
      ∃ place ∈ childPlaces stored number idx children, place.number.length + 1 < place.stored.length
  | _, [], embeds => by cases embeds
  | idx, child :: children, embeds => by
      rw [childEmbedsMultipart, Bool.or_eq_true] at embeds
      rw [childPlaces]
      rcases embeds with embeds | embeds
      · obtain ⟨place, member, longer⟩ := places_differ (stored ++ [idx + 1]) (number ++ [idx + 1])
          (by simpa using gap) child embeds
        exact ⟨place, List.mem_append_left _ member, longer⟩
      · obtain ⟨place, member, longer⟩ := childPlaces_differ stored number gap (idx + 1) children embeds
        exact ⟨place, List.mem_append_right _ member, longer⟩
end

/-! ### The paths of different parts differ -/

mutual
theorem places_within (stored number : List Nat) : ∀ mail, ∀ place ∈ places stored number mail,
    stored <+: place.stored
  | .mail head subparts embedded, place, member => by
      rw [places] at member
      split at member
      · rcases List.mem_cons.mp member with rfl | member
        · exact List.prefix_rfl
        · exact (List.prefix_append ..).trans (embeddedPlaces_within stored number embedded place member)
      · split at member
        · obtain rfl := List.mem_singleton.mp member
          exact List.prefix_rfl
        · obtain ⟨k, -, starts⟩ := childPlaces_within stored number 0 subparts place member
          exact (List.prefix_append ..).trans starts
theorem embeddedPlaces_within (stored number : List Nat) : ∀ embedded,
    ∀ place ∈ embeddedPlaces stored number embedded, stored ++ [1] <+: place.stored
  | .error _, _, member => by
      rw [embeddedPlaces] at member
      cases member
  | .ok nested, place, member => by
      rw [embeddedPlaces] at member
      exact places_within _ _ nested place member
theorem childPlaces_within (stored number : List Nat) : ∀ idx children,
    ∀ place ∈ childPlaces stored number idx children, ∃ k, idx < k ∧ stored ++ [k] <+: place.stored
  | _, [], _, member => by
      rw [childPlaces] at member
      cases member
  | idx, child :: children, place, member => by
      rw [childPlaces, List.mem_append] at member
      rcases member with member | member
      · exact ⟨idx + 1, by omega, places_within _ _ child place member⟩
      · obtain ⟨k, later, starts⟩ := childPlaces_within stored number (idx + 1) children place member
        exact ⟨k, by omega, starts⟩
end

theorem ne_of_branches {stored a b : List Nat} {k l : Nat} (first : stored ++ [k] <+: a)
    (second : stored ++ [l] <+: b) (different : k ≠ l) : a ≠ b := by
  rintro rfl
  obtain ⟨restA, rfl⟩ := first
  obtain ⟨restB, same⟩ := second
  simp only [List.append_assoc, List.append_cancel_left_eq, List.cons_append, List.nil_append,
    List.cons.injEq] at same
  exact different same.1.symm

def Apart (a b : Place) : Prop := a.stored ≠ b.stored

mutual
theorem places_apart (stored number : List Nat) : ∀ mail, (places stored number mail).Pairwise Apart
  | .mail head subparts embedded => by
      rw [places]
      split
      · refine List.pairwise_cons.mpr ⟨fun place member same => ?_, embeddedPlaces_apart stored number embedded⟩
        have longer := (embeddedPlaces_within stored number embedded place member).length_le
        rw [← same, List.length_append, List.length_singleton] at longer
        exact absurd longer (by simp)
      · split
        · exact List.pairwise_singleton ..
        · exact childPlaces_apart stored number 0 subparts
theorem embeddedPlaces_apart (stored number : List Nat) :
    ∀ embedded, (embeddedPlaces stored number embedded).Pairwise Apart
  | .error _ => by
      rw [embeddedPlaces]
      exact .nil
  | .ok nested => by
      rw [embeddedPlaces]
      exact places_apart _ _ nested
theorem childPlaces_apart (stored number : List Nat) :
    ∀ idx children, (childPlaces stored number idx children).Pairwise Apart
  | _, [] => by
      rw [childPlaces]
      exact .nil
  | idx, child :: children => by
      rw [childPlaces, List.pairwise_append]
      refine ⟨places_apart _ _ child, childPlaces_apart stored number (idx + 1) children, ?_⟩
      intro place member other inOthers
      obtain ⟨k, later, starts⟩ := childPlaces_within stored number (idx + 1) children other inOthers
      exact ne_of_branches (places_within _ _ child place member) starts (by omega)
end

mutual
theorem places_number_ne_nil (stored number : List Nat) : ∀ mail, number ≠ [] ∨ isMultipart mail = true →
    ∀ place ∈ places stored number mail, place.number ≠ []
  | .mail head subparts embedded, numbered, place, member => by
      rw [places] at member
      split at member
      · rename_i message
        have some : number ≠ [] := numbered.resolve_right (by simp [isMultipart, message])
        rcases List.mem_cons.mp member with rfl | member
        · exact some
        · exact embeddedPlaces_number_ne_nil stored number some embedded place member
      · rename_i other
        split at member
        · rename_i leaf
          rw [List.mem_singleton.mp member]
          exact numbered.resolve_right (by simp [isMultipart, leaf])
        · exact childPlaces_number_ne_nil stored number 0 subparts place member
theorem embeddedPlaces_number_ne_nil (stored number : List Nat) (some : number ≠ []) :
    ∀ embedded, ∀ place ∈ embeddedPlaces stored number embedded, place.number ≠ []
  | .error _, _, member => by
      rw [embeddedPlaces] at member
      cases member
  | .ok nested, place, member => by
      rw [embeddedPlaces] at member
      refine places_number_ne_nil _ _ nested (.inl ?_) place member
      split
      · exact some
      · simp
theorem childPlaces_number_ne_nil (stored number : List Nat) :
    ∀ idx children, ∀ place ∈ childPlaces stored number idx children, place.number ≠ []
  | _, [], _, member => by
      rw [childPlaces] at member
      cases member
  | idx, child :: children, place, member => by
      rw [childPlaces, List.mem_append] at member
      rcases member with member | member
      · exact places_number_ne_nil _ _ child (.inl (by simp)) place member
      · exact childPlaces_number_ne_nil stored number (idx + 1) children place member
end

theorem messagePlaces_ne_nil {mail : ParsedMail} {place : Place} (member : place ∈ messagePlaces mail) :
    place.stored ≠ [] := by
  intro empty
  have starts := places_within _ _ mail place member
  rw [empty] at starts
  exact absurd (List.prefix_nil.mp starts) (by simp)

theorem mimeParts_records {lib : Libraries} {mail : ParsedMail} {records : List MimePartRecord}
    (built : mimeParts lib mail = .ok records) :
    List.Forall₂ (IsRecord lib) (messagePlaces mail) records := by
  have one : numberText [1] = "1" := by decide +kernel
  unfold mimeParts at built
  rw [← one] at built
  exact buildPartTree_records lib (by simp) _ mail records built

/-- Parts that are recorded from the tree of a message are stored under the address of their bytes. -/
theorem keyedParts_of_mimeParts {lib : Libraries} (parses : ∀ raw parsed,
    lib.parseMessage raw = .ok parsed → ∃ mail, mimeParts lib mail = .ok parsed.mimeParts) :
    KeyedParts lib := by
  intro raw parsed read part member
  obtain ⟨mail, built⟩ := parses raw parsed read
  have recorded := mimeParts_records built
  obtain ⟨i, bound, rfl⟩ := List.mem_iff_getElem.mp member
  have bound' : i < (messagePlaces mail).length := by
    rw [recorded.length_eq]
    exact bound
  obtain ⟨rawBytes, -, eq⟩ := recorded.get bound' bound
  simp only [List.get_eq_getElem] at eq
  rw [eq]
  simp only [partRecord, Bool.or_eq_true, beq_iff_eq, Option.some.injEq]

/-! ## Numbers looked up -/

/-- The rows of the parts of a message of an account are these records, in their order. -/
structure Stored (db : Db) (accountId messageId : Int) (records : List MimePartRecord) : Prop where
  owned : (db.message messageId).any (fun message => message.data.accountId == accountId) = true
  rows : (db.mimeParts.rows.filter fun row : Row MimePart => row.data.messageId == messageId).map
    (·.data) = records.map (partRow messageId)

/-- What a FETCH finds for a part number: `load_raw_fetch_bytes` looks under `1.` and the number. -/
def lookup (db : Db) (accountId messageId : Int) (number : List Nat) : Option MimePart :=
  (db.findMimePartByMessageAndPath accountId messageId ("1." ++ numberText number)).map (·.data)

theorem find_map_data (rows : List (Row MimePart)) (p : MimePart → Bool) :
    (rows.find? fun row => p row.data).map (·.data) = (rows.map (·.data)).find? p := by
  rw [List.find?_map]
  rfl

theorem lookup_eq {db : Db} {accountId messageId : Int} {records : List MimePartRecord}
    (stored : Stored db accountId messageId records) (number : List Nat) :
    lookup db accountId messageId number =
      (records.find? fun record => record.partPath == "1." ++ numberText number).map (partRow messageId) := by
  have matched : (fun row : Row MimePart => row.data.messageId == messageId &&
      row.data.partPath == "1." ++ numberText number &&
      (db.message messageId).any fun message => message.data.accountId == accountId) =
      fun row => row.data.messageId == messageId && row.data.partPath == "1." ++ numberText number := by
    funext row
    rw [stored.owned, Bool.and_true]
  have filtered : (db.mimeParts.rows.find? fun row : Row MimePart =>
      row.data.messageId == messageId && row.data.partPath == "1." ++ numberText number) =
      (db.mimeParts.rows.filter fun row : Row MimePart => row.data.messageId == messageId).find?
        fun row => row.data.partPath == "1." ++ numberText number := by
    rw [List.find?_filter]
    simp only [Bool.decide_and, Bool.decide_eq_true]
  have byData := find_map_data (db.mimeParts.rows.filter fun row : Row MimePart =>
    row.data.messageId == messageId) fun part => part.partPath == "1." ++ numberText number
  unfold lookup Db.findMimePartByMessageAndPath Table.find
  rw [matched, filtered, byData, stored.rows, List.find?_map]
  rfl

theorem find_record {lib : Libraries} {places : List Place} {records : List MimePartRecord}
    (recorded : List.Forall₂ (IsRecord lib) places records) (apart : places.Pairwise Apart)
    (nonempty : ∀ place ∈ places, place.stored ≠ []) {pair : Place × MimePartRecord}
    (member : pair ∈ places.zip records) :
    records.find? (fun record => record.partPath == numberText pair.1.stored) = some pair.2 := by
  induction recorded with
  | nil => cases member
  | @cons place record places records isRecord recorded ih =>
      obtain ⟨rawBytes, -, rfl⟩ := isRecord
      obtain ⟨apartFirst, apartRest⟩ := List.pairwise_cons.mp apart
      rw [List.zip_cons_cons, List.mem_cons] at member
      rcases member with rfl | member
      · rw [List.find?_cons_of_pos (by simp [partRecord])]
      · have inRest : pair.1 ∈ places := (List.of_mem_zip member).1
        have different : numberText place.stored ≠ numberText pair.1.stored := fun same =>
          apartFirst pair.1 inRest (numberText_injective (nonempty place (by simp))
            (nonempty pair.1 (List.mem_cons_of_mem _ inRest)) same)
        rw [List.find?_cons_of_neg (by simpa [partRecord] using different)]
        exact ih apartRest (fun place member => nonempty place (List.mem_cons_of_mem _ member)) member

/-- Every number of a part of the message is resolved to the record of that part. -/
def Resolved (db : Db) (accountId messageId : Int) (mail : ParsedMail) (records : List MimePartRecord) :
    Prop :=
  ∀ numbered ∈ (numberedParts mail).zip records,
    lookup db accountId messageId numbered.1.1 = some (partRow messageId numbered.2)

theorem resolved_iff_paths {lib : Libraries} {db : Db} {accountId messageId : Int} {mail : ParsedMail}
    {records : List MimePartRecord}
    (recorded : List.Forall₂ (IsRecord lib) (messagePlaces mail) records)
    (stored : Stored db accountId messageId records) :
    Resolved db accountId messageId mail records ↔
      ∀ place ∈ messagePlaces mail, place.stored = 1 :: place.number := by
  have numbers : numberedParts mail =
      (messagePlaces mail).map fun place => (place.number, place.head) := (places_numbers ..).symm
  have numbered : ∀ place ∈ messagePlaces mail, place.number ≠ [] := by
    refine places_number_ne_nil _ _ mail ?_
    cases multipart : isMultipart mail with
    | true => exact .inr rfl
    | false => exact .inl (by simp)
  have nonempty : ∀ place ∈ messagePlaces mail, place.stored ≠ [] := fun _ => messagePlaces_ne_nil
  have apart : (messagePlaces mail).Pairwise Apart := places_apart ..
  have pairs : Resolved db accountId messageId mail records ↔
      ∀ pair ∈ (messagePlaces mail).zip records,
        lookup db accountId messageId pair.1.number = some (partRow messageId pair.2) := by
    unfold Resolved
    rw [numbers, List.zip_map_left]
    simp only [List.mem_map, Prod.map, id_eq]
    constructor
    · intro resolved pair member
      exact resolved ((pair.1.number, pair.1.head), pair.2) ⟨pair, member, rfl⟩
    · rintro resolved numbered ⟨pair, member, rfl⟩
      exact resolved pair member
  rw [pairs]
  constructor
  · intro resolved place member
    obtain ⟨record, inZip⟩ : ∃ record, (place, record) ∈ (messagePlaces mail).zip records := by
      obtain ⟨i, bound, rfl⟩ := List.mem_iff_getElem.mp member
      have length := recorded.length_eq
      have bound' : i < ((messagePlaces mail).zip records).length := by simp; omega
      exact ⟨records[i], by rw [← List.getElem_zip (h := bound')]; exact List.getElem_mem _⟩
    have found := resolved _ inZip
    rw [lookup_eq stored, Option.map_eq_some_iff] at found
    obtain ⟨other, found, same⟩ := found
    obtain ⟨rawBytes, -, rfl⟩ := (List.forall₂_iff_zip.mp recorded).2 inZip
    have path : other.partPath = "1." ++ numberText place.number := by
      simpa using List.find?_some found
    have rowPath := congrArg MimePart.partPath same
    simp only [partRow, partRecord] at rowPath
    rw [path, ← numberText_one (numbered place member)] at rowPath
    exact (numberText_injective (by simp) (nonempty place member) rowPath).symm
  · intro paths pair member
    have inPlaces := (List.of_mem_zip member).1
    rw [lookup_eq stored, ← numberText_one (numbered pair.1 inPlaces), ← paths pair.1 inPlaces,
      find_record recorded apart nonempty member]
    rfl

/-- The paths are `1.` and the numbers exactly if the message is a multipart and none is embedded. -/
theorem paths_agree_iff (mail : ParsedMail) :
    (∀ place ∈ messagePlaces mail, place.stored = 1 :: place.number) ↔
      isMultipart mail = true ∧ embedsMultipart mail = false := by
  constructor
  · intro agree
    cases multipart : isMultipart mail with
    | false =>
        obtain ⟨head, subparts, embedded⟩ := mail
        have first : ⟨[1], [1], head⟩ ∈ messagePlaces (.mail head subparts embedded) := by
          rw [messagePlaces, multipart, if_neg (by decide), places]
          split
          · exact List.mem_cons_self ..
          · rename_i other
            have leaf : subparts.isEmpty = true := by simpa [isMultipart, other] using multipart
            rw [if_pos leaf]
            exact List.mem_cons_self ..
        exact absurd (agree _ first) (by simp)
    | true =>
        refine ⟨rfl, ?_⟩
        cases embeds : embedsMultipart mail with
        | false => rfl
        | true =>
            have gap : ([] : List Nat).length < [1].length := by simp
            obtain ⟨place, member, longer⟩ := places_differ [1] [] gap mail embeds
            have inMessage : place ∈ messagePlaces mail := by
              rw [messagePlaces, multipart]
              exact member
            rw [agree place inMessage, List.length_cons] at longer
            omega
  · rintro ⟨multipart, plain⟩ place member
    rw [messagePlaces, multipart] at member
    exact places_agree [] mail plain place member

/-- The records of a message are those of its numbered parts, and every part number is resolved to its
part's record exactly if the message is a multipart and no message embedded in it is one. -/
theorem part_numbers_resolve_iff {lib : Libraries} {mail : ParsedMail} {records : List MimePartRecord}
    (built : mimeParts lib mail = .ok records) {db : Db} {accountId messageId : Int}
    (stored : Stored db accountId messageId records) :
    List.Forall₂ (fun numbered record => ∃ path rawBytes, numbered.2.bodyRaw = .ok rawBytes ∧
        record = partRecord lib numbered.2 path rawBytes) (numberedParts mail) records ∧
      (Resolved db accountId messageId mail records ↔
        isMultipart mail = true ∧ embedsMultipart mail = false) := by
  have recorded := mimeParts_records built
  refine ⟨?_, (resolved_iff_paths recorded stored).trans (paths_agree_iff mail)⟩
  have numbers : numberedParts mail =
      (messagePlaces mail).map fun place => (place.number, place.head) := (places_numbers ..).symm
  rw [numbers, List.forall₂_map_left_iff]
  refine recorded.imp fun place record isRecord => ?_
  obtain ⟨rawBytes, body, eq⟩ := isRecord
  exact ⟨_, rawBytes, body, eq⟩

/-! ## A text and a multipart -/

def partHead (mimetype : String) : PartHead :=
  { mimetype, charset := "us-ascii", ctypeParams := [], disposition := .inline, dispositionParams := []
    headers := [], bodyRaw := .ok Sample.bodyText }

def textMail : ParsedMail := .mail (partHead "text/plain") [] (.error "")

def multipartMail : ParsedMail := .mail (partHead "multipart/mixed") [textMail, textMail] (.error "")

def textRecord (path : String) : MimePartRecord :=
  partRecord Sample.libraries (partHead "text/plain") path Sample.bodyText

def partsDb (records : List MimePartRecord) : Db :=
  { Sample.db [] [] with mimeParts := .ofList (records.map (partRow 1)) }

theorem part_numbers_resolve_multipart :
    lookup (partsDb [textRecord "1.1", textRecord "1.2"]) 1 1 [2] = some (partRow 1 (textRecord "1.2")) := by
  have built : mimeParts Sample.libraries multipartMail = .ok [textRecord "1.1", textRecord "1.2"] := rfl
  have stored : Stored (partsDb [textRecord "1.1", textRecord "1.2"]) 1 1
      [textRecord "1.1", textRecord "1.2"] := ⟨by decide +kernel, rfl⟩
  have resolved := (part_numbers_resolve_iff built stored).2.mpr ⟨by decide +kernel, by decide +kernel⟩
  exact resolved (([2], partHead "text/plain"), textRecord "1.2")
    (List.mem_cons_of_mem _ (List.mem_singleton.mpr rfl))

/-- The only part of a text has the number 1, under which nothing is found. -/
theorem text_part_unresolved :
    ¬ ∀ (lib : Libraries) (mail : ParsedMail) (records : List MimePartRecord) (db : Db)
      (accountId messageId : Int), mimeParts lib mail = .ok records → Stored db accountId messageId records →
        Resolved db accountId messageId mail records := by
  intro resolves
  have built : mimeParts Sample.libraries textMail = .ok [textRecord "1"] := rfl
  have stored : Stored (partsDb [textRecord "1"]) 1 1 [textRecord "1"] := ⟨by decide +kernel, rfl⟩
  have resolved := resolves Sample.libraries textMail _ _ 1 1 built stored
    (([1], partHead "text/plain"), textRecord "1") (List.mem_singleton.mpr rfl)
  have missed : (lookup (partsDb [textRecord "1"]) 1 1 [1]).isNone = true := by decide +kernel
  rw [resolved] at missed
  cases missed

end ImapCache.PartNumbers
