import ImapCache.Model.Sample
import ImapCache.Proof.CommandStream
import ImapCache.Proof.KnownKeys

/-!
# Search keys printed and read

A tree of NOT, OR and keys is printed in prefix order. The parser reads it back as that tree, whatever
follows it, and refuses every proper beginning of it.
-/

namespace ImapCache.Search

/-! ## Keys that are cut off -/

namespace PrintedKey
variable {lib : Libraries} (printed : PrintedKey lib)

theorem values_cut {values : List String} (cut : values <+: printed.key.values)
    (proper : values ≠ printed.key.values) :
    (values = [] ∧ printed.key.values ≠ []) ∨
      ∃ field value, printed.key = .header field value ∧ values = [field] := by
  cases values with
  | nil => exact .inl ⟨rfl, fun empty => proper empty.symm⟩
  | cons first values =>
      right
      have single {value : String} (same : printed.key.values = [value]) : False := by
        rw [same] at cut proper
        obtain ⟨rfl, rest⟩ := List.cons_prefix_cons.mp cut
        obtain rfl := List.prefix_nil.mp rest
        exact proper rfl
      cases key : printed.key with
      | header field value =>
          rw [key] at cut proper
          obtain ⟨rfl, rest⟩ := List.cons_prefix_cons.mp cut
          refine ⟨_, _, rfl, ?_⟩
          cases values with
          | nil => rfl
          | cons second values =>
              obtain ⟨rfl, beyond⟩ := List.cons_prefix_cons.mp rest
              obtain rfl := List.prefix_nil.mp beyond
              exact absurd rfl proper
      | all | recent | new | old =>
          rw [key] at cut
          cases List.prefix_nil.mp cut
      | inField field term => exact (single (by rw [key]; rfl)).elim
      | body term => exact (single (by rw [key]; rfl)).elim
      | text term => exact (single (by rw [key]; rfl)).elim
      | row row =>
          cases row with
          | flag system wanted =>
              rw [key] at cut
              cases List.prefix_nil.mp cut
          | _ => exact (single (by rw [key]; rfl)).elim

theorem parse_cut (fuel : Nat) {values : List String} (cut : values <+: printed.key.values)
    (proper : values ≠ printed.key.values) :
    ∃ failure, parseTerm lib (fuel + 1) (printed.word :: values) = .error failure := by
  rw [parseTerm_name printed.spelled]
  rcases printed.values_cut cut proper with ⟨rfl, needed⟩ | ⟨field, value, key, rfl⟩
  · cases key : printed.key with
    | all | recent | new | old =>
        rw [key] at needed
        exact absurd rfl needed
    | inField field term => cases field <;> exact ⟨_, rfl⟩
    | row row =>
        cases row with
        | flag system wanted =>
            rw [key] at needed
            exact absurd rfl needed
        | keyword word wanted => cases wanted <;> exact ⟨_, rfl⟩
        | internalDate relation text day reads => cases relation <;> exact ⟨_, rfl⟩
        | sentDate relation text day reads => cases relation <;> exact ⟨_, rfl⟩
        | _ => exact ⟨_, rfl⟩
    | _ => exact ⟨_, rfl⟩
  · rw [key]
    exact ⟨_, rfl⟩

end PrintedKey

/-! ## Trees -/

inductive SearchTree (lib : Libraries) where
  | leaf (key : KnownKey lib)
  | not (inner : SearchTree lib)
  | or (left right : SearchTree lib)

namespace SearchTree
variable {lib : Libraries}

def expr : SearchTree lib → SearchExpr
  | leaf key => .leaf key.leaf
  | not inner => .not inner.expr
  | or left right => .or left.expr right.expr

/-- The tokens that a tree is printed as, every name in any letter case. -/
inductive Printed : SearchTree lib → List String → Prop where
  | leaf {key : KnownKey lib} {word : String} (spelled : toAsciiUppercase word = key.name) :
      Printed (.leaf key) (word :: key.values)
  | not {inner : SearchTree lib} {word : String} {tokens : List String}
      (spelled : toAsciiUppercase word = "NOT") (printed : Printed inner tokens) :
      Printed (.not inner) (word :: tokens)
  | or {left right : SearchTree lib} {word : String} {leftTokens rightTokens : List String}
      (spelled : toAsciiUppercase word = "OR") (printedLeft : Printed left leftTokens)
      (printedRight : Printed right rightTokens) :
      Printed (.or left right) (word :: (leftTokens ++ rightTokens))

theorem parseTerm_not {word : String} (spelled : toAsciiUppercase word = "NOT") (fuel : Nat)
    (rest : List String) :
    parseTerm lib (fuel + 1) (word :: rest) =
      parseTerm lib fuel rest >>= fun inner => .ok (.not inner.1, inner.2) := by
  have isNot : eqIgnoreAsciiCase word "NOT" = true := by
    rw [← eqIgnoreAsciiCase_toAsciiUppercase, spelled]
    decide +kernel
  rw [parseTerm_cons, if_pos isNot]

theorem parseTerm_or {word : String} (spelled : toAsciiUppercase word = "OR") (fuel : Nat)
    (rest : List String) :
    parseTerm lib (fuel + 1) (word :: rest) =
      parseTerm lib fuel rest >>= fun left =>
        parseTerm lib fuel left.2 >>= fun right => .ok (.or left.1 right.1, right.2) := by
  have words : eqIgnoreAsciiCase word "NOT" = false ∧ eqIgnoreAsciiCase word "OR" = true := by
    rw [← eqIgnoreAsciiCase_toAsciiUppercase word "NOT", ← eqIgnoreAsciiCase_toAsciiUppercase word "OR",
      spelled]
    decide +kernel
  rw [parseTerm_cons, if_neg (by simp [words.1]), if_pos words.2]

theorem parseTerm_printed {tree : SearchTree lib} {tokens : List String} (printed : tree.Printed tokens)
    {fuel : Nat} (enough : tokens.length ≤ fuel) (rest : List String) :
    parseTerm lib fuel (tokens ++ rest) = .ok (tree.expr, rest) := by
  induction printed generalizing fuel rest with
  | @leaf key word spelled =>
      obtain ⟨fuel, rfl⟩ : ∃ n, fuel = n + 1 := ⟨fuel - 1, by simp at enough; omega⟩
      exact (PrintedKey.sentKey ⟨key, word, spelled⟩).parseTerm_tokens fuel rest
  | not spelled printed ih =>
      simp only [List.length_cons] at enough
      obtain ⟨fuel, rfl⟩ : ∃ n, fuel = n + 1 := ⟨fuel - 1, by omega⟩
      rw [List.cons_append, parseTerm_not spelled, ih (by omega)]
      rfl
  | @or left right word leftTokens rightTokens spelled printedLeft printedRight ihLeft ihRight =>
      simp only [List.length_cons, List.length_append] at enough
      obtain ⟨fuel, rfl⟩ : ∃ n, fuel = n + 1 := ⟨fuel - 1, by omega⟩
      have enoughLeft : leftTokens.length ≤ fuel := by omega
      have enoughRight : rightTokens.length ≤ fuel := by omega
      have readLeft := ihLeft enoughLeft (rightTokens ++ rest)
      have readRight := ihRight enoughRight rest
      rw [List.cons_append, List.append_assoc, parseTerm_or spelled, readLeft]
      change parseTerm lib fuel (rightTokens ++ rest) >>= _ = _
      rw [readRight]
      rfl

/-- A proper beginning of two lists ends within the first one or is all of it and a proper beginning
of the second one. -/
theorem prefix_append_cases {α : Type} {start left right : List α} (cut : start <+: left ++ right)
    (proper : start ≠ left ++ right) :
    (start <+: left ∧ start ≠ left) ∨
      ∃ others, start = left ++ others ∧ others <+: right ∧ others ≠ right := by
  rcases List.prefix_or_prefix_of_prefix cut (List.prefix_append left right) with within | ⟨others, rfl⟩
  · by_cases all : start = left
    · subst all
      exact .inr ⟨[], by simp, List.nil_prefix, fun empty => proper (by simp [← empty])⟩
    · exact .inl ⟨within, all⟩
  · have cutRight : others <+: right := (List.prefix_append_right_inj left).mp cut
    exact .inr ⟨others, rfl, cutRight, fun all => proper (by rw [all])⟩

theorem parseTerm_cut {tree : SearchTree lib} {tokens : List String} (printed : tree.Printed tokens)
    {start : List String} (cut : start <+: tokens) (proper : start ≠ tokens) {fuel : Nat}
    (enough : start.length ≤ fuel) : ∃ failure, parseTerm lib fuel start = .error failure := by
  induction printed generalizing start fuel with
  | @leaf key word spelled =>
      cases start with
      | nil => exact ⟨_, by cases fuel <;> rfl⟩
      | cons token values =>
          obtain ⟨rfl, cutValues⟩ := List.cons_prefix_cons.mp cut
          obtain ⟨fuel, rfl⟩ : ∃ n, fuel = n + 1 := ⟨fuel - 1, by simp at enough; omega⟩
          exact PrintedKey.parse_cut ⟨key, token, spelled⟩ fuel cutValues fun all =>
            proper (by rw [all])
  | @not inner word tokens spelled printed ih =>
      cases start with
      | nil => exact ⟨_, by cases fuel <;> rfl⟩
      | cons token others =>
          obtain ⟨rfl, cutInner⟩ := List.cons_prefix_cons.mp cut
          simp only [List.length_cons] at enough
          obtain ⟨fuel, rfl⟩ : ∃ n, fuel = n + 1 := ⟨fuel - 1, by omega⟩
          have enoughInner : others.length ≤ fuel := by omega
          obtain ⟨failure, refused⟩ := ih cutInner (fun all => proper (by rw [all])) enoughInner
          exact ⟨failure, by rw [parseTerm_not spelled, refused]; rfl⟩
  | @or left right word leftTokens rightTokens spelled printedLeft printedRight ihLeft ihRight =>
      cases start with
      | nil => exact ⟨_, by cases fuel <;> rfl⟩
      | cons token others =>
          obtain ⟨rfl, cutBoth⟩ := List.cons_prefix_cons.mp cut
          simp only [List.length_cons] at enough
          obtain ⟨fuel, rfl⟩ : ∃ n, fuel = n + 1 := ⟨fuel - 1, by omega⟩
          rw [parseTerm_or spelled]
          rcases prefix_append_cases cutBoth (fun all => proper (by rw [all])) with
            ⟨cutLeft, properLeft⟩ | ⟨others, rfl, cutRight, properRight⟩
          · have enoughLeft : others.length ≤ fuel := by omega
            obtain ⟨failure, refused⟩ := ihLeft cutLeft properLeft enoughLeft
            exact ⟨failure, by rw [refused]; rfl⟩
          · simp only [List.length_append] at enough
            have enoughLeft : leftTokens.length ≤ fuel := by omega
            have enoughRight : others.length ≤ fuel := by omega
            obtain ⟨failure, refused⟩ := ihRight cutRight properRight enoughRight
            have readLeft := parseTerm_printed printedLeft enoughLeft others
            refine ⟨failure, ?_⟩
            rw [readLeft]
            change parseTerm lib fuel others >>= _ = _
            rw [refused]
            rfl

/-- A printed tree is read as the tree, up to the first token that follows it, and none of its proper
beginnings is read. -/
theorem parse_inverts_print {tree : SearchTree lib} {tokens : List String} (printed : tree.Printed tokens) :
    (∀ rest, parseTerm lib (tokens ++ rest).length (tokens ++ rest) = .ok (tree.expr, rest)) ∧
      ∀ start, start <+: tokens → start ≠ tokens →
        ∃ failure, parseTerm lib start.length start = .error failure := by
  refine ⟨fun rest => ?_, fun start cut proper => parseTerm_cut printed cut proper (le_refl _)⟩
  exact parseTerm_printed printed (by simp) rest

def larger (size : Nat) (fits : size < 18446744073709551616) : SearchTree lib :=
  .leaf (.row (.larger (toString size) size (by rw [CommandStream.parseU64_toString, if_pos fits])))

theorem larger_printed (size : Nat) (fits : size < 18446744073709551616) :
    (larger size fits : SearchTree lib).Printed ["LARGER", toString size] := by
  have spelled : toAsciiUppercase "LARGER" = "LARGER" := by decide +kernel
  exact .leaf spelled

/-- Neither larger than ten bytes nor about the text `NOT`. -/
def sampleTree : SearchTree Sample.libraries :=
  .not (.or (larger 10 (by decide)) (.leaf (.inField .subject "NOT")))

theorem sampleTree_printed :
    sampleTree.Printed ("not" :: ("Or" :: (["LARGER", toString 10] ++ ["subject", "NOT"]))) :=
  .not (by decide +kernel) (.or (by decide +kernel) (larger_printed 10 (by decide))
    (.leaf (by decide +kernel)))

theorem parse_inverts_print_sample :
    parseTerm Sample.libraries 8 ["not", "Or", "LARGER", "10", "subject", "NOT", "UID", "1"] =
        .ok (sampleTree.expr, ["UID", "1"]) ∧
      ∃ failure, parseTerm Sample.libraries 5 ["not", "Or", "LARGER", "10", "subject"] =
        .error failure := by
  obtain ⟨read, refused⟩ := parse_inverts_print sampleTree_printed
  have cut : ["not", "Or", "LARGER", "10", "subject"] <+:
      "not" :: ("Or" :: (["LARGER", toString 10] ++ ["subject", "NOT"])) := ⟨["NOT"], by decide +kernel⟩
  exact ⟨read ["UID", "1"], refused _ cut (by decide +kernel)⟩

end SearchTree

end ImapCache.Search
