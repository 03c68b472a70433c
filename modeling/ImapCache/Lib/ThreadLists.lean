import ImapCache.Lib.Forest
import Mathlib.Data.Nat.Digits.Defs

/-!
# Thread lists

How a list of threads is written. A thread is in parentheses. In it, numbers one after the other are a
message and its only reply, and two or more lists after a number are the replies to it. Every text
denotes one forest at most.
-/

namespace ImapCache.Lib.ThreadLists
open Forest

def digits (n : Nat) : List Char := Nat.toDigits 10 n

/-- What may stand between two lists: nothing, or a space where the grammar is `spaced`. -/
def Gap (spaced : Bool) (gap : List Char) : Prop := gap = [] ∨ spaced = true ∧ gap = [' ']

mutual
inductive ThreadList (spaced : Bool) : RoseTree Nat → List Char → Prop where
  | list {tree : RoseTree Nat} {text : List Char} (members : Members spaced tree text) :
      ThreadList spaced tree ('(' :: text ++ [')'])
/-- A number alone, with its only reply, or with lists of its replies. -/
inductive Members (spaced : Bool) : RoseTree Nat → List Char → Prop where
  | last (n : Nat) : Members spaced (.node n []) (digits n)
  | reply (n : Nat) {reply : RoseTree Nat} {text : List Char} (members : Members spaced reply text) :
      Members spaced (.node n [reply]) (digits n ++ ' ' :: text)
  | nested (n : Nat) {first second : RoseTree Nat} {others : List (RoseTree Nat)} {text : List Char}
      (lists : Lists spaced (first :: second :: others) text) :
      Members spaced (.node n (first :: second :: others)) (digits n ++ ' ' :: text)
inductive Lists (spaced : Bool) : List (RoseTree Nat) → List Char → Prop where
  | one {tree : RoseTree Nat} {text : List Char} (list : ThreadList spaced tree text) : Lists spaced [tree] text
  | more {tree next : RoseTree Nat} {trees : List (RoseTree Nat)} {text gap rest : List Char}
      (list : ThreadList spaced tree text) (between : Gap spaced gap)
      (lists : Lists spaced (next :: trees) rest) : Lists spaced (tree :: next :: trees) (text ++ (gap ++ rest))
end

/-- The text is that of the forest. -/
def Denotes (spaced : Bool) (text : List Char) (forest : List (RoseTree Nat)) : Prop :=
  forest = [] ∧ text = [] ∨ Lists spaced forest text

variable {spaced : Bool} {tree other : RoseTree Nat} {trees others : List (RoseTree Nat)}
  {text otherText rest otherRest : List Char}

/-! ## Numbers in a text -/

theorem digits_isDigit {n : Nat} {c : Char} (member : c ∈ digits n) : c.isDigit = true :=
  Nat.isDigit_of_mem_toDigits (by decide) (by decide) member

theorem digits_injective {n m : Nat} (same : digits n = digits m) : n = m := by
  unfold digits at same
  rw [← Nat.ofDigitChars_ten_toDigits (n := n), same, Nat.ofDigitChars_ten_toDigits]

theorem digits_starts (n : Nat) : ∃ c later, digits n = c :: later ∧ c.isDigit = true := by
  cases same : digits n with
  | nil => exact absurd same Nat.toDigits_ne_nil
  | cons c later => exact ⟨c, later, rfl, digits_isDigit (same ▸ List.mem_cons_self ..)⟩

theorem takeWhile_digits {n : Nat} {c : Char} (separator : c.isDigit = false) :
    (digits n ++ c :: rest).takeWhile Char.isDigit = digits n := by
  rw [List.takeWhile_append_of_pos fun d member => digits_isDigit member, List.takeWhile_cons_of_neg,
    List.append_nil]
  simp [separator]

theorem digits_append {n m : Nat} {c d : Char} (separator : c.isDigit = false) (otherSeparator : d.isDigit = false)
    (same : digits n ++ c :: rest = digits m ++ d :: otherRest) : n = m ∧ c :: rest = d :: otherRest := by
  have numbers := congrArg (List.takeWhile Char.isDigit) same
  rw [takeWhile_digits separator, takeWhile_digits otherSeparator] at numbers
  rw [numbers] at same
  exact ⟨digits_injective numbers, List.append_cancel_left same⟩

/-! ## How the texts begin -/

theorem ThreadList.starts (list : ThreadList spaced tree text) : ∃ later, text = '(' :: later := by
  cases list
  exact ⟨_, rfl⟩

theorem Lists.starts (lists : Lists spaced trees text) : ∃ later, text = '(' :: later := by
  cases lists with
  | one list => exact list.starts
  | more list between lists =>
      obtain ⟨later, rfl⟩ := list.starts
      exact ⟨_, rfl⟩

theorem Members.starts (members : Members spaced tree text) :
    ∃ c later, text = c :: later ∧ c.isDigit = true := by
  cases members with
  | last n => exact digits_starts n
  | reply n members =>
      obtain ⟨c, later, digits, isDigit⟩ := digits_starts n
      exact ⟨c, _, by rw [digits, List.cons_append], isDigit⟩
  | nested n lists =>
      obtain ⟨c, later, digits, isDigit⟩ := digits_starts n
      exact ⟨c, _, by rw [digits, List.cons_append], isDigit⟩

theorem Members.ne_lists (members : Members spaced tree text) (lists : Lists spaced trees otherText)
    (same : text ++ rest = otherText ++ otherRest) : False := by
  obtain ⟨c, later, rfl, isDigit⟩ := members.starts
  obtain ⟨later', rfl⟩ := lists.starts
  obtain ⟨rfl, -⟩ := List.cons.inj same
  exact absurd isDigit (by decide)

/-! ## One forest for a text -/

/-- The end of the text or of the list that it is in. -/
def Ends (rest : List Char) : Prop := rest = [] ∨ ∃ later, rest = ')' :: later

theorem Ends.ne_gap (ends : Ends rest) {gap : List Char} (between : Gap spaced gap)
    (lists : Lists spaced trees text) : rest ≠ gap ++ text ++ otherRest := by
  obtain ⟨later, rfl⟩ := lists.starts
  rcases ends with rfl | ⟨after, rfl⟩
  · simp
  · rcases between with rfl | ⟨-, rfl⟩
    · simp
    · simp

/-- Which text of members stands at the beginning of a text tells the thread. -/
def Unique (spaced : Bool) (tree : RoseTree Nat) : Prop :=
  ∀ ⦃other : RoseTree Nat⦄ ⦃text otherText rest otherRest : List Char⦄, Members spaced tree text →
    Members spaced other otherText → text ++ ')' :: rest = otherText ++ ')' :: otherRest →
      tree = other ∧ rest = otherRest

theorem ThreadList.unique (own : Unique spaced tree) (list : ThreadList spaced tree text)
    (otherList : ThreadList spaced other otherText) (same : text ++ rest = otherText ++ otherRest) :
    tree = other ∧ rest = otherRest := by
  cases list with
  | list members =>
      cases otherList with
      | list otherMembers =>
          rw [List.append_assoc, List.append_assoc] at same
          exact own members otherMembers (List.cons.inj same).2

theorem Lists.unique (each : ∀ tree ∈ trees, Unique spaced tree) (lists : Lists spaced trees text)
    (otherLists : Lists spaced others otherText) (ends : Ends rest) (otherEnds : Ends otherRest)
    (same : text ++ rest = otherText ++ otherRest) : trees = others ∧ rest = otherRest := by
  induction trees generalizing others text otherText with
  | nil => cases lists
  | cons tree trees ih =>
      have own := each tree (List.mem_cons_self ..)
      cases lists with
      | one list =>
          cases otherLists with
          | one otherList =>
              obtain ⟨rfl, same⟩ := list.unique own otherList same
              exact ⟨rfl, same⟩
          | more otherList between otherLists =>
              rw [List.append_assoc] at same
              obtain ⟨-, same⟩ := list.unique own otherList same
              exact absurd same (ends.ne_gap between otherLists)
      | more list between lists =>
          cases otherLists with
          | one otherList =>
              rw [List.append_assoc] at same
              obtain ⟨-, same⟩ := list.unique own otherList same
              exact absurd same.symm (otherEnds.ne_gap between lists)
          | more otherList otherBetween otherLists =>
              simp only [List.append_assoc] at same
              obtain ⟨rfl, after⟩ := list.unique own otherList same
              have later := ih (fun tree member => each tree (List.mem_cons_of_mem _ member)) lists otherLists
              obtain ⟨start, starts⟩ := lists.starts
              obtain ⟨otherStart, otherStarts⟩ := otherLists.starts
              rcases between with rfl | ⟨-, rfl⟩
              · rcases otherBetween with rfl | ⟨-, rfl⟩
                · obtain ⟨rest, ended⟩ := later after
                  exact ⟨congrArg _ rest, ended⟩
                · rw [starts] at after
                  cases (List.cons.inj after).1
              · rcases otherBetween with rfl | ⟨-, rfl⟩
                · rw [otherStarts] at after
                  cases (List.cons.inj after).1
                · obtain ⟨rest, ended⟩ := later (List.cons.inj after).2
                  exact ⟨congrArg _ rest, ended⟩

theorem Members.unique (tree : RoseTree Nat) : Unique spaced tree := by
  induction tree with
  | node label branches ih =>
      intro other text otherText rest otherRest members otherMembers same
      cases members with
      | last n =>
          cases otherMembers with
          | last m =>
              obtain ⟨rfl, after⟩ := digits_append (by decide) (by decide) same
              exact ⟨rfl, (List.cons.inj after).2⟩
          | reply m otherMembers =>
              rw [List.append_assoc, List.cons_append] at same
              obtain ⟨-, after⟩ := digits_append (by decide) (by decide) same
              cases (List.cons.inj after).1
          | nested m otherLists =>
              rw [List.append_assoc, List.cons_append] at same
              obtain ⟨-, after⟩ := digits_append (by decide) (by decide) same
              cases (List.cons.inj after).1
      | reply n members =>
          rw [List.append_assoc, List.cons_append] at same
          cases otherMembers with
          | last m =>
              obtain ⟨-, after⟩ := digits_append (by decide) (by decide) same
              cases (List.cons.inj after).1
          | reply m otherMembers =>
              rw [List.append_assoc, List.cons_append] at same
              obtain ⟨rfl, after⟩ := digits_append (by decide) (by decide) same
              obtain ⟨rfl, ended⟩ := ih _ (List.mem_singleton.mpr rfl) members otherMembers (List.cons.inj after).2
              exact ⟨rfl, ended⟩
          | nested m otherLists =>
              rw [List.append_assoc, List.cons_append] at same
              obtain ⟨rfl, after⟩ := digits_append (by decide) (by decide) same
              exact (members.ne_lists otherLists (List.cons.inj after).2).elim
      | nested n lists =>
          rw [List.append_assoc, List.cons_append] at same
          cases otherMembers with
          | last m =>
              obtain ⟨-, after⟩ := digits_append (by decide) (by decide) same
              cases (List.cons.inj after).1
          | reply m otherMembers =>
              rw [List.append_assoc, List.cons_append] at same
              obtain ⟨rfl, after⟩ := digits_append (by decide) (by decide) same
              exact (otherMembers.ne_lists lists (List.cons.inj after).2.symm).elim
          | nested m otherLists =>
              rw [List.append_assoc, List.cons_append] at same
              obtain ⟨rfl, after⟩ := digits_append (by decide) (by decide) same
              obtain ⟨trees, ended⟩ := lists.unique ih otherLists (.inr ⟨_, rfl⟩) (.inr ⟨_, rfl⟩)
                (List.cons.inj after).2
              exact ⟨congrArg _ trees, (List.cons.inj ended).2⟩

/-- A text denotes one forest at most. -/
theorem Denotes.unique (denotes : Denotes spaced text trees) (otherDenotes : Denotes spaced text others) :
    trees = others := by
  rcases denotes with ⟨rfl, rfl⟩ | lists
  · rcases otherDenotes with ⟨rfl, -⟩ | otherLists
    · rfl
    · obtain ⟨_, starts⟩ := otherLists.starts
      cases starts
  · rcases otherDenotes with ⟨rfl, rfl⟩ | otherLists
    · obtain ⟨_, starts⟩ := lists.starts
      cases starts
    · exact (lists.unique (fun tree _ => Members.unique tree) otherLists (.inl rfl) (.inl rfl) rfl).1

end ImapCache.Lib.ThreadLists
