import Mathlib.Data.List.Forall2

/-!
# S-expressions

A reader of lists, NIL, numbers and quoted strings, which takes one character at a time. It does not look
ahead, so that what it makes of a text is put together from what it makes of the parts.
-/

namespace ImapCache.Lib

inductive Sexpr where
  | nil
  | number (value : Int)
  | text (value : List Char)
  | list (items : List Sexpr)

namespace Sexpr

/-! ## The reader -/

def natural (digits : List Char) : Option Nat :=
  if digits.isEmpty || digits.any (!·.isDigit) then none else some (Nat.ofDigitChars 10 digits 0)

/-- A word is NIL or a number. -/
def atom (word : List Char) : Option Sexpr :=
  if word = ['N', 'I', 'L'] then some nil
  else
    match word with
    | '-' :: digits => (natural digits).map fun (n : Nat) => number (-n)
    | digits => (natural digits).map fun (n : Nat) => number n

inductive Mode where
  | between
  | word (chars : List Char)
  | quoted (chars : List Char)
  /-- After a backslash. -/
  | escaped (chars : List Char)

/-- The items of the innermost open list, and those of the lists around it. -/
structure Reader where
  mode : Mode
  outer : List (List Sexpr)
  items : List Sexpr

namespace Reader

def add (reader : Reader) (item : Sexpr) : Reader :=
  { reader with mode := .between, items := reader.items ++ [item] }

/-- End the word that is being read. -/
def settle (reader : Reader) : Option Reader :=
  match reader.mode with
  | .between => some reader
  | .word chars => (atom chars).map reader.add
  | .quoted _ | .escaped _ => none

def begin (reader : Reader) : Reader :=
  { mode := .between, outer := reader.items :: reader.outer, items := [] }

def close (reader : Reader) : Option Reader :=
  match reader.outer with
  | [] => none
  | items :: outer => some { mode := .between, outer, items := items ++ [list reader.items] }

def step (reader : Reader) (c : Char) : Option Reader :=
  match reader.mode with
  | .quoted chars =>
      if c = '"' then some (reader.add (text chars))
      else if c = '\\' then some { reader with mode := .escaped chars }
      else some { reader with mode := .quoted (chars ++ [c]) }
  | .escaped chars => some { reader with mode := .quoted (chars ++ [c]) }
  | .between | .word _ =>
      if c = ' ' then reader.settle
      else if c = '(' then reader.settle.map begin
      else if c = ')' then reader.settle.bind close
      else if c = '"' then reader.settle.map fun reader => { reader with mode := .quoted [] }
      else
        match reader.mode with
        | .word chars => some { reader with mode := .word (chars ++ [c]) }
        | _ => some { reader with mode := .word [c] }

end Reader

/-- The items of a text whose lists are all closed. -/
def read (text : List Char) : Option (List Sexpr) :=
  (text.foldlM Reader.step ⟨.between, [], []⟩).bind fun reader => reader.settle.bind fun reader =>
    if reader.outer.isEmpty then some reader.items else none

/-! ## Reading parts -/

/-- A text adds its items to any list, once its last word is ended. -/
def Reads (text : List Char) (items : List Sexpr) : Prop :=
  ∀ outer before, (text.foldlM Reader.step ⟨.between, outer, before⟩).bind Reader.settle =
    some ⟨.between, outer, before ++ items⟩

theorem Reads.read_eq {text : List Char} {items : List Sexpr} (reads : Reads text items) :
    read text = some items := by
  have done := reads [] []
  unfold read
  cases folded : text.foldlM Reader.step ⟨.between, [], []⟩ with
  | none =>
      rw [folded] at done
      cases done
  | some reader =>
      rw [folded, Option.bind_some] at done
      rw [Option.bind_some, done]
      rfl

theorem reads_nil : Reads [] [] := by
  intro outer before
  change some _ = some _
  rw [List.append_nil]

theorem step_space (reader : Reader) (outside : reader.settle.isSome) : reader.step ' ' = reader.settle := by
  unfold Reader.step
  unfold Reader.settle at outside ⊢
  cases mode : reader.mode with
  | between => simp
  | word chars => simp
  | quoted chars => simp [mode] at outside
  | escaped chars => simp [mode] at outside

theorem step_close (reader : Reader) (outside : reader.settle.isSome) :
    reader.step ')' = reader.settle.bind Reader.close := by
  unfold Reader.step
  unfold Reader.settle at outside ⊢
  cases mode : reader.mode with
  | between => simp
  | word chars => simp
  | quoted chars => simp [mode] at outside
  | escaped chars => simp [mode] at outside

theorem Reads.space {a b : List Char} {items others : List Sexpr} (first : Reads a items)
    (second : Reads b others) : Reads (a ++ ' ' :: b) (items ++ others) := by
  intro outer before
  obtain ⟨reader, folded, settled⟩ := Option.bind_eq_some_iff.mp (first outer before)
  rw [List.foldlM_append, folded]
  change ((' ' :: b).foldlM Reader.step reader).bind Reader.settle = _
  rw [List.foldlM_cons, step_space reader (by rw [settled]; rfl), settled]
  change (b.foldlM Reader.step _).bind Reader.settle = _
  rw [second, List.append_assoc]

theorem Reads.list {text : List Char} {items : List Sexpr} (inner : Reads text items) :
    Reads ('(' :: (text ++ [')'])) [list items] := by
  intro outer before
  obtain ⟨reader, folded, settled⟩ := Option.bind_eq_some_iff.mp (inner (before :: outer) [])
  rw [List.foldlM_cons]
  change ((text ++ [')']).foldlM Reader.step ⟨.between, before :: outer, []⟩).bind Reader.settle = _
  rw [List.foldlM_append, folded]
  change ((reader.step ')').bind fun reader => some reader).bind Reader.settle = _
  rw [step_close reader (by rw [settled]; rfl), settled]
  rfl

/-- The characters of a word. -/
def isWordChar (c : Char) : Bool := c != ' ' && c != '(' && c != ')' && c != '"'

theorem step_word {c : Char} (plain : isWordChar c = true) (outer : List (List Sexpr))
    (before : List Sexpr) (chars : List Char) :
    Reader.step ⟨.word chars, outer, before⟩ c = some ⟨.word (chars ++ [c]), outer, before⟩ := by
  simp only [isWordChar, Bool.and_eq_true, bne_iff_ne] at plain
  obtain ⟨⟨⟨noSpace, noOpen⟩, noClose⟩, noQuote⟩ := plain
  simp [Reader.step, noSpace, noOpen, noClose, noQuote]

theorem foldlM_word {word : List Char} (plain : ∀ c ∈ word, isWordChar c = true)
    (outer : List (List Sexpr)) (before : List Sexpr) (chars : List Char) :
    word.foldlM Reader.step ⟨.word chars, outer, before⟩ = some ⟨.word (chars ++ word), outer, before⟩ := by
  induction word generalizing chars with
  | nil => rw [List.append_nil]; rfl
  | cons c word ih =>
      rw [List.foldlM_cons, step_word (plain c List.mem_cons_self)]
      change word.foldlM Reader.step ⟨.word (chars ++ [c]), outer, before⟩ = _
      rw [ih fun c member => plain c (List.mem_cons_of_mem _ member)]
      simp

theorem reads_word {word : List Char} {item : Sexpr} (some : word ≠ [])
    (plain : ∀ c ∈ word, isWordChar c = true) (isAtom : atom word = Option.some item) :
    Reads word [item] := by
  intro outer before
  cases word with
  | nil => exact absurd rfl some
  | cons c word =>
      have first : Reader.step ⟨.between, outer, before⟩ c = Option.some ⟨.word [c], outer, before⟩ := by
        have plain := plain c List.mem_cons_self
        simp only [isWordChar, Bool.and_eq_true, bne_iff_ne] at plain
        obtain ⟨⟨⟨noSpace, noOpen⟩, noClose⟩, noQuote⟩ := plain
        simp [Reader.step, noSpace, noOpen, noClose, noQuote]
      rw [List.foldlM_cons, first]
      change (word.foldlM Reader.step ⟨.word [c], outer, before⟩).bind Reader.settle = _
      rw [foldlM_word fun c member => plain c (List.mem_cons_of_mem _ member)]
      change (atom (c :: word)).map _ = _
      rw [isAtom]
      rfl

/-! ### Quoted strings -/

def escape (c : Char) : List Char := if c = '\\' then ['\\', '\\'] else if c = '"' then ['\\', '"'] else [c]

theorem foldlM_escape (value : List Char) (outer : List (List Sexpr)) (before : List Sexpr)
    (chars : List Char) : (value.flatMap escape).foldlM Reader.step ⟨.quoted chars, outer, before⟩ =
      some ⟨.quoted (chars ++ value), outer, before⟩ := by
  induction value generalizing chars with
  | nil => rw [List.append_nil]; rfl
  | cons c value ih =>
      have char : (escape c).foldlM Reader.step ⟨.quoted chars, outer, before⟩ =
          some ⟨.quoted (chars ++ [c]), outer, before⟩ := by
        unfold escape
        split
        · subst c
          rfl
        · split
          · subst c
            rfl
          · rename_i noBackslash noQuote
            simp [Reader.step, noBackslash, noQuote]
      rw [List.flatMap_cons, List.foldlM_append, char]
      change (value.flatMap escape).foldlM Reader.step ⟨.quoted (chars ++ [c]), outer, before⟩ = _
      rw [ih]
      simp

theorem reads_quoted (value : List Char) :
    Reads ('"' :: (value.flatMap escape ++ ['"'])) [text value] := by
  intro outer before
  rw [List.foldlM_cons]
  change ((value.flatMap escape ++ ['"']).foldlM Reader.step ⟨.quoted [], outer, before⟩).bind Reader.settle = _
  rw [List.foldlM_append, foldlM_escape]
  rfl

/-! ### Words -/

theorem reads_NIL : Reads ['N', 'I', 'L'] [nil] := reads_word (by simp) (by simp [isWordChar]) rfl

theorem natural_toDigits (n : Nat) : natural (Nat.toDigits 10 n) = some n := by
  have digits : ∀ c ∈ Nat.toDigits 10 n, c.isDigit = true := fun c member =>
    Nat.isDigit_of_mem_toDigits (by decide) (by decide) member
  have wellFormed : ((Nat.toDigits 10 n).isEmpty || (Nat.toDigits 10 n).any (!·.isDigit)) = false := by
    simpa [Nat.toDigits_ne_nil] using digits
  rw [natural, if_neg (by rw [wellFormed]; exact Bool.false_ne_true), Nat.ofDigitChars_ten_toDigits]

theorem isWordChar_of_isDigit {c : Char} (digit : c.isDigit = true) : isWordChar c = true := by
  have other (d : Char) (noDigit : d.isDigit = false) : (c != d) = true := by
    rw [bne_iff_ne]
    rintro rfl
    rw [noDigit] at digit
    cases digit
  simp [isWordChar, other ' ' (by decide), other '(' (by decide), other ')' (by decide),
    other '"' (by decide)]

theorem reads_natural (n : Nat) : Reads (Nat.toDigits 10 n) [number n] := by
  have digit : ∀ c ∈ Nat.toDigits 10 n, c.isDigit = true := fun c member =>
    Nat.isDigit_of_mem_toDigits (by decide) (by decide) member
  refine reads_word Nat.toDigits_ne_nil (fun c member => isWordChar_of_isDigit (digit c member)) ?_
  have value := natural_toDigits n
  have noNIL : Nat.toDigits 10 n ≠ ['N', 'I', 'L'] := fun shape =>
    absurd (digit 'N' (by rw [shape]; exact List.mem_cons_self)) (by decide)
  unfold atom
  rw [if_neg noNIL]
  split
  · rename_i shape
    exact absurd (digit '-' (by rw [shape]; exact List.mem_cons_self)) (by decide)
  · rw [value]
    rfl

theorem reads_negative (n : Nat) : Reads ('-' :: Nat.toDigits 10 n) [number (-n)] := by
  refine reads_word (by simp) (fun c member => ?_) ?_
  · rcases List.mem_cons.mp member with rfl | digit
    · decide
    · exact isWordChar_of_isDigit (Nat.isDigit_of_mem_toDigits (by decide) (by decide) digit)
  · have noNIL : '-' :: Nat.toDigits 10 n ≠ ['N', 'I', 'L'] := fun shape =>
      absurd (List.cons.inj shape).1 (by decide)
    unfold atom
    rw [if_neg noNIL]
    change (natural (Nat.toDigits 10 n)).map _ = _
    rw [natural_toDigits]
    rfl

theorem reads_number (n : Int) : Reads (toString n).toList [number n] := by
  cases n with
  | ofNat n =>
      have digits : (toString (Int.ofNat n)).toList = Nat.toDigits 10 n := Nat.toList_repr
      rw [digits]
      exact reads_natural n
  | negSucc n =>
      have digits : (toString (n + 1)).toList = Nat.toDigits 10 (n + 1) := Nat.toList_repr
      have shape : (toString (Int.negSucc n)).toList = '-' :: Nat.toDigits 10 (n + 1) := by
        change ("-" ++ toString (n + 1)).toList = _
        rw [String.toList_append, digits]
        rfl
      rw [shape]
      exact reads_negative (n + 1)

theorem reads_join {texts : List String} {items : List (List Sexpr)}
    (reads : List.Forall₂ (fun text items => Reads text.toList items) texts items) :
    Reads (" ".intercalate texts).toList items.flatten := by
  induction reads with
  | nil => exact reads_nil
  | @cons text first texts others read rest ih =>
      cases rest with
      | nil => simpa using read
      | cons next rest =>
          rw [String.intercalate_cons_cons, String.toList_append, String.toList_append, List.flatten_cons,
            List.append_assoc]
          exact read.space ih

end Sexpr
end ImapCache.Lib
