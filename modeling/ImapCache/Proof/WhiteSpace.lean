import ImapCache.Lib.Trimming
import ImapCache.Model.SearchQuery

/-!
# White space

What trimming a text leaves of it.
-/

namespace ImapCache

theorem isWhitespace_of_printable {c : Char} (low : 0x21 ≤ c.toNat) (high : c.toNat ≤ 0x7E) :
    isWhitespace c = false := by
  simp [isWhitespace]
  omega

theorem isWhitespace_of_isDigit {c : Char} (digit : c.isDigit = true) : isWhitespace c = false := by
  rw [Char.isDigit, Bool.and_eq_true, decide_eq_true_eq, decide_eq_true_eq] at digit
  have low : 48 ≤ c.toNat := digit.1
  have high : c.toNat ≤ 57 := digit.2
  exact isWhitespace_of_printable (by omega) (by omega)

theorem trim_eq (text : List Char) :
    trim text = (text.dropWhile isWhitespace).rdropWhile isWhitespace := rfl

theorem dropWhile_of_visible {text : List Char} (visible : ∀ c ∈ text, isWhitespace c = false) :
    text.dropWhile isWhitespace = text := by
  cases text with
  | nil => rfl
  | cons c rest => exact List.dropWhile_cons_of_neg (by simp [visible c List.mem_cons_self])

theorem trim_of_visible {text : List Char} (visible : ∀ c ∈ text, isWhitespace c = false) :
    trim text = text := by
  unfold trim
  rw [dropWhile_of_visible visible,
    dropWhile_of_visible (fun c member => visible c (List.mem_reverse.mp member)), List.reverse_reverse]

theorem trim_between {first last : Char} (inner : List Char) (front : isWhitespace first = false)
    (back : isWhitespace last = false) : trim (first :: inner ++ [last]) = first :: inner ++ [last] := by
  rw [trim_eq, List.cons_append, List.dropWhile_cons_of_neg (by simp [front]), ← List.cons_append]
  exact List.rdropWhile_concat_neg _ _ _ (by simp [back])

end ImapCache
