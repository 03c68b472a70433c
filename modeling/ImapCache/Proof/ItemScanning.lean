import ImapCache.Proof.CommandStream
import ImapCache.Proof.WhiteSpace
import ImapCache.Proof.Words

/-!
# The two splitters of FETCH items

The tokens of a line and the items of a list are split by two scanners. Both count the open parentheses and
brackets, so that what is one token for the one is one item for the other.
-/

namespace ImapCache.Protocol
open Lib CommandStream

/-! ## Depths -/

/-- The depths of parentheses and brackets after a character that splits nothing. -/
def depthStep (depth : Nat × Nat) (c : Char) : Option (Nat × Nat) :=
  if isWhitespace c && depth.1 == 0 && depth.2 == 0 then none
  else some (depthAfter '(' ')' depth.1 c, depthAfter '[' ']' depth.2 c)

def depths (depth : Nat × Nat) (text : List Char) : Option (Nat × Nat) := text.foldlM depthStep depth

theorem depths_cons_eq_some {depth after : Nat × Nat} {c : Char} {text : List Char} :
    depths depth (c :: text) = some after ↔
      ∃ next, depthStep depth c = some next ∧ depths next text = some after := by
  unfold depths
  rw [List.foldlM_cons]
  exact Option.bind_eq_some_iff

theorem depths_append (depth : Nat × Nat) (a b : List Char) :
    depths depth (a ++ b) = (depths depth a).bind fun next => depths next b := by
  unfold depths
  rw [List.foldlM_append]
  rfl

theorem depthStep_eq_some {depth next : Nat × Nat} {c : Char} (step : depthStep depth c = some next) :
    (isWhitespace c && depth.1 == 0 && depth.2 == 0) = false ∧
      next = (depthAfter '(' ')' depth.1 c, depthAfter '[' ']' depth.2 c) := by
  unfold depthStep at step
  split at step
  · cases step
  · rename_i inside
    exact ⟨Bool.not_eq_true _ ▸ inside, (Option.some.inj step).symm⟩

theorem bareToken_of_depths {text : List Char} {depth after : Nat × Nat}
    (whole : depths depth text = some after) (rest : List Char) :
    bareToken depth.1 depth.2 (text ++ rest) =
      (text ++ (bareToken after.1 after.2 rest).1, (bareToken after.1 after.2 rest).2) := by
  induction text generalizing depth with
  | nil =>
      cases whole
      rfl
  | cons c text ih =>
      obtain ⟨next, step, whole⟩ := depths_cons_eq_some.mp whole
      obtain ⟨inside, rfl⟩ := depthStep_eq_some step
      rw [List.cons_append, bareToken, if_neg (by rw [inside]; exact Bool.false_ne_true), ih whole]
      rfl

theorem foldl_next_of_depths {text : List Char} {depth after : Nat × Nat} (unquoted : '"' ∉ text)
    (whole : depths depth text = some after) (items : List String) (current : List Char) :
    text.foldl ItemScan.next ⟨items, current, depth.1, depth.2, false⟩ =
      ⟨items, current ++ text, after.1, after.2, false⟩ := by
  induction text generalizing depth current with
  | nil =>
      cases whole
      rw [List.append_nil]
      rfl
  | cons c text ih =>
      obtain ⟨next, step, whole⟩ := depths_cons_eq_some.mp whole
      obtain ⟨inside, rfl⟩ := depthStep_eq_some step
      rw [List.mem_cons, not_or] at unquoted
      have pushed : ItemScan.next ⟨items, current, depth.1, depth.2, false⟩ c =
          ⟨items, current ++ [c], depthAfter '(' ')' depth.1 c, depthAfter '[' ']' depth.2 c, false⟩ := by
        unfold ItemScan.next
        rw [if_neg (Ne.symm unquoted.1)]
        by_cases special : [')', '(', '[', ']'].contains c = true
        · simp only [special, Bool.false_eq_true, ↓reduceIte]
        · simp only [special, inside, Bool.false_eq_true, ↓reduceIte]
          simp only [List.contains_eq_mem, List.mem_cons, List.not_mem_nil, or_false, decide_eq_true_eq,
            not_or] at special
          obtain ⟨noClose, noOpen, noBracket, noEnd⟩ := special
          simp only [depthAfter, noClose, noOpen, noBracket, noEnd, ↓reduceIte]
      rw [List.foldl_cons, pushed, ih unquoted.2 whole, List.append_assoc]
      rfl

/-! ## Balanced texts -/

/-- A text that is never split, in whatever parentheses and brackets it stands. -/
structure Balanced (text : List Char) : Prop where
  nonempty : text ≠ []
  unquoted : '"' ∉ text
  level : ∀ depth, depths depth text = some depth

theorem Balanced.first {text : List Char} (balanced : Balanced text) :
    ∃ c rest, text = c :: rest ∧ isWhitespace c = false := by
  obtain ⟨c, rest, rfl⟩ := List.exists_cons_of_ne_nil balanced.nonempty
  obtain ⟨next, step, -⟩ := depths_cons_eq_some.mp (balanced.level (0, 0))
  have inside := (depthStep_eq_some step).1
  exact ⟨c, rest, rfl, by simpa using inside⟩

theorem Balanced.last {text : List Char} (balanced : Balanced text) :
    ∃ before c, text = before ++ [c] ∧ isWhitespace c = false := by
  obtain ⟨before, c, rfl⟩ := (List.eq_nil_or_concat text).resolve_left balanced.nonempty
  rw [List.concat_eq_append] at balanced ⊢
  refine ⟨before, c, rfl, ?_⟩
  have level := balanced.level (0, 0)
  rw [depths_append, Option.bind_eq_some_iff] at level
  obtain ⟨depth, -, last⟩ := level
  obtain ⟨next, step, done⟩ := depths_cons_eq_some.mp last
  obtain ⟨inside, rfl⟩ := depthStep_eq_some step
  by_contra space
  rw [Bool.not_eq_false] at space
  have other (special : Char) (visible : isWhitespace special = false) : c ≠ special := by
    rintro rfl
    rw [visible] at space
    cases space
  have same : depth = (0, 0) := by
    have unchanged := Option.some.inj done
    simpa [depthAfter, other '(' (by decide), other ')' (by decide), other '[' (by decide),
      other ']' (by decide), Prod.ext_iff] using unchanged
  rw [same, space] at inside
  cases inside

theorem Balanced.trim_eq {text : List Char} (balanced : Balanced text) : trim text = text := by
  obtain ⟨first, rest, front, visible⟩ := balanced.first
  obtain ⟨before, last, back, visible'⟩ := balanced.last
  cases before with
  | nil =>
      rw [back]
      exact trim_of_visible (by simpa using visible')
  | cons c before =>
      have same : c = first := (List.cons.inj (back.symm.trans front)).1
      rw [back]
      exact trim_between before (same ▸ visible) visible'

/-! ## Tokens -/

theorem tokens_of_depths (line : List Char) {c : Char} {rest : List Char} {after : Nat × Nat}
    (visible : isWhitespace c = false) (unquoted : c ≠ '"')
    (whole : depths (0, 0) (c :: rest) = some after) :
    tokens line (c :: rest) = .ok [String.ofList (c :: rest)] := by
  have token := bareToken_of_depths whole []
  rw [List.append_nil] at token
  have ends : bareToken after.1 after.2 [] = ([], []) := rfl
  rw [ends, List.append_nil] at token
  have nothing : tokens line [] = .ok [] := rfl
  rw [tokens_bare line rest visible unquoted, token, nothing]
  rfl

/-! ## Items -/

theorem close_of_balanced {text : List Char} (balanced : Balanced text) (items : List String) :
    ItemScan.close ⟨items, text, 0, 0, false⟩ = items ++ [toAsciiUppercase (String.ofList text)] := by
  unfold ItemScan.close
  rw [balanced.trim_eq, if_neg (by simpa using balanced.nonempty)]

theorem close_scan_join {texts : List String} (some : texts ≠ [])
    (balanced : ∀ text ∈ texts, Balanced text.toList) (items : List String) :
    ((Responses.join texts).toList.foldl ItemScan.next ⟨items, [], 0, 0, false⟩).close =
      items ++ texts.map toAsciiUppercase := by
  unfold Responses.join
  induction texts generalizing items with
  | nil => exact absurd rfl some
  | cons text texts ih =>
      have first := balanced text List.mem_cons_self
      have scanned := foldl_next_of_depths first.unquoted (first.level (0, 0)) items []
      cases texts with
      | nil =>
          rw [String.intercalate_singleton, scanned, List.nil_append, close_of_balanced first,
            String.ofList_toList]
          rfl
      | cons next rest =>
          have space : ItemScan.next ⟨items, text.toList, 0, 0, false⟩ ' ' =
              ⟨items ++ [toAsciiUppercase text], [], 0, 0, false⟩ := by
            have closed := close_of_balanced first items
            rw [String.ofList_toList] at closed
            have notEmpty : (trim text.toList).isEmpty = false := by
              rw [first.trim_eq]
              simpa using first.nonempty
            have isSpace : isWhitespace ' ' = true := by decide
            unfold ItemScan.next
            simp only [isSpace, notEmpty, closed]
            rfl
          rw [String.intercalate_cons_cons, String.toList_append, String.toList_append, List.append_assoc,
            List.foldl_append, scanned, List.nil_append, show " ".toList = [' '] from rfl,
            List.singleton_append, List.foldl_cons, space,
            ih (by simp) (fun text member => balanced text (List.mem_cons_of_mem _ member))]
          simp

theorem parseFetchItems_of_strip {token : String} {texts : List String} (some : texts ≠ [])
    (balanced : ∀ text ∈ texts, Balanced text.toList)
    (strip : stripParens (trim token.toList) = (Responses.join texts).toList) :
    parseFetchItems [token] = texts.map toAsciiUppercase := by
  have joined : Responses.join [token] = token := String.intercalate_singleton
  have nonempty : (texts.map toAsciiUppercase).isEmpty = false := by simpa using some
  unfold parseFetchItems
  rw [joined, strip]
  dsimp only
  rw [close_scan_join some balanced, List.nil_append, if_neg (by rw [nonempty]; exact Bool.false_ne_true)]

theorem parseFetchItems_list {texts : List String} (some : texts ≠ [])
    (balanced : ∀ text ∈ texts, Balanced text.toList) :
    parseFetchItems [String.ofList ('(' :: ((Responses.join texts).toList ++ [')']))] =
      texts.map toAsciiUppercase := by
  refine parseFetchItems_of_strip some balanced ?_
  have trimmed : trim ('(' :: (Responses.join texts).toList ++ [')']) =
      '(' :: (Responses.join texts).toList ++ [')'] := trim_between _ (by decide) (by decide)
  rw [String.toList_ofList, ← List.cons_append, trimmed]
  simp [stripParens, stripPrefix, stripSuffix]

theorem parseFetchItems_bare {text : String} (balanced : Balanced text.toList)
    (opens : text.toList.head? ≠ some '(') (closes : text.toList.getLast? ≠ some ')') :
    parseFetchItems [text] = [toAsciiUppercase text] := by
  have all : ∀ other ∈ [text], Balanced other.toList := by
    intro other member
    rw [List.mem_singleton.mp member]
    exact balanced
  refine parseFetchItems_of_strip (List.cons_ne_nil _ _) all ?_
  obtain ⟨first, rest, front, -⟩ := balanced.first
  obtain ⟨before, last, back, -⟩ := balanced.last
  have noOpen : stripPrefix ['('] text.toList = none := by
    rw [front] at opens ⊢
    have other : '(' ≠ first := by simpa [eq_comm] using opens
    simp [stripPrefix, other]
  have noClose : stripSuffix [')'] text.toList = none := by
    rw [back, List.getLast?_concat] at closes
    rw [back]
    unfold stripSuffix
    rw [if_neg]
    rw [List.isSuffixOf_iff_suffix]
    rintro ⟨others, same⟩
    have ends := congrArg List.getLast? same
    rw [List.getLast?_concat, List.getLast?_concat] at ends
    exact closes ends.symm
  have joined : Responses.join [text] = text := String.intercalate_singleton
  rw [balanced.trim_eq, stripParens, noOpen, joined]
  dsimp only [Option.getD_none]
  rw [noClose]
  rfl

end ImapCache.Protocol
