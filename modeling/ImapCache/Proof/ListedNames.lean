import Mathlib.Data.List.TakeWhile
import ImapCache.Model.UpstreamLines
import ImapCache.Model.Sample
import ImapCache.Proof.CommandStream

/-!
# Mailbox names through LIST

The server writes a mailbox's name as a quoted string at the end of its LIST line; the upstream
client takes what stands after the last space of the line and undoes the quoting. The two agree on
the names without a space in them.
-/

namespace ImapCache.ListedNames
open Session UpstreamLines
open CommandStream (escaped quoteImapString_toList)

def quotedName (name : String) : List Char := '"' :: (name.toList.flatMap escaped ++ ['"'])

/-- A LIST line ends with the quoted name; what stands before it has the attributes and the
delimiter. -/
theorem mailboxListLine_toList (mailbox : Mailbox) :
    ∃ before, (mailboxListLine "LIST" mailbox).toList =
      "* LIST ".toList ++ before ++ ' ' :: quotedName mailbox.name := by
  unfold mailboxListLine
  dsimp only
  -- The attributes do not matter: they stand before the name.
  generalize Responses.join _ = attributes
  refine ⟨"(".toList ++ attributes.toList ++ ") ".toList ++
    (Responses.quoteImapString (mailbox.delimiter.getD "/")).toList, ?_⟩
  simp only [String.toList_append, quoteImapString_toList mailbox.name, List.append_assoc]
  rfl

/-! ## The last space -/

theorem rsplitOnce_of_no_separator {separator : Char} (before : List Char) {after : List Char}
    (absent : separator ∉ after) :
    rsplitOnce separator (before ++ separator :: after) = some (before, after) := by
  have taken : ((before ++ separator :: after).reverse.takeWhile (· != separator)).reverse =
      after := by
    rw [List.reverse_append, List.reverse_cons, List.append_assoc, List.takeWhile_append_of_pos]
    · simp
    · intro c member
      rw [List.mem_reverse] at member
      rw [bne_iff_ne]
      rintro rfl
      exact absent member
  unfold rsplitOnce
  simp only [taken]
  rw [if_neg (by simp; omega)]
  have position : (before ++ separator :: after).length - after.length - 1 = before.length := by
    rw [List.length_append, List.length_cons]
    omega
  rw [position, List.take_left]

theorem separator_not_mem_of_rsplitOnce {separator : Char} {text before after : List Char}
    (split : rsplitOnce separator text = some (before, after)) : separator ∉ after := by
  unfold rsplitOnce at split
  dsimp only at split
  split at split
  · cases split
  · cases split
    intro member
    rw [List.mem_reverse] at member
    have differs := List.mem_takeWhile_imp member
    rw [bne_self_eq_false] at differs
    cases differs

theorem rsplitOnce_of_mem {separator : Char} {text : List Char} (member : separator ∈ text) :
    ∃ parts, rsplitOnce separator text = some parts := by
  -- The first separator of the reversed text is the last one of the text.
  obtain ⟨after, before, same, absent⟩ :=
    List.eq_append_cons_of_mem (List.mem_reverse.mpr member)
  have split : text = before.reverse ++ separator :: after.reverse := by
    rw [List.reverse_eq_iff.mp same]
    simp
  rw [split]
  exact ⟨_, rsplitOnce_of_no_separator _ (by rwa [List.mem_reverse])⟩

/-! ## Quoting -/

theorem unescape_escaped (text : List Char) : unescape false (text.flatMap escaped) = text := by
  induction text with
  | nil => rfl
  | cons c text ih =>
      rw [List.flatMap_cons]
      by_cases backslash : c = '\\'
      · subst backslash
        change '\\' :: unescape false (text.flatMap escaped) = _
        rw [ih]
      · by_cases quote : c = '"'
        · subst quote
          change '"' :: unescape false (text.flatMap escaped) = _
          rw [ih]
        · have plain : escaped c = [c] := by rw [escaped, if_neg backslash, if_neg quote]
          rw [plain, List.singleton_append, unescape, if_neg backslash, ih]

theorem unquote_quotedName (name : String) : unquote (quotedName name) = name := by
  have trimmed : trim (quotedName name) = quotedName name :=
    trim_between (name.toList.flatMap escaped) (by decide) (by decide)
  have closed : (quotedName name).getLast? = some '"' := by
    unfold quotedName
    rw [← List.cons_append, List.getLast?_concat]
  unfold unquote
  rw [trimmed, if_pos ⟨rfl, closed, by simp [quotedName]⟩]
  simp only [quotedName, List.drop_one, List.tail_cons, List.dropLast_concat]
  rw [unescape_escaped, String.ofList_toList]

theorem space_mem_quotedName_iff (name : String) : ' ' ∈ quotedName name ↔ ' ' ∈ name.toList := by
  have kept : ∀ c, ' ' ∈ escaped c ↔ c = ' ' := by
    intro c
    unfold escaped
    split
    · rename_i backslash
      subst backslash
      decide
    · split
      · rename_i quote
        subst quote
        decide
      · rw [List.mem_singleton, eq_comm]
  unfold quotedName
  simp [List.mem_flatMap, kept]

/-! Unquoting takes characters away and adds none. -/

theorem mem_of_mem_unescape {escaped : Bool} {c : Char} {text : List Char}
    (member : c ∈ unescape escaped text) : c ∈ text := by
  fun_induction unescape escaped text with
  | case1 => exact member
  | case2 d rest ih =>
      rcases List.mem_cons.mp member with rfl | member
      · exact List.mem_cons_self
      · exact List.mem_cons_of_mem d (ih member)
  | case3 rest ih => exact List.mem_cons_of_mem _ (ih member)
  | case4 d rest _ ih =>
      rcases List.mem_cons.mp member with rfl | member
      · exact List.mem_cons_self
      · exact List.mem_cons_of_mem d (ih member)

theorem mem_of_mem_trim {c : Char} {text : List Char} (member : c ∈ trim text) : c ∈ text := by
  unfold trim at member
  rw [List.mem_reverse] at member
  have inFront := List.dropWhile_sublist _ |>.subset member
  rw [List.mem_reverse] at inFront
  exact List.dropWhile_sublist _ |>.subset inFront

theorem mem_of_mem_unquote {c : Char} {text : List Char} (member : c ∈ (unquote text).toList) :
    c ∈ text := by
  unfold unquote at member
  dsimp only at member
  split at member
  · rw [String.toList_ofList] at member
    exact mem_of_mem_trim (List.mem_of_mem_drop ((List.dropLast_subset _) (mem_of_mem_unescape member)))
  · rw [String.toList_ofList] at member
    exact mem_of_mem_trim member

/-! ## The line -/

theorem parseListMailboxName_of_line {line before : List Char} {name : String}
    (shape : line = "* LIST ".toList ++ before ++ ' ' :: quotedName name) :
    parseListMailboxName (String.ofList line) =
      (rsplitOnce ' ' line).map fun parts => unquote parts.2 := by
  have ends : line =
      '*' :: (" LIST ".toList ++ before ++ ' ' :: '"' :: name.toList.flatMap escaped) ++ ['"'] := by
    rw [shape]
    simp [quotedName]
  have trimmed : trim line = line := by
    rw [ends]
    exact trim_between _ (by decide) (by decide)
  have starts : Protocol.startsWith "* LIST " line = true := by
    unfold Protocol.startsWith
    rw [shape, List.append_assoc, List.isPrefixOf_iff_prefix]
    exact List.prefix_append _ _
  unfold parseListMailboxName
  rw [String.toList_ofList, trimmed]
  simp only [starts]
  cases rsplitOnce ' ' line with
  | none => rfl
  | some parts => rfl

theorem listedName_eq_iff (mailbox : Mailbox) :
    parseListMailboxName (mailboxListLine "LIST" mailbox) = some mailbox.name ↔
      ' ' ∉ mailbox.name.toList := by
  obtain ⟨before, shape⟩ := mailboxListLine_toList mailbox
  have read := parseListMailboxName_of_line shape
  rw [String.ofList_toList] at read
  rw [read]
  constructor
  · intro same inName
    obtain ⟨⟨_, after⟩, split, unquoted⟩ := Option.map_eq_some_iff.mp same
    dsimp only at unquoted
    rw [← unquoted] at inName
    exact separator_not_mem_of_rsplitOnce split (mem_of_mem_unquote inName)
  · intro absent
    have quotedAbsent := (not_congr (space_mem_quotedName_iff mailbox.name)).mpr absent
    rw [shape, rsplitOnce_of_no_separator _ quotedAbsent, Option.map_some, unquote_quotedName]

/-- Every LIST line is read as some name, so that a mailbox is never left out of the list. -/
theorem listedName_isSome (mailbox : Mailbox) :
    ∃ name, parseListMailboxName (mailboxListLine "LIST" mailbox) = some name := by
  obtain ⟨before, shape⟩ := mailboxListLine_toList mailbox
  have read := parseListMailboxName_of_line shape
  rw [String.ofList_toList] at read
  have member : ' ' ∈ (mailboxListLine "LIST" mailbox).toList := by
    rw [shape, List.mem_append]
    exact Or.inr List.mem_cons_self
  obtain ⟨parts, split⟩ := rsplitOnce_of_mem member
  rw [read, split]
  exact ⟨_, rfl⟩

/-- A mailbox's name is read back from its LIST line, and the names of all mailboxes from the lines
of the response, exactly as far as no name has a space in it. -/
theorem listed_names_read_back_iff (mailbox : Mailbox) (mailboxes : List Mailbox) :
    (parseListMailboxName (mailboxListLine "LIST" mailbox) = some mailbox.name ↔
      ' ' ∉ mailbox.name.toList) ∧
    (listMailboxes (mailboxes.map (mailboxListLine "LIST")) = mailboxes.map (·.name) ↔
      ∀ mailbox ∈ mailboxes, ' ' ∉ mailbox.name.toList) := by
  refine ⟨listedName_eq_iff mailbox, ?_⟩
  induction mailboxes with
  | nil => simp [listMailboxes]
  | cons mailbox mailboxes ih =>
      obtain ⟨name, read⟩ := listedName_isSome mailbox
      have first := listedName_eq_iff mailbox
      rw [read, Option.some_inj] at first
      unfold listMailboxes at ih ⊢
      rw [List.map_cons, List.filterMap_cons_some read, List.map_cons, List.cons_eq_cons, ih, first,
        List.forall_mem_cons]

/-- A name with a space in it loses what stands before its last space, and keeps the closing
quote. -/
theorem listedName_with_space :
    parseListMailboxName (mailboxListLine "LIST" (Sample.mailbox "Sent Items" none)) =
      some "Items\"" := by
  decide +kernel

end ImapCache.ListedNames
