import ImapCache.Model.RawFetch
import ImapCache.Model.Searching
import ImapCache.Model.Sample
import ImapCache.Proof.CommandStream
import ImapCache.Proof.SetTexts
import ImapCache.Proof.WhiteSpace

/-!
# The two readers of a UID set

UID FETCH reads a set with the largest UID in the place of `*`; the UID key of SEARCH reads it with
`*` as an open bound, which is 1 in front of a colon and the largest 64-bit number after it. Each
reading of a part is given as bounds, and the parts on which the two differ are named.
-/

namespace ImapCache
namespace SetTexts
open Lib Prog Commands Search
open CommandStream (parseU64_toString)

/-! ## The bounds of a part -/

def Bound.number? : Bound → Option Nat
  | .number n => some n.value
  | .star => none

/-- The bounds of a part for UID SEARCH, which refuses a `*` on its own. -/
def Part.opened : Part → Option (Nat × Nat)
  | .single bound => bound.number?.map fun n => (n, n)
  | .range first last =>
      let first := first.number?.getD 1
      let last := last.number?.getD 18446744073709551615
      some (min first last, max first last)

theorem NumberSet.splitOn_text (set : NumberSet) :
    set.text.toList.splitOn ',' = set.parts.map Part.text := by
  rw [text, String.toList_ofList]
  apply List.splitOn_intercalate
  · intro chars member
    obtain ⟨part, -, rfl⟩ := List.mem_map.mp member
    exact fun comma => (part.plain.2 ',' comma).2 rfl
  · rw [ne_eq, List.map_eq_nil_iff]
    exact set.nonempty

/-! ## The readings -/

theorem Bound.text_ne_star (n : MessageNumber) : (Bound.number n).text ≠ ['*'] := by
  intro same
  have digit := isDigit_of_mem_toString (n := n.value) (c := '*') (by
    change '*' ∈ (Bound.number n).text
    rw [same]
    exact List.mem_cons_self)
  exact absurd digit (by decide)

theorem parseUidBound_text (bound : Bound) :
    parseUidBound (String.ofList bound.text) = .ok bound.number? := by
  cases bound with
  | number n =>
      have notStar : String.ofList (Bound.number n).text ≠ "*" := fun same =>
        Bound.text_ne_star n (String.ofList_injective same)
      have small := n.fits
      unfold i64Max at small
      unfold parseUidBound
      rw [if_neg notStar, String.toList_ofList, Bound.text, parseU64_toString, if_pos (by omega)]
      rfl
  | star => rfl

theorem parseUidPart_text (uids : UidSet) (part : Part) :
    parseUidPart uids part.text = match part.opened with
      | some range => .ok ⟨uids.ranges ++ [range]⟩
      | none => .error (.parse "UID must be numeric") := by
  cases part with
  | single bound =>
      have whole : splitOnce ':' (String.ofList bound.text) = none := by
        have spanned := span_colon ((bound.boundText 0).not_mem (by decide) (by decide)) []
        have empty : ([] : List Char).span (· != ':') = ([], []) := rfl
        rw [empty, List.append_nil] at spanned
        unfold splitOnce
        rw [String.toList_ofList, spanned]
      unfold parseUidPart Part.text
      simp only [whole, parseUidBound_text]
      cases bound with
      | number n => simp [Bound.number?, Part.opened, UidSet.push]; rfl
      | star => rfl
  | range first last =>
      have halves : splitOnce ':' (String.ofList (first.text ++ ':' :: last.text)) =
          some (String.ofList first.text, String.ofList last.text) := by
        have spanned := span_colon ((first.boundText 0).not_mem (by decide) (by decide)) (':' :: last.text)
        have stop : (':' :: last.text).span (· != ':') = ([], ':' :: last.text) := rfl
        rw [stop, List.append_nil] at spanned
        unfold splitOnce
        rw [String.toList_ofList, spanned]
      unfold parseUidPart Part.text
      simp only [halves, parseUidBound_text]
      rfl

theorem foldlM_parseUidPart (parts : List Part) (uids : UidSet) :
    (parts.map Part.text).foldlM parseUidPart uids = match parts.mapM Part.opened with
      | some ranges => .ok ⟨uids.ranges ++ ranges⟩
      | none => .error (.parse "UID must be numeric") := by
  induction parts generalizing uids with
  | nil => simp; rfl
  | cons part parts ih =>
      rw [List.map_cons, List.foldlM_cons, parseUidPart_text, List.mapM_cons]
      cases part.opened with
      | none => rfl
      | some range =>
          change (parts.map Part.text).foldlM parseUidPart ⟨uids.ranges ++ [range]⟩ = _
          rw [ih]
          cases parts.mapM Part.opened with
          | none => rfl
          | some ranges => simp

theorem parseUidSet_text (set : NumberSet) :
    parseUidSet set.text = match set.parts.mapM Part.opened with
      | some ranges => .ok ⟨ranges⟩
      | none => .error (.parse "UID must be numeric") := by
  unfold parseUidSet
  rw [set.splitOn_text, foldlM_parseUidPart]
  rfl

/-! ## Where the readers differ -/

def Part.Named (largest uid : Int) (part : Part) : Prop :=
  0 < uid ∧ (part.bounds largest).1 ≤ uid ∧ uid ≤ (part.bounds largest).2

def Part.Opened (uid : Int) (part : Part) : Prop :=
  ∃ range, part.opened = some range ∧ range.1 ≤ i64AsU64 uid ∧ i64AsU64 uid ≤ range.2

/-- The messages that only one reader finds in a part. Above `*` there is nothing for UID FETCH and
everything for UID SEARCH, the negative UIDs among it; below `*` it is the other way round. -/
def Part.Misread (largest uid : Int) : Part → Prop
  | .range (.number n) .star => uid < 0 ∨ 0 < uid ∧ uid = largest ∧ uid < n.value
  | .range .star (.number n) => 0 < uid ∧ (n.value < uid ∨ uid < n.value ∧ uid < largest)
  | .range .star .star => uid < 0 ∨ 0 < uid ∧ uid < largest
  | _ => False

theorem Part.misread_iff {largest uid : Int} (part : Part) (notStar : part ≠ .single .star)
    (typed : -i64Max - 1 ≤ uid ∧ uid ≤ i64Max) (below : uid ≤ largest) :
    part.Misread largest uid ↔ ¬(part.Named largest uid ↔ part.Opened uid) := by
  unfold i64Max at typed
  obtain ⟨wrapped, wrapped_eq, wraps⟩ : ∃ wrapped, i64AsU64 uid = wrapped ∧
      (0 ≤ uid ∧ (wrapped : Int) = uid ∨ uid < 0 ∧ (wrapped : Int) = uid + 18446744073709551616) := by
    refine ⟨_, rfl, ?_⟩
    unfold i64AsU64
    omega
  unfold Named Opened
  rw [wrapped_eq]
  cases part with
  | single bound =>
      cases bound with
      | number n =>
          have positive := n.positive
          have small := n.fits
          unfold i64Max at small
          change False ↔ _
          rw [false_iff, not_not]
          simp only [bounds, Bound.value, opened, Bound.number?, Option.map_some,
            Option.some.injEq, exists_eq_left']
          omega
      | star => exact absurd rfl notStar
  | range first last =>
      cases first with
      | number n =>
          have positive := n.positive
          have small := n.fits
          unfold i64Max at small
          cases last with
          | number m =>
              have positive' := m.positive
              have small' := m.fits
              unfold i64Max at small'
              change False ↔ _
              rw [false_iff, not_not]
              simp only [bounds, Bound.value, opened, Bound.number?, Option.getD_some,
                Option.some.injEq, exists_eq_left']
              omega
          | star =>
              simp only [Misread, bounds, Bound.value, opened, Bound.number?, Option.getD_some,
                Option.getD_none, Option.some.injEq, exists_eq_left']
              omega
      | star =>
          cases last with
          | number m =>
              have positive := m.positive
              have small := m.fits
              unfold i64Max at small
              simp only [Misread, bounds, Bound.value, opened, Bound.number?, Option.getD_some,
                Option.getD_none, Option.some.injEq, exists_eq_left']
              omega
          | star =>
              simp only [Misread, bounds, Bound.value, opened, Bound.number?,
                Option.getD_none, Option.some.injEq, exists_eq_left']
              omega

end SetTexts

namespace UidSetReaders
open Lib Prog Commands Search SetTexts

/-! ## The messages of a mailbox -/

/-- The messages of a mailbox; a UID is of the type of its column. -/
structure ListedMailbox where
  views : List MailboxMessageView
  uids : ∀ view ∈ views, -i64Max - 1 ≤ view.localUid ∧ view.localUid ≤ i64Max

def largestUid (views : List MailboxMessageView) : Int := (views.map (·.localUid)).max?.getD 0

def fetched (set : String) (views : List MailboxMessageView) :
    Except Panic (List MailboxMessageView) :=
  if numberSetFits set (largestUid views) then
    .ok (views.filter fun view => (parseNumberSet set (largestUid views)).contains view.localUid)
  else .error .capacityOverflow

def searched (set : String) (views : List MailboxMessageView) :
    Except Error (List MailboxMessageView) :=
  (parseUidSet set).map fun uids => views.filter fun view => uids.contains (viewUid view)

theorem resolveUidViews_fetched (mailboxId : Int) (set : String) :
    RawFetch.resolveUidViews mailboxId set = (do
      let views ← await (.listMailboxMessageViews mailboxId)
      orPanic (fetched set views)) := by
  unfold RawFetch.resolveUidViews
  congr 1
  funext views
  unfold fetched numberSet largestUid
  split
  · rfl
  · unfold orPanic
    change Prog.bind _ _ = _
    rw [Prog.bind_assoc]
    congr 1
    funext never
    exact never.elim

theorem matchesSearchLeaf_searched (lib : Libraries) (uids : UidSet) (view : MailboxMessageView) :
    matchesSearchLeaf lib view { SearchKeys.all with uidFilter := some uids, matchAll := false } =
      uids.contains (viewUid view) := by
  unfold matchesSearchLeaf
  simp [SearchKeys.all, matchesHeaderFilters, viewUid]

theorem le_largestUid {views : List MailboxMessageView} {view : MailboxMessageView}
    (member : view ∈ views) : view.localUid ≤ largestUid views := by
  have listed : view.localUid ∈ views.map (·.localUid) := List.mem_map_of_mem member
  unfold largestUid
  cases largest : (views.map (·.localUid)).max? with
  | none =>
      rw [List.max?_eq_none_iff] at largest
      rw [largest] at listed
      cases listed
  | some uid => exact (List.max?_eq_some_iff.mp largest).2 _ listed

/-! ## Whole sets -/

theorem contains_parseNumberSet (set : NumberSet) (largest uid : Int) :
    (parseNumberSet set.text largest).contains uid = true ↔
      ∃ part ∈ set.parts, part.Named largest uid := by
  rw [List.contains_iff_mem, set.mem_parseNumberSet_text]
  unfold NumberSet.has Part.Named
  simp only [Bool.and_eq_true, decide_eq_true_eq, List.any_eq_true]
  constructor
  · rintro ⟨positive, part, listed, within⟩
    exact ⟨part, listed, positive, within⟩
  · rintro ⟨part, listed, positive, within⟩
    exact ⟨positive, part, listed, within⟩

theorem mapM_opened_eq_none_iff (parts : List Part) :
    parts.mapM Part.opened = none ↔ Part.single .star ∈ parts := by
  have refused : ∀ part : Part, part.opened = none ↔ part = .single .star := by
    intro part
    cases part with
    | single bound => cases bound <;> simp [Part.opened, Bound.number?]
    | range first last => simp [Part.opened]
  induction parts with
  | nil => simp
  | cons part parts ih =>
      rw [List.mapM_cons, List.mem_cons]
      constructor
      · intro missing
        cases opened : part.opened with
        | none => exact Or.inl ((refused part).mp opened).symm
        | some range =>
            rw [opened] at missing
            cases rest : parts.mapM Part.opened with
            | none => exact Or.inr (ih.mp rest)
            | some ranges =>
                rw [rest] at missing
                cases missing
      · rintro (same | member)
        · rw [(refused part).mpr same.symm]
          rfl
        · rw [ih.mpr member]
          cases part.opened with
          | none => rfl
          | some range => rfl

theorem mem_of_mapM_opened {parts : List Part} {ranges : List (Nat × Nat)}
    (opened : parts.mapM Part.opened = some ranges) (range : Nat × Nat) :
    range ∈ ranges ↔ ∃ part ∈ parts, part.opened = some range := by
  induction parts generalizing ranges with
  | nil =>
      cases opened
      simp
  | cons part parts ih =>
      rw [List.mapM_cons] at opened
      obtain ⟨first, isFirst, opened⟩ := Option.bind_eq_some_iff.mp opened
      obtain ⟨rest, isRest, opened⟩ := Option.bind_eq_some_iff.mp opened
      cases opened
      rw [List.mem_cons, ih isRest, List.exists_mem_cons_iff, isFirst, Option.some_inj, eq_comm]

theorem contains_parseUidSet {set : NumberSet} {uids : UidSet}
    (read : parseUidSet set.text = .ok uids) (uid : Int) :
    uids.contains (i64AsU64 uid) = true ↔ ∃ part ∈ set.parts, part.Opened uid := by
  rw [parseUidSet_text] at read
  cases opened : set.parts.mapM Part.opened with
  | none =>
      rw [opened] at read
      cases read
  | some ranges =>
      rw [opened] at read
      cases read
      unfold UidSet.contains Part.Opened
      rw [List.any_eq_true]
      constructor
      · rintro ⟨range, member, within⟩
        obtain ⟨part, listed, isRange⟩ := (mem_of_mapM_opened opened range).mp member
        rw [Bool.and_eq_true, decide_eq_true_eq, decide_eq_true_eq] at within
        exact ⟨part, listed, range, isRange, within⟩
      · rintro ⟨part, listed, range, isRange, within⟩
        refine ⟨range, (mem_of_mapM_opened opened range).mpr ⟨part, listed, isRange⟩, ?_⟩
        rw [Bool.and_eq_true, decide_eq_true_eq, decide_eq_true_eq]
        exact within

theorem parseUidSet_ok_iff (set : NumberSet) :
    (∃ uids, parseUidSet set.text = .ok uids) ↔ Part.single .star ∉ set.parts := by
  rw [parseUidSet_text, ← mapM_opened_eq_none_iff]
  cases set.parts.mapM Part.opened with
  | none => simp
  | some ranges => simp

theorem filter_eq_filter_iff {α : Type} {p q : α → Bool} (l : List α) :
    l.filter p = l.filter q ↔ ∀ x ∈ l, (p x = true ↔ q x = true) := by
  constructor
  · intro same x member
    have kept : x ∈ l.filter p ↔ x ∈ l.filter q := by rw [same]
    rw [List.mem_filter, List.mem_filter] at kept
    exact ⟨fun h => (kept.mp ⟨member, h⟩).2, fun h => (kept.mpr ⟨member, h⟩).2⟩
  · intro alike
    exact List.filter_congr fun x member => Bool.eq_iff_iff.mpr (alike x member)

/-- The condition under which the readers agree on the messages of a mailbox. -/
structure ReadAlike (set : NumberSet) (views : List MailboxMessageView) : Prop where
  fits : numberSetFits set.text (largestUid views) = true
  noLoneStar : Part.single .star ∉ set.parts
  /-- What one reader alone finds in a part, the other finds in another part. -/
  covered : ∀ view ∈ views, ∀ part ∈ set.parts, part.Misread (largestUid views) view.localUid →
    (∃ other ∈ set.parts, other.Named (largestUid views) view.localUid) ∧
      ∃ other ∈ set.parts, other.Opened view.localUid

theorem selections_agree_iff (set : NumberSet) (mailbox : ListedMailbox)
    (noLoneStar : Part.single .star ∉ set.parts) :
    (∀ view ∈ mailbox.views,
      ((∃ part ∈ set.parts, part.Named (largestUid mailbox.views) view.localUid) ↔
        ∃ part ∈ set.parts, part.Opened view.localUid)) ↔
    ∀ view ∈ mailbox.views, ∀ part ∈ set.parts,
      part.Misread (largestUid mailbox.views) view.localUid →
        (∃ other ∈ set.parts, other.Named (largestUid mailbox.views) view.localUid) ∧
          ∃ other ∈ set.parts, other.Opened view.localUid := by
  refine forall_congr' fun view => imp_congr_right fun listed => ?_
  have differ : ∀ part ∈ set.parts, (part.Misread (largestUid mailbox.views) view.localUid ↔
      ¬(part.Named (largestUid mailbox.views) view.localUid ↔ part.Opened view.localUid)) := by
    intro part member
    have notStar : part ≠ .single .star := by
      rintro rfl
      exact noLoneStar member
    exact part.misread_iff notStar (mailbox.uids view listed) (le_largestUid listed)
  constructor
  · intro agree part member misread
    by_cases named : part.Named (largestUid mailbox.views) view.localUid
    · exact ⟨⟨part, member, named⟩, agree.mp ⟨part, member, named⟩⟩
    · have opened : part.Opened view.localUid := by
        by_contra closed
        exact (differ part member).mp misread ⟨fun h => absurd h named, fun h => absurd h closed⟩
      exact ⟨agree.mpr ⟨part, member, opened⟩, ⟨part, member, opened⟩⟩
  · intro covered
    by_cases misread : ∃ part ∈ set.parts, part.Misread (largestUid mailbox.views) view.localUid
    · obtain ⟨part, member, misread⟩ := misread
      obtain ⟨named, opened⟩ := covered part member misread
      exact ⟨fun _ => opened, fun _ => named⟩
    · have same : ∀ part ∈ set.parts,
          (part.Named (largestUid mailbox.views) view.localUid ↔ part.Opened view.localUid) := by
        intro part member
        by_contra different
        exact misread ⟨part, member, (differ part member).mpr different⟩
      exact exists_congr fun part => and_congr_right fun member => same part member

theorem uid_set_readers_agree_iff (set : NumberSet) (mailbox : ListedMailbox) :
    (∃ selected, fetched set.text mailbox.views = .ok selected ∧
      searched set.text mailbox.views = .ok selected) ↔ ReadAlike set mailbox.views := by
  -- Given that the set is read at all, the two lists are equal if each message is in both or none.
  have filtered : ∀ uids, parseUidSet set.text = .ok uids →
      ((mailbox.views.filter fun view =>
          (parseNumberSet set.text (largestUid mailbox.views)).contains view.localUid) =
        (mailbox.views.filter fun view => uids.contains (viewUid view)) ↔
      ∀ view ∈ mailbox.views,
        ((∃ part ∈ set.parts, part.Named (largestUid mailbox.views) view.localUid) ↔
          ∃ part ∈ set.parts, part.Opened view.localUid)) := by
    intro uids read
    rw [filter_eq_filter_iff]
    refine forall_congr' fun view => imp_congr_right fun _ => ?_
    rw [contains_parseNumberSet, viewUid, contains_parseUidSet read]
  constructor
  · rintro ⟨selected, isFetched, isSearched⟩
    unfold fetched at isFetched
    split at isFetched
    · rename_i fits
      unfold searched at isSearched
      cases read : parseUidSet set.text with
      | error failure =>
          rw [read] at isSearched
          cases isSearched
      | ok uids =>
          rw [read] at isSearched
          cases isFetched
          have same := (filtered uids read).mp (Except.ok.inj isSearched).symm
          have noLoneStar := (parseUidSet_ok_iff set).mp ⟨uids, read⟩
          exact ⟨fits, noLoneStar, (selections_agree_iff set mailbox noLoneStar).mp same⟩
    · cases isFetched
  · intro alike
    obtain ⟨uids, read⟩ := (parseUidSet_ok_iff set).mpr alike.noLoneStar
    have same := (filtered uids read).mpr
      ((selections_agree_iff set mailbox alike.noLoneStar).mpr alike.covered)
    refine ⟨_, if_pos alike.fits, ?_⟩
    unfold searched
    rw [read, same]
    rfl

theorem five_pos : 0 < 5 := by decide

def fiveAndAbove : NumberSet :=
  ⟨[.range (.number ⟨5, five_pos, by decide⟩) .star], List.cons_ne_nil _ _⟩

def twoMessages : List MailboxMessageView := [Sample.view 1 [] "First", Sample.view 2 [] "Last"]

/-- The last message of a mailbox is within `5:*` for UID FETCH even if its UID is 2. -/
theorem open_range_above_largest :
    (fetched fiveAndAbove.text twoMessages).map (·.map (·.localUid)) = .ok [2] ∧
      (searched fiveAndAbove.text twoMessages).map (·.map (·.localUid)) = .ok [] := by
  decide +kernel

end UidSetReaders
end ImapCache
