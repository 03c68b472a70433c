import ImapCache.Model.Sample
import ImapCache.Proof.RowSearch

/-!
# The counts of a mailbox

`refresh_mailbox_counts` counts the rows of a mailbox, and those that do not carry the text of its SQL
literal: with standard strings that is a flag of two backslashes and `Seen`. SEARCH UNSEEN looks for
`\Seen` with one backslash, in any letter case.
-/

namespace ImapCache.MailboxCounts
open Lib Prog Search

/-- What the rest of the server takes for a message that has been seen. -/
def carriesSeen (row : Row MailboxMessage) : Bool := containsCaseInsensitive row.data.flags "\\Seen"

def carriesLiteral (row : Row MailboxMessage) : Bool := row.data.flags.contains "\\\\Seen"

/-- As many rows carry the flag of the literal as carry `\Seen`. -/
def SeenAlike (rows : List (Row MailboxMessage)) : Prop :=
  (rows.filter carriesLiteral).length = (rows.filter carriesSeen).length

theorem length_filter_not {α : Type} (p : α → Bool) (l : List α) :
    (l.filter p).length + (l.filter fun x => !p x).length = l.length := by
  rw [← List.countP_eq_length_filter, ← List.countP_eq_length_filter]
  simpa using (List.length_eq_countP_add_countP p).symm

/-! ## The statement -/

theorem refreshMailboxCounts_counts (db : Db) (mailboxId : Int) :
    ∃ db', db.refreshMailboxCounts mailboxId = .ok ((), db') ∧
      db'.mailboxMessages = db.mailboxMessages ∧ db'.messages = db.messages ∧
      ∀ mailbox, db'.mailbox mailboxId = some mailbox →
        mailbox.data.existsCount = (db.liveMessages mailboxId).length ∧
        mailbox.data.unseenCount =
          ((db.liveMessages mailboxId).filter fun row => !carriesLiteral row).length := by
  obtain ⟨mailboxes, success⟩ := Table.modify_of_keeps db.mailboxes (·.id == mailboxId)
    (f := fun mailbox => { mailbox with
      existsCount := (db.liveMessages mailboxId).length
      unseenCount := ((db.liveMessages mailboxId).filter fun row => !carriesLiteral row).length })
    (fun _ _ => rfl)
  refine ⟨{ db with mailboxes }, ?_, rfl, rfl, ?_⟩
  · unfold Db.refreshMailboxCounts
    dsimp only
    unfold carriesLiteral at success
    rw [success]
  · intro mailbox found
    have member := Table.mem_of_find found
    obtain ⟨old, -, rfl⟩ := (Table.mem_modify success _).mp member.1
    have same : old.id = mailboxId := by simpa using member.2
    unfold Table.modified
    simp [same]

/-! ## The search -/

def Joined (db : Db) (mailboxId : Int) : Prop :=
  ∀ row ∈ db.liveMessages mailboxId, ∃ message, db.message row.data.messageId = some message

def unseenQuery : SearchQuery := ⟨{ SearchKeys.nothing with forbiddenFlags := ["\\Seen"] }, none⟩

theorem fromImapArgs_unseen (lib : Libraries) : fromImapArgs lib ["UNSEEN"] = .ok unseenQuery := rfl

section
variable {searcher : Searcher} {world : World} (searched : SearchedMailbox searcher world)

theorem length_unseen_views (joined : Joined world.db searched.mailbox.id) :
    (searched.views.filter fun view => !containsCaseInsensitive view.flags "\\Seen").length =
      ((world.db.liveMessages searched.mailbox.id).filter fun row => !carriesSeen row).length := by
  have sorted : (world.db.listMailboxMessages searched.mailbox.id).Perm
      (world.db.liveMessages searched.mailbox.id) := List.perm_insertionSort _ _
  have listed : ∀ row ∈ world.db.listMailboxMessages searched.mailbox.id,
      ∃ message, world.db.message row.data.messageId = some message := by
    intro row member
    exact joined row (sorted.mem_iff.mp member)
  rw [← (sorted.filter _).length_eq]
  unfold SearchedMailbox.views Db.listMailboxMessageViews
  generalize world.db.listMailboxMessages searched.mailbox.id = rows at listed
  induction rows with
  | nil => rfl
  | cons row rows ih =>
      obtain ⟨message, found⟩ := listed row List.mem_cons_self
      have rest := ih fun row member => listed row (List.mem_cons_of_mem _ member)
      have view : (world.db.message row.data.messageId).map
          (Db.messageView searcher.lib.createdAt row) =
          some (Db.messageView searcher.lib.createdAt row message) := by
        rw [found, Option.map_some]
      have flags : containsCaseInsensitive (Db.messageView searcher.lib.createdAt row message).flags
          "\\Seen" = carriesSeen row := rfl
      rw [List.filterMap_cons]
      simp only [view]
      rw [List.filter_cons, List.filter_cons, flags]
      split
      · rw [List.length_cons, List.length_cons, rest]
      · exact rest

theorem finds_unseen (view : MailboxMessageView) :
    searched.Finds unseenQuery view ↔
      (!containsCaseInsensitive view.flags "\\Seen") = true := by
  have passes : searched.Passes unseenQuery.keys view := by
    refine ⟨?_, ?_, fun _ => rfl⟩
    · intro recent
      cases recent
    · intro old
      cases old
  unfold SearchedMailbox.Finds
  rw [and_iff_right passes]
  simp [matchesSearchView, matchesSearchLeaf, unseenQuery, SearchKeys.nothing, SearchKeys.all,
    matchesHeaderFilters]

theorem length_search_unseen (joined : Joined world.db searched.mailbox.id) :
    ∃ results, (uidSearch searcher ["UNSEEN"]).eval (cacheHandler searcher.lib) world =
        (.ok results, world) ∧
      results.length =
        ((world.db.liveMessages searched.mailbox.id).filter fun row => !carriesSeen row).length := by
  have candidates : searched.candidates unseenQuery = .ok (viewUids searched.views) := by
    unfold SearchedMailbox.candidates
    rw [if_neg]
    simp [asksIndex, unseenQuery, SearchKeys.nothing, SearchKeys.all]
  obtain ⟨results, ran⟩ := searched.executeSearch_total candidates (Or.inr rfl)
  obtain ⟨uids, isCandidates, members⟩ := searched.executeSearch_ok ran
  rw [candidates, Except.ok.injEq] at isCandidates
  subst isCandidates
  -- The results are the UIDs of the unseen views, each once.
  have distinct : results.Nodup := (searched.executeSearch_ascending ran).imp fun less => less.ne
  have viewsDistinct : ((searched.views.filter fun view =>
      !containsCaseInsensitive view.flags "\\Seen").map viewUid).Nodup :=
    List.pairwise_map.mpr (searched.views_distinct.filter _)
  have same : ∀ uid, uid ∈ results ↔ uid ∈ (searched.views.filter fun view =>
      !containsCaseInsensitive view.flags "\\Seen").map viewUid := by
    intro uid
    rw [members uid, searched.mem_viewUids_iff, List.mem_map]
    constructor
    · rintro ⟨-, view, member, isUid, finds⟩
      exact ⟨view, List.mem_filter.mpr ⟨member, (finds_unseen searched view).mp finds⟩, isUid⟩
    · rintro ⟨view, kept, isUid⟩
      obtain ⟨member, unseen⟩ := List.mem_filter.mp kept
      exact ⟨⟨view, member, isUid⟩, view, member, isUid, (finds_unseen searched view).mpr unseen⟩
  refine ⟨results, ?_, ?_⟩
  · unfold uidSearch
    rw [fromImapArgs_unseen]
    exact ran
  · rw [← length_unseen_views searched joined,
      ((List.perm_ext_iff_of_nodup distinct viewsDistinct).mpr same).length_eq, List.length_map]

end

/-! ## The counts -/

theorem literal_counts_iff (rows : List (Row MailboxMessage)) :
    (rows.filter fun row => !carriesLiteral row).length =
        (rows.filter fun row => !carriesSeen row).length ↔ SeenAlike rows := by
  have literal := length_filter_not carriesLiteral rows
  have seen := length_filter_not carriesSeen rows
  unfold SeenAlike
  omega

/-- After `refresh_mailbox_counts` a mailbox knows how many rows it has. It knows how many are unseen,
and STATUS agrees with SEARCH, exactly if the statement's flag is as frequent as `\Seen`. -/
theorem mailbox_counts_agree_iff (db : Db) (mailboxId : Int) :
    ∃ db', db.refreshMailboxCounts mailboxId = .ok ((), db') ∧
      db'.liveMessages mailboxId = db.liveMessages mailboxId ∧
      ∀ mailbox, db'.mailbox mailboxId = some mailbox →
        mailbox.data.existsCount = (db.liveMessages mailboxId).length ∧
        (mailbox.data.unseenCount =
            ((db.liveMessages mailboxId).filter fun row => !carriesSeen row).length ↔
          SeenAlike (db.liveMessages mailboxId)) ∧
        ∀ (searcher : Searcher) (world : World) (searched : SearchedMailbox searcher world),
          world.db = db' → searched.mailbox = mailbox → Joined db mailboxId →
          ∃ results, (uidSearch searcher ["UNSEEN"]).eval (cacheHandler searcher.lib) world =
              (.ok results, world) ∧
            (mailbox.data.unseenCount = results.length ↔ SeenAlike (db.liveMessages mailboxId)) := by
  obtain ⟨db', refreshed, rows, messages, counts⟩ := refreshMailboxCounts_counts db mailboxId
  have live : db'.liveMessages mailboxId = db.liveMessages mailboxId := by
    unfold Db.liveMessages
    rw [rows]
  refine ⟨db', refreshed, live, ?_⟩
  intro mailbox found
  obtain ⟨existing, unseen⟩ := counts mailbox found
  refine ⟨existing, ?_, ?_⟩
  · rw [unseen, Int.natCast_inj]
    exact literal_counts_iff _
  · rintro searcher world searched rfl rfl joined
    have id : searched.mailbox.id = mailboxId := (Table.find_id.mp found).2
    have joined' : Joined world.db searched.mailbox.id := by
      rw [id]
      intro row member
      rw [live] at member
      unfold Db.message
      rw [messages]
      exact joined row member
    obtain ⟨results, ran, length⟩ := length_search_unseen searched joined'
    rw [id, live] at length
    refine ⟨results, ran, ?_⟩
    rw [unseen, Int.natCast_inj, length]
    exact literal_counts_iff _

def inbox (flags : List String) : Db :=
  Sample.db [Sample.mailbox "INBOX" none] [Sample.row 1 1 none flags]

def countedDb : Db :=
  match (inbox []).refreshMailboxCounts 1 with
  | .ok (_, db) => db
  | .error _ => inbox []

def counted : World := Sample.world countedDb (Sample.emptyServer none)

def inboxSearcher : Searcher := ⟨Sample.libraries, true, true, some 1, "INBOX", 0⟩

def searchedInbox : SearchedMailbox inboxSearcher counted where
  accountId := 1
  mailbox := ⟨1, { Sample.mailbox "INBOX" none with existsCount := 1, unseenCount := 1 }⟩
  repository := rfl
  account := rfl
  found := by decide +kernel
  fits := by decide +kernel

theorem inbox_unseen_counted :
    ∃ results, (uidSearch inboxSearcher ["UNSEEN"]).eval (cacheHandler Sample.libraries) counted =
      (.ok results, counted) ∧ searchedInbox.mailbox.data.unseenCount = results.length := by
  obtain ⟨db', refreshed, -, counts⟩ := mailbox_counts_agree_iff (inbox []) 1
  have same : counted.db = db' := by
    change countedDb = db'
    unfold countedDb
    rw [refreshed]
  have found : db'.mailbox 1 = some searchedInbox.mailbox := by
    rw [← same]
    decide +kernel
  have alike : SeenAlike ((inbox []).liveMessages 1) := by
    unfold SeenAlike
    decide +kernel
  have joined : Joined (inbox []) 1 := by
    intro row member
    have single : (inbox []).liveMessages 1 = [⟨1, Sample.row 1 1 none []⟩] := by decide +kernel
    rw [single, List.mem_singleton] at member
    subst member
    exact ⟨_, rfl⟩
  obtain ⟨results, ran, agree⟩ :=
    (counts _ found).2.2 inboxSearcher counted searchedInbox same rfl joined
  exact ⟨results, ran, agree.mpr alike⟩

/-- A message that has been seen is counted among the unseen. -/
theorem inbox_seen_counted_unseen :
    ((inbox ["\\Seen"]).refreshMailboxCounts 1).toOption.bind
        (fun result => (result.2.mailbox 1).map (·.data.unseenCount)) = some 1 ∧
      ((inbox ["\\Seen"]).liveMessages 1).filter (fun row => !carriesSeen row) = [] := by
  decide +kernel

end ImapCache.MailboxCounts
