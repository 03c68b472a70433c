import ImapCache.Model.Sample
import ImapCache.Proof.SearchResults

/-!
# NOT and OR in searches

A key that is a query of its own and a key in a tree take different ways: a tree never asks the index
and never looks at what is recent. NOT and OR are therefore the complement and the union of their
operands exactly as far as no message meets the rest of a key and misses that.
-/

namespace ImapCache.Search
open Lib Prog

def SentTerm.Meets {lib : Libraries} (term : SentTerm lib) (view : MailboxMessageView) : Prop :=
  matchesSearchExpr lib view term.expr = true

namespace SearchedMailbox
variable {searcher : Searcher} {world : World} (searched : SearchedMailbox searcher world)

/-- What a key asks for that is not looked at in a tree: its text and what is recent, and that the index
knows the message if it is asked for a text or for UIDs. -/
def Admits (view : MailboxMessageView) : SentTerm searcher.lib → Prop
  | .key key => searched.Passes key.keys view ∧
      (asksIndex searcher.search ⟨key.alone, none⟩ = true → ∃ uids,
        world.searchIndex searcher.lib searcher.mailboxName ⟨key.alone, none⟩ = .ok uids ∧
          viewUid view ∈ uids)
  | .not _ | .or _ _ => True

theorem uidSearch_eval {args : List String} {query : SearchQuery}
    (parsed : fromImapArgs searcher.lib args = .ok query) :
    (uidSearch searcher args).eval (cacheHandler searcher.lib) world =
      (executeSearch searcher query true).eval (cacheHandler searcher.lib) world := by
  unfold uidSearch
  rw [parsed]
  rfl

theorem matchesSearchLeaf_nothing (lib : Libraries) (view : MailboxMessageView) :
    matchesSearchLeaf lib view .nothing = true := rfl

theorem tree_results (expr : SearchExpr) :
    ∃ results, (executeSearch searcher ⟨.nothing, some expr⟩ true).eval (cacheHandler searcher.lib)
        world = (.ok results, world) ∧ ∀ uid, uid ∈ results ↔
      ∃ view ∈ searched.views, viewUid view = uid ∧ matchesSearchExpr searcher.lib view expr = true := by
  have candidates : searched.candidates ⟨.nothing, some expr⟩ = .ok (viewUids searched.views) := by
    unfold SearchedMailbox.candidates
    rw [if_neg (by simp [asksIndex])]
  obtain ⟨results, ok⟩ := searched.executeSearch_total candidates (.inr rfl)
  refine ⟨results, ok, fun uid => ?_⟩
  obtain ⟨uids, same, members⟩ := searched.executeSearch_ok ok
  obtain rfl : viewUids searched.views = uids := Except.ok.inj (candidates.symm.trans same)
  rw [members]
  have finds : ∀ view, searched.Finds ⟨.nothing, some expr⟩ view ↔
      matchesSearchExpr searcher.lib view expr = true := by
    intro view
    unfold Finds matchesSearchView
    rw [matchesSearchLeaf_nothing]
    exact ⟨fun finds => by simpa using finds.2, fun meets =>
      ⟨⟨nofun, nofun, fun _ => rfl⟩, by simpa using meets⟩⟩
  simp only [finds]
  refine ⟨fun found => found.2, fun found => ⟨?_, found⟩⟩
  obtain ⟨view, member, isUid, -⟩ := found
  exact searched.mem_viewUids_iff.mpr ⟨view, member, isUid⟩

theorem key_results {key : SentKey searcher.lib} {results : List Nat} {world' : World}
    (ok : (executeSearch searcher ⟨key.alone, none⟩ true).eval (cacheHandler searcher.lib) world =
      (.ok results, world')) (uid : Nat) :
    uid ∈ results ↔ ∃ view ∈ searched.views, viewUid view = uid ∧
      (SentTerm.key key).Meets view ∧ searched.Admits view (.key key) := by
  obtain ⟨uids, candidates, members⟩ := searched.executeSearch_ok ok
  have finds : ∀ view, searched.Finds ⟨key.alone, none⟩ view ↔
      searched.Passes key.keys view ∧ (SentTerm.key key).Meets view := by
    intro view
    unfold Finds matchesSearchView SentTerm.Meets
    simp only [Option.all_none, Bool.and_true]
    rfl
  rw [members]
  simp only [finds]
  unfold SearchedMailbox.candidates at candidates
  by_cases asks : asksIndex searcher.search ⟨key.alone, none⟩ = true
  · rw [if_pos asks] at candidates
    constructor
    · rintro ⟨member, view, inViews, rfl, passes, meets⟩
      exact ⟨view, inViews, rfl, meets, passes, fun _ => ⟨uids, candidates, member⟩⟩
    · rintro ⟨view, inViews, rfl, meets, passes, known⟩
      obtain ⟨found, answer, member⟩ := known asks
      rw [candidates] at answer
      cases answer
      exact ⟨member, view, inViews, rfl, passes, meets⟩
  · rw [if_neg asks] at candidates
    cases candidates
    constructor
    · rintro ⟨-, view, inViews, rfl, passes, meets⟩
      exact ⟨view, inViews, rfl, meets, passes, fun yes => absurd yes asks⟩
    · rintro ⟨view, inViews, rfl, meets, passes, -⟩
      exact ⟨searched.mem_viewUids_iff.mpr ⟨view, inViews, rfl⟩, view, inViews, rfl, passes, meets⟩

theorem term_results {term : SentTerm searcher.lib} {results : List Nat} {world' : World}
    (ok : (uidSearch searcher term.tokens).eval (cacheHandler searcher.lib) world =
      (.ok results, world')) (uid : Nat) :
    uid ∈ results ↔ ∃ view ∈ searched.views, viewUid view = uid ∧ term.Meets view ∧
      searched.Admits view term := by
  have tree : (∀ keys, term.expr ≠ .leaf keys) → (∀ view, searched.Admits view term) →
      (uid ∈ results ↔ ∃ view ∈ searched.views, viewUid view = uid ∧ term.Meets view ∧
        searched.Admits view term) := by
    intro isTree admits
    rw [uidSearch_eval (term.fromImapArgs_tokens isTree)] at ok
    obtain ⟨found, ok', members⟩ := searched.tree_results term.expr
    rw [ok] at ok'
    cases ok'
    rw [members]
    simp only [admits, and_true]
    rfl
  cases term with
  | key key =>
      rw [SentTerm.tokens, uidSearch_eval key.fromImapArgs_tokens] at ok
      exact searched.key_results ok uid
  | not inner => exact tree (by simp [SentTerm.expr]) fun _ => trivial
  | or left right => exact tree (by simp [SentTerm.expr]) fun _ => trivial

/-- NOT is the complement and OR the union exactly if every message that meets what a tree looks at of
an operand is also what the operand finds alone, as far as the other operand does not find it. -/
theorem not_or_results_iff {a b : SentTerm searcher.lib} {foundA foundB : List Nat}
    (searchA : (uidSearch searcher a.tokens).eval (cacheHandler searcher.lib) world = (.ok foundA, world))
    (searchB : (uidSearch searcher b.tokens).eval (cacheHandler searcher.lib) world = (.ok foundB, world)) :
    ∃ foundNot foundOr,
      (uidSearch searcher (SentTerm.not a).tokens).eval (cacheHandler searcher.lib) world =
        (.ok foundNot, world) ∧
      (uidSearch searcher (SentTerm.or a b).tokens).eval (cacheHandler searcher.lib) world =
        (.ok foundOr, world) ∧
      ((∀ uid, uid ∈ foundNot ↔ (∃ view ∈ searched.views, viewUid view = uid) ∧ uid ∉ foundA) ↔
        ∀ view ∈ searched.views, a.Meets view → searched.Admits view a) ∧
      ((∀ uid, uid ∈ foundOr ↔ uid ∈ foundA ∨ uid ∈ foundB) ↔
        ∀ view ∈ searched.views,
          (a.Meets view → searched.Admits view a ∨
            b.Meets view ∧ searched.Admits view b) ∧
          (b.Meets view → searched.Admits view b ∨
            a.Meets view ∧ searched.Admits view a)) := by
  have notTree : ∀ keys, (SentTerm.not a).expr ≠ .leaf keys := by simp [SentTerm.expr]
  have orTree : ∀ keys, (SentTerm.or a b).expr ≠ .leaf keys := by simp [SentTerm.expr]
  obtain ⟨foundNot, searchNot, membersNot⟩ := searched.tree_results (SentTerm.not a).expr
  obtain ⟨foundOr, searchOr, membersOr⟩ := searched.tree_results (SentTerm.or a b).expr
  rw [← uidSearch_eval (SentTerm.fromImapArgs_tokens _ notTree)] at searchNot
  rw [← uidSearch_eval (SentTerm.fromImapArgs_tokens _ orTree)] at searchOr
  have inA : ∀ view ∈ searched.views,
      (viewUid view ∈ foundA ↔ a.Meets view ∧ searched.Admits view a) := by
    intro view member
    rw [searched.term_results searchA, searched.exists_view_iff member]
  have inB : ∀ view ∈ searched.views,
      (viewUid view ∈ foundB ↔ b.Meets view ∧ searched.Admits view b) := by
    intro view member
    rw [searched.term_results searchB, searched.exists_view_iff member]
  refine ⟨foundNot, foundOr, searchNot, searchOr, ?_, ?_⟩
  · have inNot : ∀ view ∈ searched.views, (viewUid view ∈ foundNot ↔ ¬ a.Meets view) := by
      intro view member
      rw [membersNot, searched.exists_view_iff member]
      simp [SentTerm.expr, matchesSearchExpr, SentTerm.Meets]
    rw [searched.forall_uid_iff (fun uid found => ?_) fun uid found => found.1]
    · refine forall_congr' fun view => forall_congr' fun member => ?_
      rw [inNot view member, inA view member,
        and_iff_right (⟨view, member, rfl⟩ : ∃ other ∈ searched.views, viewUid other = viewUid view)]
      tauto
    · obtain ⟨view, member, isUid, -⟩ := (membersNot uid).mp found
      exact ⟨view, member, isUid⟩
  · have inOr : ∀ view ∈ searched.views, (viewUid view ∈ foundOr ↔ a.Meets view ∨ b.Meets view) := by
      intro view member
      rw [membersOr, searched.exists_view_iff member]
      simp [SentTerm.expr, matchesSearchExpr, SentTerm.Meets]
    rw [searched.forall_uid_iff (fun uid found => ?_) fun uid found => ?_]
    · refine forall_congr' fun view => forall_congr' fun member => ?_
      rw [inOr view member, inA view member, inB view member]
      tauto
    · obtain ⟨view, member, isUid, -⟩ := (membersOr uid).mp found
      exact ⟨view, member, isUid⟩
    · rcases found with found | found
      · obtain ⟨view, member, isUid, -⟩ := (searched.term_results searchA uid).mp found
        exact ⟨view, member, isUid⟩
      · obtain ⟨view, member, isUid, -⟩ := (searched.term_results searchB uid).mp found
        exact ⟨view, member, isUid⟩

end SearchedMailbox

/-! ## A text that is not there -/

def subjectKey (term : String) : SentKey Sample.libraries where
  word := "SUBJECT"
  values := [term]
  keys := { SearchKeys.nothing with queryString := some ("subject:" ++ quoteQuery term) }
  reads := rfl

def inboxSearcher : Searcher := ⟨Sample.libraries, true, true, some 1, "INBOX", 0⟩

/-- An INBOX with one message, which has the subject hi and is in the index. -/
def indexedInbox : World :=
  { Sample.world (Sample.db [Sample.mailbox "INBOX" (some 7)] [Sample.row 1 1 (some 1) []])
      (Sample.emptyServer (some 7)) with
    index := [⟨"INBOX", .fromParsedMessage 1 (Sample.parsedText Sample.hiMessage "hi")⟩] }

def searchedInbox : SearchedMailbox inboxSearcher indexedInbox where
  accountId := 1
  mailbox := ⟨1, Sample.mailbox "INBOX" (some 7)⟩
  repository := rfl
  account := rfl
  found := by decide +kernel
  fits := by decide +kernel

def answer (args : List String) : Option (List Nat) :=
  ((uidSearch inboxSearcher args).eval (cacheHandler Sample.libraries) indexedInbox).1.toOption

theorem searchedInbox_uids : searchedInbox.views.map viewUid = [1] := by decide +kernel

/-- The message is found neither by a subject that it does not have nor by NOT of it. -/
theorem not_subject_finds_nothing :
    searchedInbox.views.map viewUid = [1] ∧ answer (SentTerm.key (subjectKey "yo")).tokens = some [] ∧
      answer (SentTerm.not (.key (subjectKey "yo"))).tokens = some [] :=
  ⟨searchedInbox_uids, by decide +kernel, by decide +kernel⟩

/-- With the subject of every message NOT is the complement. -/
theorem not_subject_of_every_message :
    ∃ foundNot, (uidSearch inboxSearcher (SentTerm.not (.key (subjectKey "hi"))).tokens).eval
        (cacheHandler Sample.libraries) indexedInbox = (.ok foundNot, indexedInbox) ∧
      ∀ uid, uid ∈ foundNot ↔ (∃ view ∈ searchedInbox.views, viewUid view = uid) ∧ uid ∉ [1] := by
  have found : (uidSearch inboxSearcher (SentTerm.key (subjectKey "hi")).tokens).eval
      (cacheHandler Sample.libraries) indexedInbox = (.ok [1], indexedInbox) := rfl
  have missed : (uidSearch inboxSearcher (SentTerm.key (subjectKey "yo")).tokens).eval
      (cacheHandler Sample.libraries) indexedInbox = (.ok [], indexedInbox) := rfl
  obtain ⟨foundNot, foundOr, searchNot, -, complement, -⟩ :=
    searchedInbox.not_or_results_iff (a := .key (subjectKey "hi")) (b := .key (subjectKey "yo"))
      found missed
  refine ⟨foundNot, searchNot, complement.mpr fun view member _ => ⟨⟨nofun, nofun, nofun⟩, fun _ => ?_⟩⟩
  refine ⟨[1], rfl, ?_⟩
  rw [← searchedInbox_uids]
  exact List.mem_map_of_mem member

end ImapCache.Search
