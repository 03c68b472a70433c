import ImapCache.Lib.Sorting
import ImapCache.Model.Searching
import ImapCache.Proof.SearchTerms
import ImapCache.Proof.Statements

/-!
# Search results

What a search of a mailbox returns: of the candidates, which are the messages of the mailbox or what the
index answers, those that meet the keys and pass what is asked about their text and their age.
-/

namespace ImapCache.Search
open Lib Prog

/-! ## The mailbox that is searched -/

def uidSearch (searcher : Searcher) (args : List String) : Action (List Nat) :=
  (Prog.ofExcept (fromImapArgs searcher.lib args)).bind fun query => executeSearch searcher query true

/-- The mailbox that a search finds in the database. The UIDs of its messages are of the type of their
column. -/
structure SearchedMailbox (searcher : Searcher) (world : World) where
  accountId : Int
  mailbox : Row Mailbox
  repository : searcher.repository = true
  account : searcher.accountId = some accountId
  found : world.db.findMailbox accountId searcher.mailboxName = some mailbox
  fits : ∀ row ∈ world.db.listMailboxMessages mailbox.id,
    -i64Max - 1 ≤ row.data.localUid ∧ row.data.localUid ≤ i64Max

namespace SearchedMailbox
variable {searcher : Searcher} {world : World} (searched : SearchedMailbox searcher world)

def views : List MailboxMessageView :=
  world.db.listMailboxMessageViews searcher.lib.createdAt searched.mailbox.id

def candidates (query : SearchQuery) : Except Error (List Nat) :=
  if asksIndex searcher.search query then world.searchIndex searcher.lib searcher.mailboxName query
  else .ok (viewUids searched.views)

/-- What a candidate has to pass besides the keys of the query. -/
def Passes (keys : SearchKeys) (view : MailboxMessageView) : Prop :=
  (keys.recentOnly = true →
      viewUid view ∈ recentMailboxUids searched.views searched.mailbox.data.recentCount) ∧
    (keys.oldOnly = true →
      viewUid view ∉ recentMailboxUids searched.views searched.mailbox.data.recentCount) ∧
    (searcher.search = false → matchesSearchTextFallback searcher.lib view keys.queryString = .ok true)

theorem executeSearch_eval (query : SearchQuery) :
    (executeSearch searcher query true).eval (cacheHandler searcher.lib) world =
      (searchViews searcher query true searched.mailbox searched.views).eval
        (cacheHandler searcher.lib) world := by
  unfold executeSearch withViews
  rw [if_pos searched.repository]
  have found : world.perform searcher.lib (.findMailbox searched.accountId searcher.mailboxName) =
      (.ok (some searched.mailbox), world) := by
    change (Except.ok (world.db.findMailbox searched.accountId searcher.mailboxName), world) = _
    rw [searched.found]
  have views : world.perform searcher.lib (.listMailboxMessageViews searched.mailbox.id) =
      (.ok searched.views, world) := rfl
  rw [searched.account]
  exact (eval_await_bind found).trans (eval_await_bind views)

def contribution (query : SearchQuery) (uid : Nat) : Except Panic (Option Nat) :=
  candidateResult searcher.lib searcher.search query true searched.views
    searched.mailbox.data.recentCount uid

theorem searchViews_eval (query : SearchQuery) :
    (searchViews searcher query true searched.mailbox searched.views).eval (cacheHandler searcher.lib)
        world =
      match searched.candidates query with
      | .error failure => (.error failure, world)
      | .ok uids => ((orPanic (uids.mapM (searched.contribution query))).bind fun results =>
          .ret (((results.filterMap id).insertionSort (· ≤ ·)).destutter (· ≠ ·))).eval
            (cacheHandler searcher.lib) world := by
  unfold searchViews candidates
  by_cases asks : asksIndex searcher.search query = true
  · simp only [asks, ↓reduceIte]
    have answer : world.perform searcher.lib (.searchIndex searcher.mailboxName query) =
      (world.searchIndex searcher.lib searcher.mailboxName query, world) := rfl
    cases found : world.searchIndex searcher.lib searcher.mailboxName query with
    | ok uids => exact eval_await_bind (by rw [answer, found])
    | error failure => exact eval_await_bind_error (by rw [answer, found])
  · simp only [asks, Bool.false_eq_true, ↓reduceIte]
    rfl

/-! ## Messages and their UIDs -/

theorem views_distinct : searched.views.Pairwise fun a b => viewUid a ≠ viewUid b := by
  have rows : (world.db.listMailboxMessages searched.mailbox.id).Pairwise fun a b =>
      a.data.localUid ≠ b.data.localUid := by
    have live : (world.db.liveMessages searched.mailbox.id).Pairwise fun a b =>
        a.data.localUid ≠ b.data.localUid := by
      refine (world.db.mailboxMessages.distinct.filter _).imp_of_mem ?_
      intro a b ha hb separate same
      simp only [List.mem_filter, Bool.and_eq_true, beq_iff_eq] at ha hb
      exact ((mailboxMessageKeys_admits _ _).mp separate.2).1 (ha.2.1.trans hb.2.1.symm) same
    exact (List.perm_insertionSort _ _).symm.pairwise live fun different => different.symm
  refine List.Pairwise.filterMap _ ?_ (rows.imp_of_mem (S := fun a b =>
    a ∈ world.db.listMailboxMessages searched.mailbox.id ∧
      b ∈ world.db.listMailboxMessages searched.mailbox.id ∧ a.data.localUid ≠ b.data.localUid)
    fun ha hb different => ⟨ha, hb, different⟩)
  rintro a b ⟨ha, hb, different⟩ viewA isA viewB isB
  obtain ⟨messageA, -, rfl⟩ := Option.map_eq_some_iff.mp isA
  obtain ⟨messageB, -, rfl⟩ := Option.map_eq_some_iff.mp isB
  have boundsA := searched.fits a ha
  have boundsB := searched.fits b hb
  simp only [i64Max] at boundsA boundsB
  change i64AsU64 a.data.localUid ≠ i64AsU64 b.data.localUid
  unfold i64AsU64
  omega

theorem viewAt_eq_some_iff {uid : Nat} {view : MailboxMessageView} :
    viewAt searched.views uid = some view ↔ view ∈ searched.views ∧ viewUid view = uid := by
  unfold viewAt
  constructor
  · intro last
    have member := List.mem_of_getLast? last
    rw [List.mem_filter, beq_iff_eq] at member
    exact member
  · rintro ⟨member, rfl⟩
    have only : ∀ other ∈ searched.views.filter (viewUid · == viewUid view), other = view := by
      intro other inFilter
      rw [List.mem_filter, beq_iff_eq] at inFilter
      by_contra different
      have symmetric : Std.Symm fun a b : MailboxMessageView => viewUid a ≠ viewUid b :=
        ⟨fun _ _ ne => ne.symm⟩
      exact (searched.views_distinct.forall inFilter.1 member different) inFilter.2
    have here : view ∈ searched.views.filter (viewUid · == viewUid view) := by
      rw [List.mem_filter]
      exact ⟨member, beq_self_eq_true _⟩
    obtain ⟨last, isLast⟩ := Option.isSome_iff_exists.mp
      (List.getLast?_isSome.mpr (List.ne_nil_of_mem here))
    rw [isLast, only last (List.mem_of_getLast? isLast)]

theorem exists_view_iff {view : MailboxMessageView} (member : view ∈ searched.views)
    {p : MailboxMessageView → Prop} :
    (∃ other ∈ searched.views, viewUid other = viewUid view ∧ p other) ↔ p view := by
  constructor
  · rintro ⟨other, inViews, sameUid, holds⟩
    have here := searched.viewAt_eq_some_iff.mpr ⟨member, rfl⟩
    have there := searched.viewAt_eq_some_iff.mpr ⟨inViews, sameUid⟩
    rw [here] at there
    cases there
    exact holds
  · exact fun holds => ⟨view, member, rfl, holds⟩

theorem forall_uid_iff {p q : Nat → Prop} (inP : ∀ uid, p uid → ∃ view ∈ searched.views, viewUid view = uid)
    (inQ : ∀ uid, q uid → ∃ view ∈ searched.views, viewUid view = uid) :
    (∀ uid, p uid ↔ q uid) ↔ ∀ view ∈ searched.views, (p (viewUid view) ↔ q (viewUid view)) := by
  refine ⟨fun same view _ => same _, fun same uid => ⟨fun holds => ?_, fun holds => ?_⟩⟩
  · obtain ⟨view, member, rfl⟩ := inP uid holds
    exact (same view member).mp holds
  · obtain ⟨view, member, rfl⟩ := inQ uid holds
    exact (same view member).mpr holds

theorem mem_viewUids_iff {uid : Nat} :
    uid ∈ viewUids searched.views ↔ ∃ view ∈ searched.views, viewUid view = uid := by
  rw [viewUids, Sorting.mem_sorted, List.mem_map]

/-! ## What a search returns -/

def Finds (query : SearchQuery) (view : MailboxMessageView) : Prop :=
  searched.Passes query.keys view ∧ matchesSearchView searcher.lib view query = true

theorem contribution_ok {query : SearchQuery} {uid : Nat} {answer : Option Nat}
    (ok : searched.contribution query uid = .ok answer) (result : Nat) :
    answer = some result ↔
      result = uid ∧ ∃ view ∈ searched.views, viewUid view = uid ∧ searched.Finds query view := by
  unfold contribution candidateResult at ok
  dsimp only at ok
  cases entry : viewAt searched.views uid with
  | none =>
      rw [entry] at ok
      cases ok
      refine ⟨nofun, ?_⟩
      rintro ⟨-, view, member, isUid, -⟩
      rw [(searched.viewAt_eq_some_iff).mpr ⟨member, isUid⟩] at entry
      cases entry
  | some view =>
      obtain ⟨member, isUid⟩ := searched.viewAt_eq_some_iff.mp entry
      subst isUid
      rw [entry] at ok
      rw [searched.exists_view_iff member]
      dsimp only at ok
      unfold Finds Passes
      split at ok
      · -- the message is recent and should not be, or the other way round
        rename_i wrongAge
        cases ok
        refine ⟨nofun, ?_⟩
        rintro ⟨-, ⟨recent, old, -⟩, -⟩
        simp only [Bool.or_eq_true, Bool.and_eq_true, Bool.not_eq_eq_eq_not, Bool.not_true,
          List.contains_eq_mem, decide_eq_true_eq, decide_eq_false_iff_not] at wrongAge
        rcases wrongAge with ⟨wanted, absent⟩ | ⟨wanted, present⟩
        · exact absurd (recent wanted) absent
        · exact absurd present (old wanted)
      · rename_i rightAge
        simp only [Bool.or_eq_true, Bool.and_eq_true, Bool.not_eq_eq_eq_not, Bool.not_true,
          List.contains_eq_mem, decide_eq_true_eq, decide_eq_false_iff_not, not_or, not_and,
          not_not] at rightAge
        split at ok
        · rename_i meets
          split at ok
          · rename_i indexed
            cases ok
            simp only [↓reduceIte, Option.some.injEq, indexed, Bool.true_eq_false, false_implies,
              and_true, meets]
            exact ⟨fun eq => ⟨eq.symm, rightAge⟩, fun eq => eq.1.symm⟩
          · rename_i unindexed
            cases text : matchesSearchTextFallback searcher.lib view query.keys.queryString with
            | error reason =>
                rw [text] at ok
                cases ok
            | ok found =>
                rw [text] at ok
                cases ok
                cases found with
                | true =>
                    simp only [↓reduceIte, Option.some.injEq, meets, implies_true, and_true]
                    exact ⟨fun eq => ⟨eq.symm, rightAge⟩, fun eq => eq.1.symm⟩
                | false =>
                    refine ⟨nofun, ?_⟩
                    rintro ⟨-, ⟨-, -, found⟩, -⟩
                    cases found (by simpa using unindexed)
        · rename_i misses
          cases ok
          exact ⟨nofun, fun finds => absurd finds.2.2 misses⟩

theorem contribution_total {query : SearchQuery}
    (plain : searcher.search = true ∨ query.keys.queryString = none) (uid : Nat) :
    ∃ answer, searched.contribution query uid = .ok answer := by
  unfold contribution candidateResult
  dsimp only
  split
  · exact ⟨_, rfl⟩
  · split
    · exact ⟨_, rfl⟩
    · split
      · split
        · exact ⟨_, rfl⟩
        · rename_i unindexed
          have none : query.keys.queryString = none := plain.resolve_left unindexed
          rw [none]
          exact ⟨_, rfl⟩
      · exact ⟨_, rfl⟩

end SearchedMailbox

theorem mapM_ok {f : Nat → Except Panic (Option Nat)} {uids : List Nat} {results : List (Option Nat)}
    (ok : uids.mapM f = .ok results) :
    (∀ uid ∈ uids, ∃ answer ∈ results, f uid = .ok answer) ∧
      ∀ answer ∈ results, ∃ uid ∈ uids, f uid = .ok answer := by
  induction uids generalizing results with
  | nil =>
      cases ok
      simp
  | cons uid uids ih =>
      rw [List.mapM_cons] at ok
      cases first : f uid with
      | error reason =>
          rw [first] at ok
          cases ok
      | ok answer =>
          cases others : uids.mapM f with
          | error reason =>
              rw [first, others] at ok
              cases ok
          | ok answers =>
              rw [first, others] at ok
              cases ok
              obtain ⟨asked, answered⟩ := ih others
              constructor
              · rintro other (_ | ⟨_, member⟩)
                · exact ⟨answer, List.mem_cons_self .., first⟩
                · obtain ⟨result, inAnswers, eq⟩ := asked other member
                  exact ⟨result, List.mem_cons_of_mem _ inAnswers, eq⟩
              · rintro other (_ | ⟨_, member⟩)
                · exact ⟨uid, List.mem_cons_self .., first⟩
                · obtain ⟨asking, inUids, eq⟩ := answered other member
                  exact ⟨asking, List.mem_cons_of_mem _ inUids, eq⟩

theorem mapM_total {f : Nat → Except Panic (Option Nat)} (total : ∀ uid, ∃ answer, f uid = .ok answer)
    (uids : List Nat) : ∃ results, uids.mapM f = .ok results := by
  induction uids with
  | nil => exact ⟨[], rfl⟩
  | cons uid uids ih =>
      obtain ⟨answer, first⟩ := total uid
      obtain ⟨answers, others⟩ := ih
      refine ⟨answer :: answers, ?_⟩
      rw [List.mapM_cons, first, others]
      rfl

namespace SearchedMailbox
variable {searcher : Searcher} {world : World} (searched : SearchedMailbox searcher world)

theorem executeSearch_ok {query : SearchQuery} {results : List Nat} {world' : World}
    (ok : (executeSearch searcher query true).eval (cacheHandler searcher.lib) world =
      (.ok results, world')) :
    ∃ uids, searched.candidates query = .ok uids ∧ ∀ uid, uid ∈ results ↔
      uid ∈ uids ∧ ∃ view ∈ searched.views, viewUid view = uid ∧ searched.Finds query view := by
  rw [searched.executeSearch_eval, searched.searchViews_eval] at ok
  cases candidates : searched.candidates query with
  | error failure =>
      rw [candidates] at ok
      cases ok
  | ok uids =>
      rw [candidates] at ok
      dsimp only at ok
      refine ⟨uids, rfl, fun uid => ?_⟩
      cases mapped : uids.mapM (searched.contribution query) with
      | error reason =>
          rw [mapped] at ok
          cases ok
      | ok answers =>
          rw [mapped] at ok
          cases ok
          obtain ⟨asked, answered⟩ := mapM_ok mapped
          rw [Sorting.mem_sorted, List.mem_filterMap]
          constructor
          · rintro ⟨answer, member, rfl⟩
            obtain ⟨candidate, inUids, contributes⟩ := answered _ member
            obtain ⟨rfl, finds⟩ := (searched.contribution_ok contributes uid).mp rfl
            exact ⟨inUids, finds⟩
          · rintro ⟨member, finds⟩
            obtain ⟨answer, inAnswers, contributes⟩ := asked uid member
            exact ⟨answer, inAnswers, (searched.contribution_ok contributes uid).mpr ⟨rfl, finds⟩⟩

include searched in
theorem executeSearch_ascending {query : SearchQuery} {results : List Nat} {world' : World}
    (ok : (executeSearch searcher query true).eval (cacheHandler searcher.lib) world =
      (.ok results, world')) : results.Pairwise (· < ·) := by
  rw [searched.executeSearch_eval, searched.searchViews_eval] at ok
  cases candidates : searched.candidates query with
  | error failure =>
      rw [candidates] at ok
      cases ok
  | ok uids =>
      rw [candidates] at ok
      dsimp only at ok
      cases mapped : uids.mapM (searched.contribution query) with
      | error reason =>
          rw [mapped] at ok
          cases ok
      | ok answers =>
          rw [mapped] at ok
          cases ok
          exact Sorting.sorted_ascending _

theorem executeSearch_total {query : SearchQuery} {uids : List Nat}
    (candidates : searched.candidates query = .ok uids)
    (plain : searcher.search = true ∨ query.keys.queryString = none) :
    ∃ results, (executeSearch searcher query true).eval (cacheHandler searcher.lib) world =
      (.ok results, world) := by
  obtain ⟨answers, mapped⟩ := mapM_total (searched.contribution_total plain) uids
  rw [searched.executeSearch_eval, searched.searchViews_eval, candidates]
  dsimp only
  rw [mapped]
  exact ⟨_, rfl⟩

end SearchedMailbox

end ImapCache.Search
