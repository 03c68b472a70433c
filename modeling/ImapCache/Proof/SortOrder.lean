import ImapCache.Lib.Orderings
import ImapCache.Model.Sample
import ImapCache.Proof.SearchResults

/-!
# The order of SORT

SORT returns what SEARCH returns in the order of its criteria. Each criterion should be taken in
descending order where REVERSE stands before it. The code reads one REVERSE anywhere as the reversal of
the whole order, with the UIDs that decide between equal messages.
-/

namespace ImapCache.Search
open Lib Prog Orderings Protocol

/-! ## Criteria -/

def SortKey.text : SortKey → String
  | date => "DATE"
  | subject => "SUBJECT"
  | sender => "FROM"
  | recipient => "TO"
  | cc => "CC"
  | size => "SIZE"
  | arrival => "ARRIVAL"
  | uid => "UID"

/-- A key that REVERSE may stand before. -/
structure Criterion where
  reverse : Bool
  key : SortKey
deriving DecidableEq

def Criterion.tokens (criterion : Criterion) : List String :=
  if criterion.reverse then ["REVERSE", criterion.key.text] else [criterion.key.text]

def sortTokens (keys : String) : List String :=
  splitWhitespace (trimEndChar ')' (trimStartChar '(' (trim keys.toList)))

/-- Whether an argument writes these criteria, in letters of any case. -/
def Writes (keys : String) (criteria : List Criterion) : Prop :=
  criteria ≠ [] ∧ (sortTokens keys).map toAsciiUppercase = criteria.flatMap Criterion.tokens

instance (keys : String) (criteria : List Criterion) : Decidable (Writes keys criteria) :=
  inferInstanceAs (Decidable (_ ∧ _))

theorem parseSortToken_key {token : String} {key : SortKey} (spelled : toAsciiUppercase token = key.text)
    (request : List SortKey × Bool) : parseSortToken request token = .ok (request.1 ++ [key], request.2) := by
  unfold parseSortToken
  rw [spelled]
  cases key <;> rfl

theorem parseSortToken_reverse {token : String} (spelled : toAsciiUppercase token = "REVERSE")
    (request : List SortKey × Bool) : parseSortToken request token = .ok (request.1, true) := by
  unfold parseSortToken
  rw [spelled]
  rfl

theorem parseSortTokens (criteria : List Criterion) (tokens : List String) (request : List SortKey × Bool)
    (spelled : tokens.map toAsciiUppercase = criteria.flatMap Criterion.tokens) :
    tokens.foldlM parseSortToken request =
      .ok (request.1 ++ criteria.map (·.key), request.2 || criteria.any (·.reverse)) := by
  induction criteria generalizing tokens request with
  | nil =>
      rw [List.flatMap_nil, List.map_eq_nil_iff] at spelled
      subst spelled
      simp [pure, Except.pure]
  | cons criterion criteria ih =>
      obtain ⟨reverse, key⟩ := criterion
      rw [List.flatMap_cons] at spelled
      cases reverse with
      | false =>
          obtain ⟨token, others, rfl, isKey, rest⟩ := List.map_eq_cons_iff.mp spelled
          rw [List.foldlM_cons, parseSortToken_key isKey]
          refine (ih others _ rest).trans ?_
          simp
      | true =>
          obtain ⟨first, tail, rfl, isReverse, rest⟩ := List.map_eq_cons_iff.mp spelled
          obtain ⟨token, others, rfl, isKey, rest⟩ := List.map_eq_cons_iff.mp rest
          rw [List.foldlM_cons, parseSortToken_reverse isReverse]
          change (token :: others).foldlM parseSortToken (request.1, true) = _
          rw [List.foldlM_cons, parseSortToken_key isKey]
          refine (ih others _ rest).trans ?_
          simp

theorem parseSortRequest_eq {lib : Libraries} {keys charset first : String} {others : List String}
    {criteria : List Criterion} (writes : Writes keys criteria) :
    parseSortRequest lib (keys :: charset :: first :: others) =
      (fromImapArgs lib (first :: others)).map fun query =>
        some ⟨criteria.map (·.key), criteria.any (·.reverse), query⟩ := by
  have read := parseSortTokens criteria _ ([], false) writes.2
  have some : (sortTokens keys).isEmpty = false := by
    rw [List.isEmpty_eq_false_iff]
    intro nothing
    have empty := writes.2
    rw [nothing, List.map_nil, eq_comm, List.flatMap_eq_nil_iff] at empty
    obtain ⟨criterion, member⟩ := List.exists_mem_of_ne_nil _ writes.1
    have none := empty criterion member
    unfold Criterion.tokens at none
    split at none <;> cases none
  unfold sortTokens at read some
  unfold parseSortRequest
  simp only [some, Bool.false_eq_true, ↓reduceIte, read]
  cases fromImapArgs lib (first :: others) <;> rfl

/-! ## Orders of messages -/

def keyOrder (key : SortKey) (left right : MailboxMessageView) : Ordering := compareSortKey left right key

def uidOrder : MailboxMessageView → MailboxMessageView → Ordering := compareOn (·.localUid)

theorem compareOn_transitive {β : Type} [Ord β] [Std.TransOrd β]
    {cmp : MailboxMessageView → MailboxMessageView → Ordering} (f : MailboxMessageView → β)
    (same : cmp = compareOn f) : Std.TransCmp cmp := by
  rw [same]
  infer_instance

instance : Std.TransCmp uidOrder := compareOn_transitive (·.localUid) rfl

instance (key : SortKey) : Std.TransCmp (keyOrder key) := by
  cases key with
  | date => exact compareOn_transitive sortDateKey rfl
  | subject => exact compareOn_transitive (fun view => sortTextKey view.subject) rfl
  | sender => exact compareOn_transitive (fun view => sortAddressKey view.envelopeJson "from") rfl
  | recipient => exact compareOn_transitive (fun view => sortAddressKey view.envelopeJson "to") rfl
  | cc => exact compareOn_transitive (fun view => sortAddressKey view.envelopeJson "cc") rfl
  | size => exact compareOn_transitive (·.sizeOctets) rfl
  | arrival => exact compareOn_transitive (·.createdAt) rfl
  | uid => exact compareOn_transitive (·.localUid) rfl

/-- The order of a criterion, which REVERSE turns around. -/
def Criterion.order (criterion : Criterion) (left right : MailboxMessageView) : Ordering :=
  if criterion.reverse then (keyOrder criterion.key left right).swap else keyOrder criterion.key left right

/-- The order that criteria ask for: the first criterion under which two messages differ decides, and
the UIDs if there is none. -/
def criteriaOrder (criteria : List Criterion) : MailboxMessageView → MailboxMessageView → Ordering :=
  lexicographic (criteria.map Criterion.order ++ [uidOrder])

/-- The criterion under which two messages differ first. -/
def firstDifference (criteria : List Criterion) (left right : MailboxMessageView) : Option Criterion :=
  criteria.find? fun criterion => keyOrder criterion.key left right != .eq

section Orders
variable {criteria : List Criterion} {a b : MailboxMessageView}

theorem firstDifference_comm : firstDifference criteria a b = firstDifference criteria b a := by
  unfold firstDifference
  congr 1
  funext criterion
  have swap : keyOrder criterion.key b a = (keyOrder criterion.key a b).swap := Std.OrientedCmp.eq_swap
  rw [swap]
  cases keyOrder criterion.key a b <;> rfl

/-- The order of the rows without and with the directions, by where two messages differ first. -/
theorem orders_eq (criteria : List Criterion) (a b : MailboxMessageView) :
    match firstDifference criteria a b with
    | none => compareSortRows (criteria.map (·.key)) a b = uidOrder a b ∧ criteriaOrder criteria a b = uidOrder a b
    | some criterion => criterion ∈ criteria ∧ keyOrder criterion.key a b ≠ .eq ∧
        compareSortRows (criteria.map (·.key)) a b = keyOrder criterion.key a b ∧
        criteriaOrder criteria a b = criterion.order a b := by
  induction criteria with
  | nil =>
      refine ⟨rfl, ?_⟩
      change (uidOrder a b).then .eq = _
      cases uidOrder a b <;> rfl
  | cons first criteria ih =>
      have rows : compareSortRows ((first :: criteria).map (·.key)) a b =
          (keyOrder first.key a b).then (compareSortRows (criteria.map (·.key)) a b) := rfl
      have ordered : criteriaOrder (first :: criteria) a b =
          (first.order a b).then (criteriaOrder criteria a b) := rfl
      rw [rows, ordered, firstDifference]
      cases difference : keyOrder first.key a b with
      | eq =>
          rw [List.find?_cons_of_neg (by simp [difference])]
          have same : first.order a b = .eq := by
            unfold Criterion.order
            rw [difference]
            split <;> rfl
          rw [same]
          change match firstDifference criteria a b with
            | none => _
            | some criterion => _
          cases found : firstDifference criteria a b with
          | none =>
              rw [found] at ih
              exact ih
          | some criterion =>
              rw [found] at ih
              exact ⟨List.mem_cons_of_mem _ ih.1, ih.2⟩
      | lt =>
          rw [List.find?_cons_of_pos (by simp [difference])]
          refine ⟨List.mem_cons_self .., by simp [difference], difference.symm, ?_⟩
          unfold Criterion.order
          rw [difference]
          split <;> rfl
      | gt =>
          rw [List.find?_cons_of_pos (by simp [difference])]
          refine ⟨List.mem_cons_self .., by simp [difference], difference.symm, ?_⟩
          unfold Criterion.order
          rw [difference]
          split <;> rfl

theorem rows_order_plain (plain : ∀ criterion ∈ criteria, criterion.reverse = false) :
    compareSortRows (criteria.map (·.key)) a b = criteriaOrder criteria a b := by
  have eq := orders_eq criteria a b
  cases found : firstDifference criteria a b with
  | none =>
      rw [found] at eq
      exact eq.1.trans eq.2.symm
  | some criterion =>
      rw [found] at eq
      rw [eq.2.2.1, eq.2.2.2, Criterion.order, plain criterion eq.1]
      rfl

/-- Messages in the reversed order of the rows are in the order that is asked for if they differ first
under a criterion after REVERSE. -/
theorem reversed_agrees_iff (apart : uidOrder a b ≠ .eq)
    (reversed : Before (fun a b => (compareSortRows (criteria.map (·.key)) a b).swap) a b) :
    Before (criteriaOrder criteria) a b ↔
      ∃ criterion, firstDifference criteria a b = some criterion ∧ criterion.reverse = true := by
  have eq := orders_eq criteria a b
  unfold Before at reversed ⊢
  cases found : firstDifference criteria a b with
  | none =>
      rw [found] at eq
      beta_reduce at reversed
      rw [eq.1] at reversed
      rw [eq.2]
      cases order : uidOrder a b <;> simp_all
  | some criterion =>
      rw [found] at eq
      obtain ⟨-, differ, rows, ordered⟩ := eq
      beta_reduce at reversed
      rw [rows] at reversed
      rw [ordered, Criterion.order]
      cases reverse : criterion.reverse <;> cases order : keyOrder criterion.key a b <;> simp_all

end Orders

/-! ## What SORT returns -/

def rowOrder (sortKeys : List SortKey) (reverse : Bool) (left right : MailboxMessageView) : Ordering :=
  let ordering := compareSortRows sortKeys left right
  if reverse then ordering.swap else ordering

theorem pairwise_sorted (criteria : List Criterion) (reverse : Bool) (rows : List MailboxMessageView) :
    (rows.insertionSort (Before (rowOrder (criteria.map (·.key)) reverse))).Pairwise
      (Before (rowOrder (criteria.map (·.key)) reverse)) := by
  let plain : List Criterion := criteria.map fun criterion => ⟨false, criterion.key⟩
  have keys : criteria.map (·.key) = plain.map (·.key) := by simp [plain]
  have rowsOrder : compareSortRows (criteria.map (·.key)) = criteriaOrder plain := by
    funext a b
    rw [keys]
    refine rows_order_plain fun criterion member => ?_
    obtain ⟨_, -, rfl⟩ := List.mem_map.mp member
    rfl
  have transitive : Std.TransCmp (criteriaOrder plain) := by
    refine lexicographic_transitive fun cmp member => ?_
    rcases List.mem_append.mp member with isCriterion | isUid
    · obtain ⟨criterion, inPlain, rfl⟩ := List.mem_map.mp isCriterion
      obtain ⟨⟨_, key⟩, -, rfl⟩ := List.mem_map.mp inPlain
      exact inferInstanceAs (Std.TransCmp (keyOrder key))
    · rw [List.mem_singleton.mp isUid]
      exact inferInstanceAs (Std.TransCmp (compareOn _))
  unfold rowOrder
  rw [rowsOrder]
  cases reverse with
  | false => exact List.pairwise_insertionSort (Before (criteriaOrder plain)) rows
  | true =>
      have swapped : (fun a b => (criteriaOrder plain a b).swap) = fun a b => criteriaOrder plain b a := by
        funext a b
        exact Std.OrientedCmp.eq_swap.symm
      have opposite : Std.TransCmp fun a b => criteriaOrder plain b a := Std.TransCmp.opposite
      simp only [↓reduceIte]
      rw [swapped]
      exact List.pairwise_insertionSort (Before fun a b => criteriaOrder plain b a) rows

def uidSort (searcher : Searcher) (args : List String) : Action (List Nat) :=
  (Prog.ofExcept (parseSortRequest searcher.lib args)).bind fun
    | none => .ret []
    | some request => executeSort searcher request true

namespace SearchedMailbox
variable {searcher : Searcher} {world : World} (searched : SearchedMailbox searcher world)

def rows (uids : List Nat) : List MailboxMessageView := uids.filterMap (viewAt searched.views)

def InOrder (order : MailboxMessageView → MailboxMessageView → Ordering) (uids : List Nat) : Prop :=
  (searched.rows uids).Pairwise (Before order)

theorem mem_rows {uids : List Nat} {view : MailboxMessageView} :
    view ∈ searched.rows uids ↔ view ∈ searched.views ∧ viewUid view ∈ uids := by
  rw [rows, List.mem_filterMap]
  constructor
  · rintro ⟨uid, member, found⟩
    obtain ⟨inViews, rfl⟩ := searched.viewAt_eq_some_iff.mp found
    exact ⟨inViews, member⟩
  · rintro ⟨inViews, member⟩
    exact ⟨_, member, searched.viewAt_eq_some_iff.mpr ⟨inViews, rfl⟩⟩

theorem map_viewUid_rows {uids : List Nat}
    (there : ∀ uid ∈ uids, ∃ view ∈ searched.views, viewUid view = uid) :
    (searched.rows uids).map viewUid = uids := by
  unfold rows
  induction uids with
  | nil => rfl
  | cons uid uids ih =>
      obtain ⟨view, inViews, isUid⟩ := there uid (List.mem_cons_self ..)
      rw [List.filterMap_cons_some (searched.viewAt_eq_some_iff.mpr ⟨inViews, isUid⟩), List.map_cons, isUid,
        ih fun other member => there other (List.mem_cons_of_mem _ member)]

theorem rows_map_viewUid {views : List MailboxMessageView} (there : ∀ view ∈ views, view ∈ searched.views) :
    searched.rows (views.map viewUid) = views := by
  unfold rows
  induction views with
  | nil => rfl
  | cons view views ih =>
      have inViews := there view (List.mem_cons_self ..)
      rw [List.map_cons, List.filterMap_cons_some (searched.viewAt_eq_some_iff.mpr ⟨inViews, rfl⟩),
        ih fun other member => there other (List.mem_cons_of_mem _ member)]

theorem uidOrder_ne_eq {a b : MailboxMessageView} (aIn : a ∈ searched.views) (bIn : b ∈ searched.views)
    (apart : a ≠ b) : uidOrder a b ≠ .eq := by
  intro same
  have sameUid : viewUid a = viewUid b := congrArg i64AsU64 (Std.LawfulEqCmp.compare_eq_iff_eq.mp same)
  have here := searched.viewAt_eq_some_iff.mpr ⟨aIn, sameUid⟩
  rw [searched.viewAt_eq_some_iff.mpr ⟨bIn, rfl⟩] at here
  exact apart (Option.some.inj here).symm

theorem executeSort_eval {request : SortRequest} {found : List Nat} {world' : World}
    (search : (executeSearch searcher request.query true).eval (cacheHandler searcher.lib) world =
      (.ok found, world')) :
    (executeSort searcher request true).eval (cacheHandler searcher.lib) world =
      (.ok (((searched.rows found).insertionSort
        (Before (rowOrder request.sortKeys request.reverse))).map viewUid), world') := by
  unfold executeSort withViews
  rw [if_pos searched.repository]
  have mailbox : world.perform searcher.lib (.findMailbox searched.accountId searcher.mailboxName) =
      (.ok (some searched.mailbox), world) := by
    change (Except.ok (world.db.findMailbox searched.accountId searcher.mailboxName), world) = _
    rw [searched.found]
  have views : world.perform searcher.lib (.listMailboxMessageViews searched.mailbox.id) =
      (.ok searched.views, world) := rfl
  rw [searched.account]
  refine (eval_await_bind mailbox).trans ((eval_await_bind views).trans ?_)
  have rows : (findViews searcher request.query searched.views).eval (cacheHandler searcher.lib) world =
      (.ok (searched.rows found), world') := by
    refine (eval_bind (cacheHandler searcher.lib) _ _ world).trans ?_
    rw [search]
    rfl
  refine (eval_bind (cacheHandler searcher.lib) _ _ world).trans ?_
  rw [rows]
  rfl

/-- What is asked of the found messages for their order to be right where a criterion has REVERSE: any two
of them differ under some criterion, and the first one under which they do has REVERSE. -/
def DifferReversed (criteria : List Criterion) (found : List Nat) : Prop :=
  ∀ a ∈ searched.rows found, ∀ b ∈ searched.rows found, a ≠ b →
    ∃ criterion, firstDifference criteria a b = some criterion ∧ criterion.reverse = true

/-- Rows in the reversed order of all criteria are in the order that is asked for if and only if any two
of them differ first under a criterion with REVERSE. -/
theorem reversed_inOrder_iff {criteria : List Criterion} {found : List Nat}
    {sorted : List MailboxMessageView} (perm : sorted.Perm (searched.rows found))
    (distinct : sorted.Nodup)
    (ordered : sorted.Pairwise (Before (rowOrder (criteria.map (·.key)) true))) :
    sorted.Pairwise (Before (criteriaOrder criteria)) ↔ searched.DifferReversed criteria found := by
  have agrees : ∀ a ∈ sorted, ∀ b ∈ sorted, a ≠ b →
      Before (rowOrder (criteria.map (·.key)) true) a b →
      (Before (criteriaOrder criteria) a b ↔
        ∃ criterion, firstDifference criteria a b = some criterion ∧ criterion.reverse = true) := by
    intro a aIn b bIn apart before
    have inViews : ∀ view ∈ sorted, view ∈ searched.views := fun view member =>
      (searched.mem_rows.mp (perm.subset member)).1
    exact reversed_agrees_iff (searched.uidOrder_ne_eq (inViews a aIn) (inViews b bIn) apart) before
  constructor
  · intro inOrder
    have differ : sorted.Pairwise fun a b =>
        ∃ criterion, firstDifference criteria a b = some criterion ∧ criterion.reverse = true :=
      ((ordered.and inOrder).and distinct).imp_of_mem fun {a b} aIn bIn holds =>
        (agrees a aIn b bIn holds.2 holds.1.1).mp holds.1.2
    have symmetric : Std.Symm fun a b : MailboxMessageView =>
        ∃ criterion, firstDifference criteria a b = some criterion ∧ criterion.reverse = true :=
      ⟨fun a b holds => by rw [firstDifference_comm]; exact holds⟩
    intro a aIn b bIn apart
    exact differ.forall (perm.mem_iff.mpr aIn) (perm.mem_iff.mpr bIn) apart
  · intro differ
    refine (ordered.and distinct).imp_of_mem fun {a b} aIn bIn holds => ?_
    exact (agrees a aIn b bIn holds.2 holds.1).mpr (differ a (perm.subset aIn) b (perm.subset bIn) holds.2)

/-- A UID SORT returns the UIDs that the UID SEARCH of the same program returns. They are in the order
of the criteria if and only if no criterion has REVERSE, or any two found messages differ first under a
criterion that has it. -/
theorem uid_sort_ordered_iff {keys charset first : String} {others : List String} {criteria : List Criterion}
    (writes : Writes keys criteria) {found : List Nat} {world' : World}
    (search : (uidSearch searcher (first :: others)).eval (cacheHandler searcher.lib) world =
      (.ok found, world')) :
    ∃ sorted, (uidSort searcher (keys :: charset :: first :: others)).eval (cacheHandler searcher.lib) world =
        (.ok sorted, world') ∧ sorted.Perm found ∧
      (searched.InOrder (criteriaOrder criteria) sorted ↔
        (∀ criterion ∈ criteria, criterion.reverse = false) ∨ searched.DifferReversed criteria found) := by
  unfold uidSearch at search
  unfold uidSort
  rw [parseSortRequest_eq writes]
  cases read : fromImapArgs searcher.lib (first :: others) with
  | error failure =>
      rw [read] at search
      cases search
  | ok query =>
      rw [read] at search
      change (executeSearch searcher query true).eval (cacheHandler searcher.lib) world = _ at search
      obtain ⟨uids, -, found_iff⟩ := searched.executeSearch_ok search
      have there : ∀ uid ∈ found, ∃ view ∈ searched.views, viewUid view = uid := by
        intro uid member
        obtain ⟨-, view, inViews, isUid, -⟩ := (found_iff uid).mp member
        exact ⟨view, inViews, isUid⟩
      let sorted := (searched.rows found).insertionSort
        (Before (rowOrder (criteria.map (·.key)) (criteria.any (·.reverse))))
      have perm : sorted.Perm (searched.rows found) := List.perm_insertionSort ..
      have uidPerm : (sorted.map viewUid).Perm found := by
        rw [← searched.map_viewUid_rows there]
        exact perm.map _
      have distinct : sorted.Nodup := by
        refine List.Nodup.of_map viewUid (uidPerm.nodup_iff.mpr ?_)
        exact (searched.executeSearch_ascending search).imp ne_of_lt
      have ordered := pairwise_sorted criteria (criteria.any (·.reverse)) (searched.rows found)
      refine ⟨sorted.map viewUid, searched.executeSort_eval search, uidPerm, ?_⟩
      rw [InOrder, searched.rows_map_viewUid fun view member => (searched.mem_rows.mp (perm.subset member)).1]
      cases reverse : criteria.any (·.reverse) with
      | false =>
          have plain : ∀ criterion ∈ criteria, criterion.reverse = false := by
            simpa using reverse
          refine iff_of_true ?_ (.inl plain)
          rw [reverse] at ordered
          have sameOrder : rowOrder (criteria.map (·.key)) false = criteriaOrder criteria := by
            funext a b
            exact rows_order_plain plain
          change (List.insertionSort (Before (rowOrder (criteria.map (·.key)) (criteria.any (·.reverse)))) _).Pairwise _
          rw [reverse]
          exact ordered.imp fun {a b} before => sameOrder ▸ before
      | true =>
          have some : ¬ ∀ criterion ∈ criteria, criterion.reverse = false := by
            obtain ⟨criterion, member, isReverse⟩ := List.any_eq_true.mp reverse
            intro plain
            rw [plain criterion member] at isReverse
            cases isReverse
          rw [or_iff_right some]
          refine searched.reversed_inOrder_iff perm distinct ?_
          have turned := ordered
          rw [reverse] at turned
          change (List.insertionSort (Before (rowOrder (criteria.map (·.key)) (criteria.any (·.reverse)))) _).Pairwise _
          rw [reverse]
          exact turned

end SearchedMailbox

/-! ## Two messages of one subject -/

def twice : World :=
  Sample.world (Sample.db [Sample.mailbox "INBOX" (some 7)]
    [Sample.row 1 1 (some 1) [], Sample.row 1 2 (some 2) []]) (Sample.emptyServer (some 7))

def sortSearcher : Searcher := ⟨Sample.libraries, true, false, some 1, "INBOX", 0⟩

def searchedTwice : SearchedMailbox sortSearcher twice where
  accountId := 1
  mailbox := ⟨1, Sample.mailbox "INBOX" (some 7)⟩
  repository := rfl
  account := rfl
  found := by decide +kernel
  fits := by decide +kernel

theorem searched_all : (uidSearch sortSearcher ["ALL"]).eval (cacheHandler Sample.libraries) twice =
    (.ok [1, 2], twice) := rfl

theorem uid_sort_subject :
    ∃ sorted, (uidSort sortSearcher ["(SUBJECT)", "UTF-8", "ALL"]).eval (cacheHandler Sample.libraries) twice =
        (.ok sorted, twice) ∧ sorted.Perm [1, 2] ∧
      (searchedTwice.InOrder (criteriaOrder [⟨false, .subject⟩]) sorted ↔
        (∀ criterion ∈ [⟨false, .subject⟩], Criterion.reverse criterion = false) ∨
          searchedTwice.DifferReversed [⟨false, .subject⟩] [1, 2]) :=
  searchedTwice.uid_sort_ordered_iff (by decide +kernel) searched_all

/-- With REVERSE two messages of one subject are in the order of descending UIDs. -/
theorem reverse_turns_ties :
    Writes "(REVERSE SUBJECT)" [⟨true, .subject⟩] ∧
      ∃ sorted, (uidSort sortSearcher ["(REVERSE SUBJECT)", "UTF-8", "ALL"]).eval
          (cacheHandler Sample.libraries) twice = (.ok sorted, twice) ∧
        ¬ searchedTwice.InOrder (criteriaOrder [⟨true, .subject⟩]) sorted := by
  have ran : (uidSort sortSearcher ["(REVERSE SUBJECT)", "UTF-8", "ALL"]).eval
      (cacheHandler Sample.libraries) twice = (.ok [2, 1], twice) := rfl
  refine ⟨by decide +kernel, [2, 1], ran, ?_⟩
  unfold SearchedMailbox.InOrder Before
  decide +kernel

end ImapCache.Search
