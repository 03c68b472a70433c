import ImapCache.Model.Repository
import ImapCache.Model.Sample
import ImapCache.Proof.KnownKeys
import ImapCache.Proof.SearchResults

/-!
# Searches for what the rows hold

The keys about UIDs, flags, keywords, sizes and dates ask for nothing but what the rows of a mailbox
hold. A query of several such keys merges them into one, which asks for less than all of them if there
are several UID sets or several days, and a UID set is looked for in the index, which may not know the
messages that are there.
-/

namespace ImapCache.Search
open Lib Prog

variable {lib : Libraries}

/-! ## Queries of several keys -/

def sentTokens (keys : List (SentRowKey lib)) : List String := keys.flatMap SentRowKey.tokens

def mergedLeaves (keys : List (RowKey lib)) (flat : SearchKeys) : SearchKeys :=
  keys.foldl (fun merged key => merged.merge key.leaf) flat

theorem parseTerms_keys (keys : List (SentRowKey lib)) (flat : SearchKeys) {fuel : Nat}
    (enough : (sentTokens keys).length ≤ fuel) :
    parseTerms lib fuel (sentTokens keys) flat [] = .ok (mergedLeaves (keys.map (·.key)) flat, []) := by
  induction keys generalizing flat fuel with
  | nil => cases fuel <;> rfl
  | cons sent keys ih =>
      have tokens : sentTokens (sent :: keys) = sent.printed.sentKey.tokens ++ sentTokens keys := rfl
      have length : (sentTokens (sent :: keys)).length =
          sent.key.values.length + 1 + (sentTokens keys).length := by
        rw [tokens, List.length_append]
        rfl
      obtain ⟨fuel, rfl⟩ : ∃ n, fuel = n + 1 := ⟨fuel - 1, by omega⟩
      have term : parseTerm lib (sentTokens (sent :: keys)).length (sentTokens (sent :: keys)) =
          .ok (.leaf sent.key.leaf, sentTokens keys) := by
        rw [length, show sent.key.values.length + 1 + (sentTokens keys).length =
          (sent.key.values.length + (sentTokens keys).length) + 1 by omega, tokens]
        exact sent.printed.sentKey.parseTerm_tokens _ _
      rw [parseTerms, term]
      · change parseTerms lib fuel (sentTokens keys) (if sent.key.leaf.isIdentity = true then flat else
          flat.merge sent.key.leaf) [] = _
        rw [sent.key.leaf_not_identity]
        exact ih (flat.merge sent.key.leaf) (by omega)
      · rw [tokens]
        intro eq
        cases eq

def mergedKeys (keys : List (RowKey lib)) : SearchKeys :=
  if keys.isEmpty then .all else mergedLeaves keys .nothing

namespace SearchKeys

theorem mergeBound_eq_none {α : Type} {pick : α → α → α} {a b : Option α} :
    mergeBound pick a b = none ↔ a = none ∧ b = none := by
  cases a <;> cases b <;> simp [mergeBound]

theorem mergeQueryString_eq_none {a b : Option String} :
    mergeQueryString a b = none ↔ a = none ∧ b = none := by
  cases a <;> cases b <;> simp [mergeQueryString]

theorem merge_not_identity {flat keys : SearchKeys} (other : keys.isIdentity = false) :
    (flat.merge keys).isIdentity = false := by
  by_contra identity
  rw [Bool.not_eq_false] at identity
  have fields := eq_all_of_isIdentity identity
  have empty : { keys with matchAll := true } = all := by
    simp only [merge, all, mk.injEq, mergeBound_eq_none, mergeQueryString_eq_none,
      Bool.or_eq_false_iff, List.append_eq_nil_iff, Option.or_eq_none_iff] at fields ⊢
    tauto
  rw [isIdentity, empty] at other
  cases other

end SearchKeys

theorem mergedLeaves_not_identity {keys : List (RowKey lib)} (some : keys ≠ []) (flat : SearchKeys) :
    (mergedLeaves keys flat).isIdentity = false := by
  obtain ⟨others, last, rfl⟩ := List.eq_nil_or_concat keys |>.resolve_left some
  unfold mergedLeaves
  rw [List.concat_eq_append, List.foldl_append]
  exact SearchKeys.merge_not_identity last.leaf_not_identity

theorem fromImapArgs_keys (keys : List (SentRowKey lib)) :
    fromImapArgs lib (sentTokens keys) = .ok ⟨mergedKeys (keys.map (·.key)), none⟩ := by
  cases keys with
  | nil => rfl
  | cons sent keys =>
      have other : (mergedLeaves ((sent :: keys).map (·.key)) .nothing).isIdentity = false :=
        mergedLeaves_not_identity (by simp) _
      unfold fromImapArgs
      rw [if_neg (by simp [sentTokens, SentRowKey.tokens])]
      change parseTerms lib _ (sentTokens (sent :: keys)) .nothing [] >>= _ = _
      rw [parseTerms_keys _ _ (le_refl _)]
      change (if ([] : List SearchExpr).isEmpty &&
        (mergedLeaves ((sent :: keys).map (·.key)) .nothing).isIdentity then Except.ok _
        else Except.ok _) = _
      rw [other]
      rfl

/-! ## What several keys ask for together -/

/-- The keys that merging keeps apart: every one has to hold. -/
def SearchKeys.strict (keys : SearchKeys) : SearchKeys :=
  { keys with uidFilter := none, internalDateOn := none, sentDateOn := none }

theorem SearchKeys.mergeBound_all {α : Type} {pick : α → α → α} {p : α → Bool}
    (picks : ∀ a b, p (pick a b) = (p a && p b)) (a b : Option α) :
    (mergeBound pick a b).all p = (a.all p && b.all p) := by
  cases a <;> cases b <;> simp [mergeBound, picks]

theorem matchesSearchLeaf_split (view : MailboxMessageView) (keys : SearchKeys) :
    matchesSearchLeaf lib view keys = (matchesSearchLeaf lib view keys.strict &&
      keys.uidFilter.all (·.contains (viewUid view)) &&
      keys.internalDateOn.all (dayOf (Responses.internalDate view) == ·) &&
      keys.sentDateOn.all (dayOf (sentDate view) == ·)) := by
  unfold matchesSearchLeaf SearchKeys.strict viewUid
  rw [Bool.eq_iff_iff]
  simp only [Bool.and_eq_true, Option.all_none]
  tauto

theorem matchesSearchLeaf_strict_merge (view : MailboxMessageView) (a b : SearchKeys) :
    matchesSearchLeaf lib view (a.merge b).strict =
      (matchesSearchLeaf lib view a.strict && matchesSearchLeaf lib view b.strict) := by
  have both : ∀ p q r : Prop, [Decidable p] → [Decidable q] → [Decidable r] → (p ↔ q ∧ r) →
      decide p = (decide q && decide r) := by
    intro p q r _ _ _ iff
    rw [← Bool.decide_and, decide_eq_decide]
    exact iff
  have larger : ∀ (size : Nat) (a b : Option Nat), (SearchKeys.mergeBound max a b).all (· < size) =
      (a.all (· < size) && b.all (· < size)) := fun size =>
    SearchKeys.mergeBound_all fun n m => both _ _ _ (by omega)
  have smaller : ∀ (size : Nat) (a b : Option Nat), (SearchKeys.mergeBound min a b).all (size < ·) =
      (a.all (size < ·) && b.all (size < ·)) := fun size =>
    SearchKeys.mergeBound_all fun n m => both _ _ _ (by omega)
  have before : ∀ (day : Int) (a b : Option Int), (SearchKeys.mergeBound min a b).all (day < ·) =
      (a.all (day < ·) && b.all (day < ·)) := fun day =>
    SearchKeys.mergeBound_all fun n m => both _ _ _ (by omega)
  have since : ∀ (day : Int) (a b : Option Int), (SearchKeys.mergeBound max a b).all (· ≤ day) =
      (a.all (· ≤ day) && b.all (· ≤ day)) := fun day =>
    SearchKeys.mergeBound_all fun n m => both _ _ _ (by omega)
  simp only [matchesSearchLeaf, SearchKeys.strict, SearchKeys.merge, matchesHeaderFilters, larger,
    smaller, before, since, List.all_append, List.any_append, Bool.not_or, Option.all_none,
    Bool.true_and]
  ac_rfl

namespace RowKey

def isOn : RowKey lib → Bool
  | internalDate .on .. => true
  | _ => false

def isSentOn : RowKey lib → Bool
  | sentDate .on .. => true
  | _ => false

/-- The keys of which several do not all have to hold once they are merged. -/
def isLoose (key : RowKey lib) : Bool := key.isUid || key.isOn || key.isSentOn

theorem matchesSearchLeaf_strict_leaf (view : MailboxMessageView) (key : RowKey lib) :
    matchesSearchLeaf lib view key.leaf.strict = (key.isLoose || key.holds view) := by
  cases loose : key.isLoose with
  | true =>
      have nothing : key.leaf.strict = .nothing := by
        cases key with
        | uid text set reads => rfl
        | internalDate relation text day reads => cases relation <;> first | rfl | cases loose
        | sentDate relation text day reads => cases relation <;> first | rfl | cases loose
        | _ => cases loose
      rw [nothing]
      rfl
  | false =>
      have same : key.leaf.strict = key.leaf := by
        cases key with
        | uid text set reads => cases loose
        | flag system wanted => cases wanted <;> rfl
        | keyword word wanted => cases wanted <;> rfl
        | larger text size reads => rfl
        | smaller text size reads => rfl
        | internalDate relation text day reads => cases relation <;> first | rfl | cases loose
        | sentDate relation text day reads => cases relation <;> first | rfl | cases loose
      rw [same, key.matchesSearchLeaf_leaf]
      rfl

theorem uidFilter_leaf (key : RowKey lib) :
    (key.isUid = false ∧ key.leaf.uidFilter = none) ∨ (key.isUid = true ∧ ∃ set,
      key.leaf.uidFilter = some set ∧ ∀ view, set.contains (viewUid view) = key.holds view) := by
  cases key with
  | uid text set reads => exact .inr ⟨rfl, set, rfl, fun _ => rfl⟩
  | flag system wanted => cases wanted <;> exact .inl ⟨rfl, rfl⟩
  | keyword word wanted => cases wanted <;> exact .inl ⟨rfl, rfl⟩
  | larger text size reads => exact .inl ⟨rfl, rfl⟩
  | smaller text size reads => exact .inl ⟨rfl, rfl⟩
  | internalDate relation text day reads => cases relation <;> exact .inl ⟨rfl, rfl⟩
  | sentDate relation text day reads => cases relation <;> exact .inl ⟨rfl, rfl⟩

theorem internalDateOn_leaf (view : MailboxMessageView) (key : RowKey lib) :
    (key.isOn = false ∧ key.leaf.internalDateOn = none) ∨ (key.isOn = true ∧ ∃ day,
      key.leaf.internalDateOn = some day ∧
        (dayOf (Responses.internalDate view) == day) = key.holds view) := by
  cases key with
  | uid text set reads => exact .inl ⟨rfl, rfl⟩
  | flag system wanted => cases wanted <;> exact .inl ⟨rfl, rfl⟩
  | keyword word wanted => cases wanted <;> exact .inl ⟨rfl, rfl⟩
  | larger text size reads => exact .inl ⟨rfl, rfl⟩
  | smaller text size reads => exact .inl ⟨rfl, rfl⟩
  | internalDate relation text day reads =>
      cases relation with
      | on => exact .inr ⟨rfl, day, rfl, rfl⟩
      | _ => exact .inl ⟨rfl, rfl⟩
  | sentDate relation text day reads => cases relation <;> exact .inl ⟨rfl, rfl⟩

theorem sentDateOn_leaf (view : MailboxMessageView) (key : RowKey lib) :
    (key.isSentOn = false ∧ key.leaf.sentDateOn = none) ∨ (key.isSentOn = true ∧ ∃ day,
      key.leaf.sentDateOn = some day ∧ (dayOf (Search.sentDate view) == day) = key.holds view) := by
  cases key with
  | uid text set reads => exact .inl ⟨rfl, rfl⟩
  | flag system wanted => cases wanted <;> exact .inl ⟨rfl, rfl⟩
  | keyword word wanted => cases wanted <;> exact .inl ⟨rfl, rfl⟩
  | larger text size reads => exact .inl ⟨rfl, rfl⟩
  | smaller text size reads => exact .inl ⟨rfl, rfl⟩
  | internalDate relation text day reads => cases relation <;> exact .inl ⟨rfl, rfl⟩
  | sentDate relation text day reads =>
      cases relation with
      | on => exact .inr ⟨rfl, day, rfl, rfl⟩
      | _ => exact .inl ⟨rfl, rfl⟩

end RowKey

/-- What merged keys ask for: of several UID sets that the UID is in one of them, of several days only
the first, and of every other key that it holds. -/
def LooselyHolds (keys : List (RowKey lib)) (view : MailboxMessageView) : Prop :=
  (∀ key ∈ keys, key.isLoose = false → key.holds view = true) ∧
    ((∃ key ∈ keys, key.isUid = true) → ∃ key ∈ keys, key.isUid = true ∧ key.holds view = true) ∧
    (∀ key, keys.find? RowKey.isOn = some key → key.holds view = true) ∧
    ∀ key, keys.find? RowKey.isSentOn = some key → key.holds view = true

theorem mergedLeaves_strict (view : MailboxMessageView) (keys : List (RowKey lib)) (flat : SearchKeys) :
    matchesSearchLeaf lib view (mergedLeaves keys flat).strict =
      (matchesSearchLeaf lib view flat.strict && keys.all fun key => key.isLoose || key.holds view) := by
  induction keys generalizing flat with
  | nil => simp [mergedLeaves]
  | cons key keys ih =>
      change matchesSearchLeaf lib view (mergedLeaves keys (flat.merge key.leaf)).strict = _
      rw [ih, matchesSearchLeaf_strict_merge, key.matchesSearchLeaf_strict_leaf, List.all_cons,
        Bool.and_assoc]

theorem mergedLeaves_uidFilter_isSome (keys : List (RowKey lib)) (flat : SearchKeys) :
    (mergedLeaves keys flat).uidFilter.isSome = true ↔
      flat.uidFilter.isSome = true ∨ ∃ key ∈ keys, key.isUid = true := by
  induction keys generalizing flat with
  | nil => simp [mergedLeaves]
  | cons key keys ih =>
      have first : (flat.merge key.leaf).uidFilter.isSome = true ↔
          flat.uidFilter.isSome = true ∨ key.isUid = true := by
        change (SearchKeys.mergeBound UidSet.union flat.uidFilter key.leaf.uidFilter).isSome = true ↔ _
        rcases key.uidFilter_leaf with ⟨other, none⟩ | ⟨isUid, set, some, -⟩
        · rw [none, other]
          cases flat.uidFilter <;> simp [SearchKeys.mergeBound]
        · rw [some, isUid]
          cases flat.uidFilter <;> simp [SearchKeys.mergeBound]
      change (mergedLeaves keys (flat.merge key.leaf)).uidFilter.isSome = true ↔ _
      rw [ih, first]
      simp only [List.mem_cons, exists_eq_or_imp, or_assoc]

theorem mergedLeaves_uidFilter_any (view : MailboxMessageView) (keys : List (RowKey lib))
    (flat : SearchKeys) :
    (mergedLeaves keys flat).uidFilter.any (·.contains (viewUid view)) = true ↔
      flat.uidFilter.any (·.contains (viewUid view)) = true ∨
        ∃ key ∈ keys, key.isUid = true ∧ key.holds view = true := by
  induction keys generalizing flat with
  | nil => simp [mergedLeaves]
  | cons key keys ih =>
      have first : (flat.merge key.leaf).uidFilter.any (·.contains (viewUid view)) = true ↔
          flat.uidFilter.any (·.contains (viewUid view)) = true ∨
            key.isUid = true ∧ key.holds view = true := by
        change (SearchKeys.mergeBound UidSet.union flat.uidFilter key.leaf.uidFilter).any _ = true ↔ _
        rcases key.uidFilter_leaf with ⟨other, none⟩ | ⟨isUid, set, some, holds⟩
        · rw [none, other]
          cases flat.uidFilter <;> simp [SearchKeys.mergeBound]
        · rw [some, isUid, ← holds]
          cases flat.uidFilter <;> simp [SearchKeys.mergeBound, UidSet.union, UidSet.contains]
      change (mergedLeaves keys (flat.merge key.leaf)).uidFilter.any _ = true ↔ _
      rw [ih, first]
      simp only [List.mem_cons, exists_eq_or_imp, or_assoc]

theorem mergedLeaves_first {field : SearchKeys → Option Int} {isDay : RowKey lib → Bool}
    {date : Int} {view : MailboxMessageView}
    (keeps : ∀ a b : SearchKeys, field (a.merge b) = (field a).or (field b))
    (leaf : ∀ key : RowKey lib, (isDay key = false ∧ field key.leaf = none) ∨ (isDay key = true ∧
      ∃ day, field key.leaf = some day ∧ (date == day) = key.holds view))
    (keys : List (RowKey lib)) (flat : SearchKeys) :
    (field (mergedLeaves keys flat)).all (date == ·) = true ↔
      (field flat).all (date == ·) = true ∧ (field flat = none →
        ∀ key, keys.find? isDay = some key → key.holds view = true) := by
  induction keys generalizing flat with
  | nil => simp [mergedLeaves]
  | cons key keys ih =>
      change (field (mergedLeaves keys (flat.merge key.leaf))).all _ = true ↔ _
      rw [ih, keeps, List.find?_cons]
      rcases leaf key with ⟨other, none⟩ | ⟨isDay, day, some, holds⟩
      · rw [none, other, Option.or_none]
      · rw [some, isDay]
        cases given : field flat with
        | none => simp [holds]
        | some first => simp

theorem mergedKeys_meets (keys : List (RowKey lib)) (view : MailboxMessageView) :
    matchesSearchLeaf lib view (mergedKeys keys) = true ↔ LooselyHolds keys view := by
  unfold mergedKeys
  split
  · rename_i empty
    obtain rfl := List.isEmpty_iff.mp empty
    refine iff_of_true rfl ⟨?_, ?_, ?_, ?_⟩ <;> simp
  · have isSome := mergedLeaves_uidFilter_isSome keys .nothing
    have contains := mergedLeaves_uidFilter_any view keys .nothing
    have on := mergedLeaves_first (fun _ _ => rfl) (RowKey.internalDateOn_leaf view) keys .nothing
    have sentOn := mergedLeaves_first (fun _ _ => rfl) (RowKey.sentDateOn_leaf view) keys .nothing
    have uid : (mergedLeaves keys .nothing).uidFilter.all (·.contains (viewUid view)) = true ↔
        ((∃ key ∈ keys, key.isUid = true) → ∃ key ∈ keys, key.isUid = true ∧ key.holds view = true) := by
      have every : ∀ filter : Option UidSet, filter.all (·.contains (viewUid view)) = true ↔
          (filter.isSome = true → filter.any (·.contains (viewUid view)) = true) := by
        intro filter
        cases filter <;> simp
      have none : SearchKeys.nothing.uidFilter = none := rfl
      rw [every, isSome, contains, none]
      simp
    have strict : (keys.all fun key => key.isLoose || key.holds view) = true ↔
        ∀ key ∈ keys, key.isLoose = false → key.holds view = true := by
      simp only [List.all_eq_true, Bool.or_eq_true, ← Bool.not_eq_true, or_iff_not_imp_left]
    rw [matchesSearchLeaf_split, mergedLeaves_strict]
    simp only [Bool.and_eq_true, uid, on, sentOn, strict]
    unfold LooselyHolds
    exact ⟨fun holds => ⟨holds.1.1.1.2, holds.1.1.2, holds.1.2.2 rfl, holds.2.2 rfl⟩, fun holds =>
      ⟨⟨⟨⟨rfl, holds.1⟩, holds.2.1⟩, rfl, fun _ => holds.2.2.1⟩, rfl, fun _ => holds.2.2.2⟩⟩

theorem looselyHolds_of_all {keys : List (RowKey lib)} {view : MailboxMessageView}
    (all : ∀ key ∈ keys, key.holds view = true) : LooselyHolds keys view := by
  refine ⟨fun key member _ => all key member, ?_, ?_, ?_⟩
  · rintro ⟨key, member, isUid⟩
    exact ⟨key, member, isUid, all key member⟩
  · exact fun key first => all key (List.mem_of_find?_eq_some first)
  · exact fun key first => all key (List.mem_of_find?_eq_some first)

/-! ## What the index knows -/

def documentsOf (world : World) (mailboxName : String) : List SearchDocument :=
  (world.index.filter fun entry => entry.mailboxName == mailboxName).map (·.document)

/-- The UIDs that the index knows at most: those of its first documents. -/
def knownUids (lib : Libraries) (world : World) (mailboxName : String) : List Nat :=
  (topDocs lib (documentsOf world mailboxName) none fun _ => true).map (·.uid)

/-- Keys that ask for no text and for nothing that is recent. -/
def SearchKeys.RowsOnly (keys : SearchKeys) : Prop :=
  keys.queryString = none ∧ keys.recentOnly = false ∧ keys.oldOnly = false

theorem RowKey.rowsOnly_leaf (key : RowKey lib) : key.leaf.RowsOnly := by
  cases key with
  | flag system wanted => cases wanted <;> exact ⟨rfl, rfl, rfl⟩
  | keyword word wanted => cases wanted <;> exact ⟨rfl, rfl, rfl⟩
  | internalDate relation text day reads => cases relation <;> exact ⟨rfl, rfl, rfl⟩
  | sentDate relation text day reads => cases relation <;> exact ⟨rfl, rfl, rfl⟩
  | _ => exact ⟨rfl, rfl, rfl⟩

theorem mergedLeaves_rowsOnly (keys : List (RowKey lib)) {flat : SearchKeys} (rows : flat.RowsOnly) :
    (mergedLeaves keys flat).RowsOnly := by
  induction keys generalizing flat with
  | nil => exact rows
  | cons key keys ih =>
      obtain ⟨noText, notRecent, notOld⟩ := rows
      obtain ⟨leafText, leafRecent, leafOld⟩ := key.rowsOnly_leaf
      refine ih ⟨?_, ?_, ?_⟩
      · exact SearchKeys.mergeQueryString_eq_none.mpr ⟨noText, leafText⟩
      · exact Bool.or_eq_false_iff.mpr ⟨notRecent, leafRecent⟩
      · exact Bool.or_eq_false_iff.mpr ⟨notOld, leafOld⟩

theorem mergedKeys_rowsOnly (keys : List (RowKey lib)) : (mergedKeys keys).RowsOnly := by
  unfold mergedKeys
  split
  · exact ⟨rfl, rfl, rfl⟩
  · exact mergedLeaves_rowsOnly keys ⟨rfl, rfl, rfl⟩

theorem mergedKeys_asks (keys : List (RowKey lib)) (search : Bool) :
    asksIndex search ⟨mergedKeys keys, none⟩ = true ↔
      search = true ∧ ∃ key ∈ keys, key.isUid = true := by
  have isSome : (mergedKeys keys).uidFilter.isSome = true ↔ ∃ key ∈ keys, key.isUid = true := by
    unfold mergedKeys
    split
    · rename_i empty
      obtain rfl := List.isEmpty_iff.mp empty
      simp [SearchKeys.all]
    · rw [mergedLeaves_uidFilter_isSome]
      simp [SearchKeys.nothing, SearchKeys.all]
  rw [← isSome]
  simp [asksIndex, (mergedKeys_rowsOnly keys).1]

theorem searchIndex_uids {world : World} {mailboxName : String} {keys : SearchKeys}
    (noText : keys.queryString = none) :
    ∃ uids, world.searchIndex lib mailboxName ⟨keys, none⟩ = .ok uids ∧ ∀ uid, uid ∈ uids ↔
      uid ∈ knownUids lib world mailboxName ∧ keys.uidFilter.all (·.contains uid) = true := by
  have answer : world.searchIndex lib mailboxName ⟨keys, none⟩ =
      .ok (((collectQueryUids lib (documentsOf world mailboxName) keys.uidFilter none
        fun _ => true).insertionSort (· ≤ ·)).destutter (· ≠ ·)) := by
    unfold World.searchIndex searchDocuments searchFlat
    simp only [noText]
    rfl
  refine ⟨_, answer, fun uid => ?_⟩
  rw [Sorting.mem_sorted, collectQueryUids, List.mem_insertionSort, List.mem_map]
  unfold knownUids
  simp only [List.mem_filter, List.mem_map]
  constructor
  · rintro ⟨document, ⟨member, inFilter⟩, rfl⟩
    exact ⟨⟨document, member, rfl⟩, inFilter⟩
  · rintro ⟨⟨document, member, rfl⟩, inFilter⟩
    exact ⟨document, ⟨member, inFilter⟩, rfl⟩

/-! ## The search -/

/-- If the index is asked for UIDs, it has to know a message for it to be found. -/
def Reached (searcher : Searcher) (world : World) (keys : List (RowKey searcher.lib))
    (view : MailboxMessageView) : Prop :=
  searcher.search = true → (∃ key ∈ keys, key.isUid = true) →
    viewUid view ∈ knownUids searcher.lib world searcher.mailboxName

namespace SearchedMailbox
variable {searcher : Searcher} {world : World} (searched : SearchedMailbox searcher world)

theorem mergedKeys_results (keys : List (RowKey searcher.lib)) :
    ∃ results, (executeSearch searcher ⟨mergedKeys keys, none⟩ true).eval (cacheHandler searcher.lib)
        world = (.ok results, world) ∧ ∀ uid, uid ∈ results ↔ ∃ view ∈ searched.views,
      viewUid view = uid ∧ Reached searcher world keys view ∧ LooselyHolds keys view := by
  obtain ⟨noText, notRecent, notOld⟩ := mergedKeys_rowsOnly keys
  have finds : ∀ view, searched.Finds ⟨mergedKeys keys, none⟩ view ↔ LooselyHolds keys view := by
    intro view
    have passes : searched.Passes (mergedKeys keys) view := by
      refine ⟨by simp [notRecent], by simp [notOld], fun _ => ?_⟩
      rw [noText]
      rfl
    unfold Finds matchesSearchView
    rw [← mergedKeys_meets]
    simp [passes]
  have asks := mergedKeys_asks keys searcher.search
  by_cases index : asksIndex searcher.search ⟨mergedKeys keys, none⟩ = true
  · obtain ⟨uids, answer, known⟩ : ∃ uids, world.searchIndex searcher.lib searcher.mailboxName
        ⟨mergedKeys keys, none⟩ = .ok uids ∧ ∀ uid, uid ∈ uids ↔
          uid ∈ knownUids searcher.lib world searcher.mailboxName ∧
            (mergedKeys keys).uidFilter.all (·.contains uid) = true := searchIndex_uids noText
    have candidates : searched.candidates ⟨mergedKeys keys, none⟩ = .ok uids := by
      rw [SearchedMailbox.candidates, if_pos index, answer]
    obtain ⟨results, ok⟩ := searched.executeSearch_total candidates (.inr noText)
    obtain ⟨uids', same, members⟩ := searched.executeSearch_ok ok
    obtain rfl : uids = uids' := Except.ok.inj (candidates.symm.trans same)
    refine ⟨results, ok, fun uid => ?_⟩
    simp only [members, finds, known]
    constructor
    · rintro ⟨⟨isKnown, -⟩, view, member, rfl, loosely⟩
      exact ⟨view, member, rfl, fun _ _ => isKnown, loosely⟩
    · rintro ⟨view, member, rfl, reached, loosely⟩
      have meets := (mergedKeys_meets keys view).mpr loosely
      rw [matchesSearchLeaf_split] at meets
      simp only [Bool.and_eq_true] at meets
      obtain ⟨search, uidKey⟩ := asks.mp index
      exact ⟨⟨reached search uidKey, meets.1.1.2⟩, view, member, rfl, loosely⟩
  · have candidates : searched.candidates ⟨mergedKeys keys, none⟩ = .ok (viewUids searched.views) := by
      rw [SearchedMailbox.candidates, if_neg index]
    obtain ⟨results, ok⟩ := searched.executeSearch_total candidates (.inr noText)
    obtain ⟨uids, same, members⟩ := searched.executeSearch_ok ok
    obtain rfl : viewUids searched.views = uids := Except.ok.inj (candidates.symm.trans same)
    refine ⟨results, ok, fun uid => ?_⟩
    simp only [members, finds]
    constructor
    · rintro ⟨-, view, member, rfl, loosely⟩
      exact ⟨view, member, rfl, fun search uidKey => absurd (asks.mpr ⟨search, uidKey⟩) index, loosely⟩
    · rintro ⟨view, member, rfl, -, loosely⟩
      exact ⟨searched.mem_viewUids_iff.mpr ⟨view, member, rfl⟩, view, member, rfl, loosely⟩

/-- A search for keys about rows finds the messages that satisfy them all exactly if the index, where
it is asked, knows these, and if every other message that the merged keys let through satisfies them
too. -/
theorem row_search_finds_iff (keys : List (SentRowKey searcher.lib)) :
    ∃ results, (uidSearch searcher (sentTokens keys)).eval (cacheHandler searcher.lib) world =
        (.ok results, world) ∧
      ((∀ uid, uid ∈ results ↔ ∃ view ∈ searched.views, viewUid view = uid ∧
          ∀ sent ∈ keys, sent.key.holds view = true) ↔
        ∀ view ∈ searched.views,
          ((∀ sent ∈ keys, sent.key.holds view = true) →
            Reached searcher world (keys.map (·.key)) view) ∧
          (Reached searcher world (keys.map (·.key)) view → LooselyHolds (keys.map (·.key)) view →
            ∀ sent ∈ keys, sent.key.holds view = true)) := by
  obtain ⟨results, ok, members⟩ := searched.mergedKeys_results (keys.map (·.key))
  refine ⟨results, ?_, ?_⟩
  · unfold uidSearch
    rw [fromImapArgs_keys]
    exact ok
  · have inViews : ∀ uid, uid ∈ results → ∃ view ∈ searched.views, viewUid view = uid := by
      intro uid found
      obtain ⟨view, member, isUid, -⟩ := (members uid).mp found
      exact ⟨view, member, isUid⟩
    rw [searched.forall_uid_iff inViews fun uid found => ?_]
    · refine forall_congr' fun view => forall_congr' fun member => ?_
      rw [members, searched.exists_view_iff member, searched.exists_view_iff member]
      have loosely : (∀ sent ∈ keys, sent.key.holds view = true) →
          LooselyHolds (keys.map (·.key)) view := by
        intro all
        refine looselyHolds_of_all fun key inKeys => ?_
        obtain ⟨sent, inSent, rfl⟩ := List.mem_map.mp inKeys
        exact all sent inSent
      constructor
      · exact fun same => ⟨fun all => (same.mpr all).1, fun reached loose => same.mp ⟨reached, loose⟩⟩
      · rintro ⟨complete, sound⟩
        exact ⟨fun found => sound found.1 found.2, fun all => ⟨complete all, loosely all⟩⟩
    · obtain ⟨view, member, isUid, -⟩ := found
      exact ⟨view, member, isUid⟩

end SearchedMailbox

/-! ## A message that COPY has made -/

/-- An INBOX with one message, which is in the index, and an empty Archive. -/
def copySource : World :=
  { Sample.world (Sample.db [Sample.mailbox "INBOX" (some 7), Sample.mailbox "Archive" (some 7)]
      [Sample.row 1 1 (some 1) []]) (Sample.emptyServer (some 7)) with
    index := [⟨"INBOX", .fromParsedMessage 1 (Sample.parsedText Sample.hiMessage "hi")⟩] }

def copied : World :=
  ((Repository.copyMailboxMessage 1 2 1).eval (cacheHandler Sample.libraries) copySource).2

def archiveSearcher : Searcher := ⟨Sample.libraries, true, true, some 1, "Archive", 0⟩

def searchedArchive : SearchedMailbox archiveSearcher copied where
  accountId := 1
  mailbox := ⟨2, { Sample.mailbox "Archive" (some 7) with highestmodseq := some 1 }⟩
  repository := rfl
  account := rfl
  found := by decide +kernel
  fits := by decide +kernel

def uidOne : SentRowKey Sample.libraries := ⟨.uid "1" ⟨[(1, 1)]⟩ (by decide +kernel), "UID", by decide⟩

/-- The copy has UID 1, and a search for UID 1 does not find it. -/
theorem copied_message_not_found :
    searchedArchive.views.map viewUid = [1] ∧ (searchedArchive.views.all uidOne.key.holds) = true ∧
      ((uidSearch archiveSearcher (sentTokens [uidOne])).eval (cacheHandler Sample.libraries)
        copied).1.toOption = some [] := by
  decide +kernel

end ImapCache.Search
