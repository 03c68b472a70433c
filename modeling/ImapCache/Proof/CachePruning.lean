import ImapCache.Proof.AccountPurge
import ImapCache.Proof.ExpungeReplay

/-!
# What clearing the cache deletes

The prune goes by the reference counts of the cache objects only. It deletes a blob exactly when it
selects as many rows with its key as the first of them has references and no other account uses it,
whether or not the blob can be fetched again.
-/

namespace ImapCache
open Lib

/-- The references of the first row of an account with the key. -/
def Db.firstReferences (db : Db) (accountId : Int) (key : String) : Option Int :=
  (db.cacheObjects.rows.find? fun row => row.data.holds accountId key).map (·.data.refCount)

section
variable {db db' : Db} {now : Time} {accountId : Int} {blobKey : String} {givenUp : Bool}

theorem CacheObject.holds_ne {object : CacheObject} {key : String} (ne : key ≠ blobKey)
    (holds : object.holds accountId blobKey = true) : object.holds accountId key = false := by
  rw [Bool.eq_false_iff]
  intro other
  exact ne ((CacheObject.holds_iff.mp other).2.symm.trans (CacheObject.holds_iff.mp holds).2)

theorem Releases.firstReferences_ne (releases : Releases db now accountId blobKey givenUp db') {key : String}
    (ne : key ≠ blobKey) : db'.firstReferences accountId key = db.firstReferences accountId key := by
  cases releases with
  | absent none => rfl
  | @counted before row after cacheObjects split first holds many rows =>
      have other := CacheObject.holds_ne ne holds
      have released : (row.data.release now).holds accountId key = false := other
      simp [Db.firstReferences, split, rows, List.find?_append, other, released]
  | @removed before row after cacheObjects split first holds last rows =>
      have other := CacheObject.holds_ne ne holds
      simp [Db.firstReferences, split, rows, List.find?_append, other]

theorem find?_split {α : Type} {p : α → Bool} {before after : List α} {item : α}
    (earlier : ∀ other ∈ before, p other = false) (holds : p item = true) :
    (before ++ item :: after).find? p = some item := by
  refine List.find?_eq_some_iff_append.mpr ⟨holds, before, after, rfl, fun other member => ?_⟩
  simp [earlier other member]

theorem Releases.firstReferences_none (releases : Releases db now accountId blobKey givenUp db')
    (uncached : db.firstReferences accountId blobKey = none) : givenUp = false ∧ db' = db := by
  cases releases with
  | absent none => exact ⟨rfl, rfl⟩
  | counted split first holds many rows =>
      simp [Db.firstReferences, split, find?_split first holds] at uncached
  | removed split first holds last rows =>
      simp [Db.firstReferences, split, find?_split first holds] at uncached

theorem Releases.firstReferences_some (releases : Releases db now accountId blobKey givenUp db')
    {references : Int} (cached : db.firstReferences accountId blobKey = some references) :
    (1 < references ∧ givenUp = false ∧ db'.firstReferences accountId blobKey = some (references - 1)) ∨
      (references ≤ 1 ∧ givenUp = (db.countBlobKeyReferencesElsewhere blobKey accountId == 0)) := by
  cases releases with
  | absent none =>
      have missing : db.cacheObjects.rows.find? (fun row => row.data.holds accountId blobKey) = .none :=
        Table.find_none.mpr none
      simp [Db.firstReferences, missing] at cached
  | @counted before row after cacheObjects split first holds many rows =>
      have released : (before ++ ⟨row.id, row.data.release now⟩ :: after).find?
          (fun row => row.data.holds accountId blobKey) = some ⟨row.id, row.data.release now⟩ :=
        find?_split first holds
      simp only [Db.firstReferences, split, find?_split first holds, Option.map_some, Option.some.injEq] at cached
      subst cached
      refine .inl ⟨many, rfl, ?_⟩
      simp only [Db.firstReferences, rows, released]
      rfl
  | removed split first holds last rows =>
      simp only [Db.firstReferences, split, find?_split first holds, Option.map_some, Option.some.injEq] at cached
      subst cached
      exact .inr ⟨last, rfl⟩

end

namespace Admin
open Prog

def pruned (createdAt : Int → Time) (db : Db) (accountId : Int) (keepLatestObjects : Nat) :
    List (Row CacheObject) :=
  if keepLatestObjects = 0 then listCacheObjectsForAccount db accountId
  else
    let cacheObjects := listCacheObjectsForAccountByRecency createdAt db accountId
    cacheObjects.take (cacheObjects.length - keepLatestObjects)

/-- What a prune has done when it is through with the rows of the given keys. -/
structure Pruning (start : World) (accountId : Int) (done : List String) (world : World) : Prop where
  db : world.db = { start.db with cacheObjects := world.db.cacheObjects }
  uncached : ∀ key, start.db.firstReferences accountId key = none →
    world.db.firstReferences accountId key = none ∧ world.blob key = start.blob key
  counting : ∀ key references, start.db.firstReferences accountId key = some references →
    (done.count key : Int) < max references 1 →
    world.db.firstReferences accountId key = some (references - done.count key) ∧
      world.blob key = start.blob key
  through : ∀ key references, start.db.firstReferences accountId key = some references →
    max references 1 ≤ (done.count key : Int) →
    world.blob key =
      if start.db.countBlobKeyReferencesElsewhere key accountId = 0 then none else start.blob key

section
variable {createdAt : Int → Time} {start world : World} {accountId : Int} {done : List String}

theorem Pruning.elsewhere (pruning : Pruning start accountId done world) (key : String) :
    world.db.countBlobKeyReferencesElsewhere key accountId =
      start.db.countBlobKeyReferencesElsewhere key accountId := by
  rw [pruning.db]
  rfl

theorem Pruning.initially (start : World) (accountId : Int) : Pruning start accountId [] start where
  db := rfl
  uncached _ none := ⟨none, rfl⟩
  counting key references cached _ := by simpa using cached
  through key references _ le := by
    simp only [List.count_nil, Nat.cast_zero] at le
    omega

theorem Pruning.release (pruning : Pruning start accountId done world) {blobKey : String} {givenUp : Bool}
    {db : Db} (releases : Releases world.db world.now accountId blobKey givenUp db) :
    Pruning start accountId (done ++ [blobKey]) (released world blobKey givenUp db) := by
  have same := released_db world blobKey givenUp db
  have blob := released_blob world blobKey givenUp db
  have count (key : String) : (done ++ [blobKey]).count key = done.count key + if key = blobKey then 1 else 0 := by
    by_cases here : key = blobKey
    · simp [here]
    · simp [here, Ne.symm here]
  refine ⟨?_, fun key none => ?_, fun key references cached below => ?_, fun key references cached reached => ?_⟩
  · rw [same, releases.others, pruning.db]
  · obtain ⟨uncached, kept⟩ := pruning.uncached key none
    by_cases here : key = blobKey
    · subst here
      obtain ⟨refused, rfl⟩ := releases.firstReferences_none uncached
      rw [same, blob, refused]
      exact ⟨uncached, by simpa using kept⟩
    · rw [same, blob, releases.firstReferences_ne here]
      exact ⟨uncached, by simpa [here] using kept⟩
  · rw [same, blob]
    by_cases here : key = blobKey
    · subst here
      rw [count, if_pos rfl] at below ⊢
      obtain ⟨counted, kept⟩ := pruning.counting key references cached (by push_cast at below; omega)
      rcases releases.firstReferences_some counted with ⟨many, refused, less⟩ | ⟨last, -⟩
      · rw [refused, less]
        refine ⟨congrArg some ?_, by simpa using kept⟩
        push_cast
        omega
      · push_cast at below
        omega
    · rw [count, if_neg here] at below ⊢
      obtain ⟨counted, kept⟩ := pruning.counting key references cached below
      rw [releases.firstReferences_ne here]
      exact ⟨counted, by simpa [here] using kept⟩
  · rw [blob]
    by_cases here : key = blobKey
    · subst here
      rw [count, if_pos rfl] at reached
      by_cases before : max references 1 ≤ (done.count key : Int)
      · rw [pruning.through key references cached before]
        split
        · rename_i given
          have unused := (releases.gives given.1).2
          rw [pruning.elsewhere] at unused
          rw [if_pos unused]
        · rfl
      · -- the last reference of the first row
        obtain ⟨counted, kept⟩ := pruning.counting key references cached (not_le.mp before)
        rcases releases.firstReferences_some counted with ⟨many, -, -⟩ | ⟨-, answer⟩
        · push_cast at reached
          omega
        · rw [pruning.elsewhere] at answer
          rw [answer, kept]
          simp
    · rw [count, if_neg here] at reached
      rw [if_neg fun both => here both.2]
      exact pruning.through key references cached reached

theorem prune_ensures (start : World) (accountId : Int) (keepLatestObjects : Nat) :
    (pruneCacheObjectsForAccount accountId keepLatestObjects).Ensures (adminHandler createdAt) (noFault Error)
      (fun _ => Pruning start accountId
        ((pruned createdAt start.db accountId keepLatestObjects).map (·.data.blobKey)))
      (fun _ _ => False) start := by
  have loop (rows : List (Row CacheObject)) :
      (deleteSelected accountId rows).Ensures (adminHandler createdAt) (noFault Error)
      (fun _ => Pruning start accountId (rows.map (·.data.blobKey))) (fun _ _ => False) start := by
    refine ensures_foldlM (fun (done : List (Row CacheObject)) _ _ =>
      Pruning start accountId (done.map (·.data.blobKey)))
      (.initially start accountId) ?_
    intro done object rest deleted world _ pruning
    rw [bind_eq, ensures_bind]
    refine deleteCacheObject_ensures fun givenUp db releases => ?_
    rw [List.map_append]
    exact pruning.release releases
  unfold pruneCacheObjectsForAccount
  by_cases all : keepLatestObjects = 0
  · have listing : perform createdAt start (.listCacheObjectsForAccount accountId) =
        (.ok (listCacheObjectsForAccount start.db accountId), start) := rfl
    simp only [all, if_true, pruned, bind_eq]
    rw [ensures_bind]
    exact ensures_request listing (loop _)
  · have listing : perform createdAt start (.listCacheObjectsForAccountByRecency accountId) =
        (.ok (listCacheObjectsForAccountByRecency createdAt start.db accountId), start) := rfl
    simp only [all, if_false, pruned, bind_eq]
    rw [ensures_bind]
    exact ensures_request listing (loop _)

/-- The prune selects as many rows with the key as the first one has references, and no other account
uses the blob. -/
def LosesLast (createdAt : Int → Time) (db : Db) (accountId : Int) (keepLatestObjects : Nat)
    (key : String) : Prop :=
  (∀ other, other ≠ accountId → ¬ UsedBy db other key) ∧
    ∃ references, db.firstReferences accountId key = some references ∧
      max references 1 ≤
        (((pruned createdAt db accountId keepLatestObjects).map (·.data.blobKey)).count key : Int)

theorem prune_blob (createdAt : Int → Time) (world : World) (accountId : Int) (keepLatestObjects : Nat)
    (key : String) :
    (LosesLast createdAt world.db accountId keepLatestObjects key →
      ((pruneCacheObjectsForAccount accountId keepLatestObjects).eval (adminHandler createdAt) world).2.blob key =
        none) ∧
    (¬ LosesLast createdAt world.db accountId keepLatestObjects key →
      ((pruneCacheObjectsForAccount accountId keepLatestObjects).eval (adminHandler createdAt) world).2.blob key =
        world.blob key) := by
  obtain ⟨success, failure⟩ := (prune_ensures world accountId keepLatestObjects).eval
  have pruning : Pruning world accountId
      ((pruned createdAt world.db accountId keepLatestObjects).map (·.data.blobKey))
      ((pruneCacheObjectsForAccount accountId keepLatestObjects).eval (adminHandler createdAt) world).2 := by
    cases outcome : ((pruneCacheObjectsForAccount accountId keepLatestObjects).eval
        (adminHandler createdAt) world).1 with
    | ok value => exact success value outcome
    | error err => exact (failure err outcome).elim
  constructor
  · rintro ⟨unused, references, cached, reached⟩
    rw [pruning.through key references cached reached,
      if_pos (countBlobKeyReferencesElsewhere_eq_zero.mpr unused)]
  · intro keeps
    cases cached : world.db.firstReferences accountId key with
    | none => exact (pruning.uncached key cached).2
    | some references =>
        by_cases reached : max references 1 ≤
            (((pruned createdAt world.db accountId keepLatestObjects).map (·.data.blobKey)).count key : Int)
        · rw [pruning.through key references cached reached, if_neg fun unused =>
            keeps ⟨countBlobKeyReferencesElsewhere_eq_zero.mp unused, references, cached, reached⟩]
        · exact (pruning.counting key references cached (not_le.mp reached)).2

end

/-! ## Blobs that cannot be fetched again -/

/-- A current message without an upstream UID uses the blob as its raw text. -/
def UsedLocally (db : Db) (key : String) : Prop :=
  ∃ row ∈ db.mailboxMessages.rows, row.data.isExpunged = false ∧ row.data.upstreamUid = none ∧
    (db.message row.data.messageId).map (·.data.rfc822BlobKey) = some key

/-- An append that has not succeeded yet reads the blob. -/
def AwaitedByAppend (db : Db) (key : String) : Prop :=
  ∃ mutation ∈ db.pendingMutations.rows, mutation.data.mutationType = .append ∧
    mutation.data.status ≠ .succeeded ∧ (mutation.data.payloadJson.get "blob_key").bind Json.asStr = some key

def Irreplaceable (db : Db) (key : String) : Prop := UsedLocally db key ∨ AwaitedByAppend db key

/-- Clearing the cache deletes no irreplaceable blob exactly if it takes the last reference of none. -/
theorem prune_loses_nothing_iff (createdAt : Int → Time) (world : World) (accountId : Int)
    (keepLatestObjects : Nat) :
    (∀ key, Irreplaceable world.db key → world.blob key ≠ none →
      ((pruneCacheObjectsForAccount accountId keepLatestObjects).eval (adminHandler createdAt) world).2.blob key ≠
        none) ↔
      ∀ key, Irreplaceable world.db key → world.blob key ≠ none →
        ¬ LosesLast createdAt world.db accountId keepLatestObjects key := by
  constructor
  · intro keeps key needed present loses
    exact keeps key needed present ((prune_blob createdAt world accountId keepLatestObjects key).1 loses)
  · intro spared key needed present
    rw [(prune_blob createdAt world accountId keepLatestObjects key).2 (spared key needed present)]
    exact present

/-- A message that a client has just appended to an empty INBOX. -/
def appended : World :=
  ((Commands.append ExpungeReplay.inboxContext ["INBOX", "\x7b19\x7d"] (some Sample.hiMessage)).eval
    (cacheHandler Sample.libraries)
    (Sample.world (Sample.db [Sample.mailbox "INBOX" (some 7)] []) (Sample.emptyServer none))).2

theorem prune_loses_an_append :
    let key := contentAddressedKey Sample.libraries .rfc822 Sample.hiMessage
    UsedLocally appended.db key ∧ AwaitedByAppend appended.db key ∧
      appended.blob key = some Sample.hiMessage ∧
      ((pruneCacheObjectsForAccount 1 0).eval (adminHandler fun _ => 0) appended).2.blob key = none := by
  unfold UsedLocally AwaitedByAppend
  decide +kernel

end Admin

end ImapCache
