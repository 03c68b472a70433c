import ImapCache.Proof.CacheObjects

/-!
# The purge of an account

The loop gives up one reference after the other until the account has no cache object, so it ends
after at most as many rounds as there are references. Both passes delete a blob under the same
condition: no message and no part of another account names its key.
-/

namespace ImapCache.Admin
open Lib Prog

/-! ## Who uses a blob -/

/-- A message of the account, or a part of one, names the key. -/
def UsedBy (db : Db) (accountId : Int) (blobKey : String) : Prop :=
  (∃ row ∈ db.messages.rows, row.data.accountId = accountId ∧ row.data.rfc822BlobKey = blobKey) ∨
    ∃ row ∈ db.mimeParts.rows, row.data.blobKey = blobKey ∧
      ∃ message, db.message row.data.messageId = some message ∧ message.data.accountId = accountId

theorem countBlobKeyReferencesElsewhere_eq_zero {db : Db} {accountId : Int} {blobKey : String} :
    db.countBlobKeyReferencesElsewhere blobKey accountId = 0 ↔
      ∀ other, other ≠ accountId → ¬ UsedBy db other blobKey := by
  unfold Db.countBlobKeyReferencesElsewhere
  rw [Nat.add_eq_zero_iff, List.length_eq_zero_iff, List.length_eq_zero_iff, List.filter_eq_nil_iff,
    List.filter_eq_nil_iff]
  constructor
  · rintro ⟨messages, parts⟩ other ne (⟨row, member, own, same⟩ | ⟨row, member, same, message, found, own⟩)
    · exact messages row member (by simp [same, own, ne])
    · exact parts row member (by simp [same, found, own, ne])
  · intro unused
    constructor
    · intro row member used
      simp only [Bool.and_eq_true, beq_iff_eq, bne_iff_ne] at used
      exact unused _ used.2 (.inl ⟨row, member, rfl, used.1⟩)
    · intro row member used
      simp only [Bool.and_eq_true, beq_iff_eq, Option.any_eq_true] at used
      obtain ⟨same, message, found, ne⟩ := used
      exact unused _ (by simpa using ne) (.inr ⟨row, member, same, message, found, rfl⟩)

theorem mem_listObjectKeysForAccount {db : Db} {accountId : Int} {key : String} :
    key ∈ listObjectKeysForAccount db accountId ↔ db.Cached accountId key ∨ UsedBy db accountId key := by
  unfold listObjectKeysForAccount
  rw [List.mem_insertionSort, List.mem_dedup, List.mem_append, List.mem_append, or_assoc]
  refine or_congr ?_ (or_congr ?_ ?_)
  · simp [Db.Cached, CacheObject.holds, and_assoc]
  · simp [and_assoc]
  · simp only [List.mem_map, List.mem_filter, Option.any_eq_true, beq_iff_eq]
    constructor
    · rintro ⟨row, ⟨member, message, found, own⟩, same⟩
      exact ⟨row, member, same, message, found, own⟩
    · rintro ⟨row, member, same, message, found, own⟩
      exact ⟨row, ⟨member, message, found, own⟩, same⟩

theorem mem_listCacheObjectsForAccount {db : Db} {accountId : Int} {row : Row CacheObject} :
    row ∈ listCacheObjectsForAccount db accountId ↔
      row ∈ db.cacheObjects.rows ∧ row.data.accountId = some accountId := by
  simp [listCacheObjectsForAccount]

/-! ## Single calls -/

theorem blob_deleteObject (world : World) (key other : String) :
    (deleteObject world key).blob other = if other = key then none else world.blob other := by
  unfold deleteObject World.blob
  simp only
  induction world.blobs with
  | nil => simp
  | cons entry blobs ih =>
      obtain ⟨name, bytes⟩ := entry
      by_cases deleted : name = key
      · subst deleted
        by_cases here : other = name
        · simpa [List.filter_cons, here] using ih
        · have apart : (other == name) = false := by simpa using here
          simpa [List.filter_cons, List.lookup_cons, apart, here] using ih
      · by_cases here : other = name
        · subst here
          simp [deleted]
        · have apart : (other == name) = false := by simpa using here
          simpa [List.filter_cons, List.lookup_cons, deleted, apart] using ih

variable {createdAt : Int → Time} {start world : World} {accountId : Int} {cacheKeys : List String}

theorem ensures_request {op : AdminOp} {value : op.Ret} {world' : World}
    {ok : op.Ret → World → Prop} {failed : Error → World → Prop}
    (done : perform createdAt world op = (.ok value, world')) (holds : ok value world') :
    (request op).Ensures (adminHandler createdAt) (noFault Error) ok failed world := by
  apply ensures_ask
  · intro value' answer
    change (perform createdAt world op).1 = _ at answer
    change ok value' (perform createdAt world op).2
    rw [done] at answer ⊢
    cases answer
    exact holds
  · intro failure answer
    change (perform createdAt world op).1 = _ at answer
    rw [done] at answer
    cases answer
  · intro failure allowed
    cases allowed
  · intro failure allowed
    cases allowed

/-- The world after a reference is given up, with the blob deleted where the answer says so. -/
def released (world : World) (blobKey : String) (givenUp : Bool) (db : Db) : World :=
  if givenUp then deleteObject { world with db } blobKey else { world with db }

theorem released_db (world : World) (blobKey : String) (givenUp : Bool) (db : Db) :
    (released world blobKey givenUp db).db = db := by
  cases givenUp <;> rfl

theorem released_blob (world : World) (blobKey : String) (givenUp : Bool) (db : Db) (key : String) :
    (released world blobKey givenUp db).blob key =
      if givenUp = true ∧ key = blobKey then none else world.blob key := by
  cases givenUp with
  | true =>
      rw [released, if_pos rfl, blob_deleteObject]
      simp [World.blob]
  | false => simp [released, World.blob]

theorem deleteCacheObject_ensures {blobKey : String} {ok : Bool → World → Prop}
    {failed : Error → World → Prop}
    (holds : ∀ givenUp db, Releases world.db world.now accountId blobKey givenUp db →
      ok givenUp (released world blobKey givenUp db)) :
    (deleteCacheObject accountId blobKey).Ensures (adminHandler createdAt) (noFault Error) ok failed world := by
  obtain ⟨givenUp, db, answer, releases⟩ :=
    world.db.deleteCacheObjectForAccount_releases world.now accountId blobKey
  have given : perform createdAt world (.deleteCacheObjectForAccount accountId blobKey) =
      (.ok givenUp, { world with db }) := by
    simp only [perform, World.commit, answer]
  have last := holds givenUp db releases
  unfold deleteCacheObject
  rw [bind_eq, ensures_bind]
  refine ensures_request given ?_
  rw [bind_eq, ensures_bind]
  cases givenUp with
  | false => exact last
  | true =>
      have deleted : perform createdAt { world with db } (.deleteObject blobKey) =
          (.ok (), deleteObject { world with db } blobKey) := rfl
      exact ensures_request deleted last

/-- What a purge has done when it has come across `cacheKeys`. -/
structure Purging (start : World) (accountId : Int) (cacheKeys : List String) (world : World) : Prop where
  db : world.db = { start.db with cacheObjects := world.db.cacheObjects }
  others : world.db.otherCacheObjects accountId = start.db.otherCacheObjects accountId
  cached : ∀ key, world.db.Cached accountId key → start.db.Cached accountId key
  through : ∀ key, start.db.Cached accountId key → world.db.Cached accountId key ∨
    key ∈ cacheKeys ∧ (start.db.countBlobKeyReferencesElsewhere key accountId = 0 → world.blob key = none)
  keys : ∀ key ∈ cacheKeys, start.db.Cached accountId key
  blobs : ∀ key, world.blob key = start.blob key ∨ world.blob key = none ∧
    start.db.Cached accountId key ∧ start.db.countBlobKeyReferencesElsewhere key accountId = 0

theorem Purging.initially (start : World) (accountId : Int) : Purging start accountId [] start where
  db := rfl
  others := rfl
  cached _ := id
  through _ := .inl
  keys _ member := absurd member List.not_mem_nil
  blobs _ := .inl rfl

theorem Purging.elsewhere (purging : Purging start accountId cacheKeys world) (key : String) :
    world.db.countBlobKeyReferencesElsewhere key accountId =
      start.db.countBlobKeyReferencesElsewhere key accountId := by
  rw [purging.db]
  rfl

/-! ## One object -/

theorem Purging.release (purging : Purging start accountId cacheKeys world) {blobKey : String}
    (listed : start.db.Cached accountId blobKey) {givenUp : Bool} {db : Db}
    (releases : Releases world.db world.now accountId blobKey givenUp db) :
    Purging start accountId (blobKey :: cacheKeys) (released world blobKey givenUp db) := by
  have same := released_db world blobKey givenUp db
  have blob := released_blob world blobKey givenUp db
  refine ⟨?_, ?_, fun key cached => ?_, fun key cached => ?_, fun key member => ?_, fun key => ?_⟩
  · rw [same, releases.others, purging.db]
  · rw [same, releases.otherCacheObjects, purging.others]
  · rw [same] at cached
    exact purging.cached key (releases.cached_of cached)
  · rw [same, blob]
    rcases purging.through key cached with still | ⟨member, gone⟩
    · rcases releases.cached_or still with still | ⟨rfl, answer⟩
      · exact .inl still
      · refine .inr ⟨List.mem_cons_self .., fun unused => ?_⟩
        rw [purging.elsewhere, unused] at answer
        rw [if_pos ⟨answer, rfl⟩]
    · refine .inr ⟨List.mem_cons_of_mem _ member, fun unused => ?_⟩
      rw [gone unused]
      split <;> rfl
  · rcases List.mem_cons.mp member with rfl | member
    · exact listed
    · exact purging.keys key member
  · rw [blob]
    split
    · rename_i deleted
      obtain ⟨given, rfl⟩ := deleted
      have unused := (releases.gives given).2
      rw [purging.elsewhere] at unused
      exact .inr ⟨rfl, listed, unused⟩
    · exact purging.blobs key

/-! ## The loop -/

/-- A round over the listed objects, the first of which is still there when its turn comes. -/
structure RoundState (start before : World) (accountId : Int) (done : List (Row CacheObject))
    (cacheKeys : List String) (world : World) : Prop where
  purging : Purging start accountId cacheKeys world
  untouched : done = [] → world = before
  fewer : done ≠ [] → world.db.references accountId < before.db.references accountId

theorem purgeRound_ensures (purging : Purging start accountId cacheKeys world)
    {objects : List (Row CacheObject)} (some : objects ≠ [])
    (listed : ∀ object ∈ objects, world.db.Cached accountId object.data.blobKey) :
    (purgeRound accountId cacheKeys objects).Ensures (adminHandler createdAt) (noFault Error)
      (fun keys after => Purging start accountId keys after ∧
        after.db.references accountId < world.db.references accountId)
      (fun _ _ => False) world := by
  have loop : (purgeRound accountId cacheKeys objects).Ensures (adminHandler createdAt) (noFault Error)
      (RoundState start world accountId objects) (fun _ _ => False) world := by
    refine ensures_foldlM (fun done _ => RoundState start world accountId done)
      ⟨purging, fun _ => rfl, fun ne => absurd rfl ne⟩ ?_
    intro done object rest keys now split state
    have member : object ∈ objects := by simp [split]
    rw [bind_eq, ensures_bind]
    refine deleteCacheObject_ensures fun givenUp db releases => ?_
    obtain ⟨atMost, less⟩ := releases.references
    refine ⟨state.purging.release (purging.cached _ (listed object member)) releases,
      fun empty => ?_, fun _ => ?_⟩
    · simp at empty
    · rw [released_db]
      by_cases first : done = []
      · obtain rfl := state.untouched first
        exact less (listed object member)
      · exact lt_of_le_of_lt atMost (state.fewer first)
  exact loop.mono (fun _ _ state => ⟨state.purging, state.fewer some⟩) fun _ _ => id

theorem purgeLoop_ensures (fuel : Nat) (purging : Purging start accountId cacheKeys world)
    (enough : world.db.references accountId < fuel) :
    (purgeLoop accountId fuel cacheKeys).Ensures (adminHandler createdAt) (noFault Error)
      (fun result after => ∃ keys, result = some keys ∧ Purging start accountId keys after ∧
        ∀ key, ¬ after.db.Cached accountId key)
      (fun _ _ => False) world := by
  induction fuel generalizing cacheKeys world with
  | zero => exact absurd enough (Nat.not_lt_zero _)
  | succ fuel ih =>
      have listing : perform createdAt world (.listCacheObjectsForAccount accountId) =
          (.ok (listCacheObjectsForAccount world.db accountId), world) := rfl
      unfold purgeLoop
      rw [bind_eq, ensures_bind]
      refine ensures_request listing ?_
      split
      · rename_i empty
        refine ⟨cacheKeys, rfl, purging, ?_⟩
        rintro key ⟨row, member, holds⟩
        have found := mem_listCacheObjectsForAccount.mpr ⟨member, (CacheObject.holds_iff.mp holds).1⟩
        rw [List.isEmpty_iff.mp empty] at found
        cases found
      · rename_i some
        rw [bind_eq, ensures_bind]
        have listed : ∀ object ∈ listCacheObjectsForAccount world.db accountId,
            world.db.Cached accountId object.data.blobKey := by
          intro object member
          obtain ⟨stored, own⟩ := mem_listCacheObjectsForAccount.mp member
          exact ⟨object, stored, CacheObject.holds_iff.mpr ⟨own, rfl⟩⟩
        refine (purgeRound_ensures purging (fun empty => some (List.isEmpty_iff.mpr empty)) listed).mono ?_
          fun _ _ => id
        rintro keys after ⟨purged, less⟩
        exact ih purged (by omega)

/-! ## The keys without a cache object -/

/-- The second pass: of the keys it is through with, those used nowhere else have lost their blob. -/
structure Sweeping (before : World) (accountId : Int) (done : List String) (world : World) : Prop where
  db : world.db = before.db
  blob : ∀ key, world.blob key =
    if key ∈ done ∧ before.db.countBlobKeyReferencesElsewhere key accountId = 0 then none else before.blob key

theorem sweep_ensures (world : World) (accountId : Int) (keys : List String) :
    (forEach keys fun key => do
        let elsewhere ← request (.countBlobKeyReferencesElsewhere key accountId)
        onlyIf (elsewhere == 0) (request (.deleteObject key))).Ensures
      (adminHandler createdAt) (noFault Error) (fun _ => Sweeping world accountId keys)
      (fun _ _ => False) world := by
  refine ensures_forEach (fun done _ => Sweeping world accountId done) ⟨rfl, fun key => by simp⟩ ?_
  intro done key rest now _ sweeping
  have counting : perform createdAt now (.countBlobKeyReferencesElsewhere key accountId) =
      (.ok (world.db.countBlobKeyReferencesElsewhere key accountId), now) := by
    rw [← sweeping.db]
    rfl
  rw [bind_eq, ensures_bind]
  refine ensures_request counting ?_
  by_cases unused : world.db.countBlobKeyReferencesElsewhere key accountId = 0
  · have deleted : perform createdAt now (.deleteObject key) = (.ok (), deleteObject now key) := rfl
    simp only [unused, beq_self_eq_true, onlyIf, if_true]
    refine ensures_request deleted ⟨sweeping.db, fun other => ?_⟩
    rw [blob_deleteObject, sweeping.blob]
    by_cases here : other = key
    · subst here
      simp [unused]
    · simp [here]
  · have kept : (world.db.countBlobKeyReferencesElsewhere key accountId == 0) = false := by simpa using unused
    simp only [kept, onlyIf, Bool.false_eq_true, if_false]
    refine ⟨sweeping.db, fun other => ?_⟩
    rw [sweeping.blob]
    by_cases here : other = key
    · subst here
      simp [unused]
    · simp [here]

/-! ## The whole purge -/

/-- The account names the key in its cache objects, messages or parts. -/
def Referenced (db : Db) (accountId : Int) (blobKey : String) : Prop :=
  db.Cached accountId blobKey ∨ UsedBy db accountId blobKey

/-- The store and the database after a purge. -/
structure Purged (start : World) (accountId : Int) (world : World) : Prop where
  deleted : ∀ key, Referenced start.db accountId key →
    (∀ other, other ≠ accountId → ¬ UsedBy start.db other key) → world.blob key = none
  kept : ∀ key, ¬ (Referenced start.db accountId key ∧
    ∀ other, other ≠ accountId → ¬ UsedBy start.db other key) → world.blob key = start.blob key
  uncached : ∀ row ∈ world.db.cacheObjects.rows, row.data.accountId ≠ some accountId
  others : world.db.otherCacheObjects accountId = start.db.otherCacheObjects accountId
  rest : world.db = { start.db with cacheObjects := world.db.cacheObjects }

theorem Purging.purged (purging : Purging start accountId cacheKeys world)
    (uncached : ∀ key, ¬ world.db.Cached accountId key) {after : World}
    (sweeping : Sweeping world accountId
      ((listObjectKeysForAccount world.db accountId).filter fun key => key ∉ cacheKeys) after) :
    Purged start accountId after := by
  have used (key : String) : UsedBy world.db accountId key ↔ UsedBy start.db accountId key := by
    rw [purging.db]
    rfl
  have listed (key : String) : key ∈ (listObjectKeysForAccount world.db accountId).filter
      (fun key => key ∉ cacheKeys) ↔ UsedBy start.db accountId key ∧ key ∉ cacheKeys := by
    rw [List.mem_filter, mem_listObjectKeysForAccount, used, decide_eq_true_eq,
      or_iff_right (uncached key)]
  have elsewhere (key : String) : world.db.countBlobKeyReferencesElsewhere key accountId = 0 ↔
      ∀ other, other ≠ accountId → ¬ UsedBy start.db other key := by
    rw [purging.elsewhere, countBlobKeyReferencesElsewhere_eq_zero]
  refine ⟨fun key referenced unused => ?_, fun key needed => ?_, fun row member own => ?_, ?_, ?_⟩
  · rw [sweeping.blob]
    split
    · rfl
    · rename_i skipped
      rw [listed, elsewhere] at skipped
      have cached : start.db.Cached accountId key := by
        by_cases swept : key ∈ cacheKeys
        · exact purging.keys key swept
        · exact referenced.resolve_right fun own => skipped ⟨⟨own, swept⟩, unused⟩
      exact ((purging.through key cached).resolve_left (uncached key)).2
        (countBlobKeyReferencesElsewhere_eq_zero.mpr unused)
  · rw [sweeping.blob, if_neg fun swept =>
      needed ⟨.inr ((listed key).mp swept.1).1, (elsewhere key).mp swept.2⟩]
    rcases purging.blobs key with same | ⟨-, cached, unused⟩
    · exact same
    · exact absurd ⟨.inl cached, countBlobKeyReferencesElsewhere_eq_zero.mp unused⟩ needed
  · rw [sweeping.db] at member
    exact uncached row.data.blobKey ⟨row, member, CacheObject.holds_iff.mpr ⟨own, rfl⟩⟩
  · rw [sweeping.db]
    exact purging.others
  · rw [sweeping.db]
    exact purging.db

/-- A purge ends, after at most as many rounds as the account has references, and deletes exactly the
blobs that the account names and no message or part of another account does. -/
theorem purge_exact (createdAt : Int → Time) (world : World) (accountId : Int) (spare : Nat) :
    ∃ after, (purgeAccountObjectsForDeletion (world.db.references accountId + 1 + spare) accountId).eval
        (adminHandler createdAt) world = (.ok (some ()), after) ∧
      Purged world accountId after := by
  have ensures : (purgeAccountObjectsForDeletion (world.db.references accountId + 1 + spare) accountId).Ensures
      (adminHandler createdAt) (noFault Error)
      (fun result after => result = some () ∧ Purged world accountId after) (fun _ _ => False) world := by
    unfold purgeAccountObjectsForDeletion
    rw [bind_eq, ensures_bind]
    refine (purgeLoop_ensures _ (.initially world accountId) (by omega)).mono ?_ fun _ _ => id
    rintro result middle ⟨cacheKeys, rfl, purging, uncached⟩
    have listing : perform createdAt middle (.listObjectKeysForAccount accountId) =
        (.ok (listObjectKeysForAccount middle.db accountId), middle) := rfl
    simp only [bind_eq]
    rw [ensures_bind]
    refine ensures_request listing ?_
    rw [ensures_bind]
    refine (sweep_ensures middle accountId _).mono ?_ fun _ _ => id
    intro _ after sweeping
    exact ⟨rfl, purging.purged uncached sweeping⟩
  obtain ⟨success, failure⟩ := ensures.eval
  cases outcome : (purgeAccountObjectsForDeletion (world.db.references accountId + 1 + spare) accountId).eval
      (adminHandler createdAt) world with
  | mk result after =>
      rw [outcome] at success failure
      cases result with
      | error err => exact absurd rfl (failure err)
      | ok value =>
          obtain ⟨rfl, purged⟩ := success value rfl
          exact ⟨after, rfl, purged⟩

end ImapCache.Admin
