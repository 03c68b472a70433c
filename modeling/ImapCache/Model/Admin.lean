import ImapCache.Model.World

/-!
# Clearing the cache of an account

`purge_account_objects_for_deletion` and `prune_cache_objects_for_account` of `src/admin.rs`, with
the calls that only the admin commands make on the repository and the object store.
-/

namespace ImapCache.Admin
open Lib Prog

/-! ## Queries -/

/-- `ORDER BY id ASC`. -/
def listCacheObjectsForAccount (db : Db) (accountId : Int) : List (Row CacheObject) :=
  (db.cacheObjects.rows.filter fun row => row.data.accountId == some accountId).insertionSort
    fun a b => a.id ≤ b.id

/-- `ORDER BY COALESCE(last_accessed_at, created_at) ASC, id ASC`, with the creation times of the rows
given by their ids. -/
def listCacheObjectsForAccountByRecency (createdAt : Int → Time) (db : Db) (accountId : Int) :
    List (Row CacheObject) :=
  let recency (row : Row CacheObject) : Time := row.data.lastAccessedAt.getD (createdAt row.id)
  (db.cacheObjects.rows.filter fun row => row.data.accountId == some accountId).insertionSort
    fun a b => recency a < recency b ∨ (recency a = recency b ∧ a.id ≤ b.id)

/-- The keys that the cache objects, messages and parts of an account name. -/
def listObjectKeysForAccount (db : Db) (accountId : Int) : List String :=
  let cached := (db.cacheObjects.rows.filter fun row => row.data.accountId == some accountId).map
    fun row => row.data.blobKey
  let raw := (db.messages.rows.filter fun row => row.data.accountId == accountId).map
    fun row => row.data.rfc822BlobKey
  let parts := (db.mimeParts.rows.filter fun row =>
    (db.message row.data.messageId).any fun message => message.data.accountId == accountId).map
    fun row => row.data.blobKey
  (cached ++ raw ++ parts).dedup.insertionSort fun a b => a ≤ b

/-! ## Operations -/

inductive AdminOp where
  | listCacheObjectsForAccount (accountId : Int)
  | listCacheObjectsForAccountByRecency (accountId : Int)
  | deleteCacheObjectForAccount (accountId : Int) (blobKey : String)
  | listObjectKeysForAccount (accountId : Int)
  | countBlobKeyReferencesElsewhere (blobKey : String) (accountId : Int)
  | deleteObject (key : String)

@[reducible] def AdminOp.Ret : AdminOp → Type
  | listCacheObjectsForAccount _ | listCacheObjectsForAccountByRecency _ => List (Row CacheObject)
  | deleteCacheObjectForAccount _ _ => Bool
  | listObjectKeysForAccount _ => List String
  | countBlobKeyReferencesElsewhere _ _ => Nat
  | deleteObject _ => Unit

@[reducible] def adminSignature : Signature := ⟨AdminOp, AdminOp.Ret, Error, fun _ => true⟩

abbrev AdminAction (α : Type) := Prog adminSignature α

abbrev request (op : AdminOp) : AdminAction op.Ret := Prog.ask (σ := adminSignature) op

/-- Deleting an object that is absent succeeds. -/
def deleteObject (world : World) (key : String) : World :=
  { world with blobs := world.blobs.filter (·.1 != key) }

def perform (createdAt : Int → Time) (world : World) : (op : AdminOp) → Except Error op.Ret × World
  | .listCacheObjectsForAccount accountId => world.read (listCacheObjectsForAccount world.db accountId)
  | .listCacheObjectsForAccountByRecency accountId =>
      world.read (listCacheObjectsForAccountByRecency createdAt world.db accountId)
  | .deleteCacheObjectForAccount accountId blobKey =>
      world.commit (world.db.deleteCacheObjectForAccount world.now accountId blobKey)
  | .listObjectKeysForAccount accountId => world.read (listObjectKeysForAccount world.db accountId)
  | .countBlobKeyReferencesElsewhere blobKey accountId =>
      world.read (world.db.countBlobKeyReferencesElsewhere blobKey accountId)
  | .deleteObject key => (.ok (), deleteObject world key)

def adminHandler (createdAt : Int → Time) : Handler adminSignature World where
  exec op world := perform createdAt world op
  total _ _ infallible := by cases infallible

/-! ## Purge -/

/-- Give up one reference of a cache object and, with the last one, its blob. -/
def deleteCacheObject (accountId : Int) (blobKey : String) : AdminAction Bool := do
  let givenUp ← request (.deleteCacheObjectForAccount accountId blobKey)
  onlyIf givenUp (request (.deleteObject blobKey))
  pure givenUp

def purgeRound (accountId : Int) (cacheKeys : List String) (cacheObjects : List (Row CacheObject)) :
    AdminAction (List String) :=
  cacheObjects.foldlM (fun cacheKeys object => do
    let _ ← deleteCacheObject accountId object.data.blobKey
    pure (object.data.blobKey :: cacheKeys)) cacheKeys

/-- The `loop`, for as many rounds as there is fuel. -/
def purgeLoop (accountId : Int) : Nat → List String → AdminAction (Option (List String))
  | 0, _ => pure none
  | fuel + 1, cacheKeys => do
      let cacheObjects ← request (.listCacheObjectsForAccount accountId)
      if cacheObjects.isEmpty then pure (some cacheKeys)
      else do
        let cacheKeys ← purgeRound accountId cacheKeys cacheObjects
        purgeLoop accountId fuel cacheKeys

/-- Without a result when the loop runs out of fuel. -/
def purgeAccountObjectsForDeletion (fuel : Nat) (accountId : Int) : AdminAction (Option Unit) := do
  match ← purgeLoop accountId fuel [] with
  | none => pure none
  | some cacheKeys => do
      let objectKeys ← request (.listObjectKeysForAccount accountId)
      forEach (objectKeys.filter fun key => key ∉ cacheKeys) fun key => do
        let elsewhere ← request (.countBlobKeyReferencesElsewhere key accountId)
        onlyIf (elsewhere == 0) (request (.deleteObject key))
      pure (some ())

/-! ## Prune -/

/-- The loop over the selected objects; it counts the blobs it deletes. -/
def deleteSelected (accountId : Int) (toDelete : List (Row CacheObject)) : AdminAction Nat :=
  toDelete.foldlM (fun deleted object => do
    let givenUp ← deleteCacheObject accountId object.data.blobKey
    pure (if givenUp then deleted + 1 else deleted)) 0

def pruneCacheObjectsForAccount (accountId : Int) (keepLatestObjects : Nat) : AdminAction Nat := do
  let cacheObjects ←
    if keepLatestObjects = 0 then request (.listCacheObjectsForAccount accountId)
    else request (.listCacheObjectsForAccountByRecency accountId)
  let toDelete := if keepLatestObjects = 0 then cacheObjects
    else cacheObjects.take (cacheObjects.length - keepLatestObjects)
  deleteSelected accountId toDelete

end ImapCache.Admin
