import ImapCache.Model.World
import ImapCache.Proof.Statements

/-!
# What an operation leaves alone

Each operation writes at most the components of the world that `Op.writes` lists.
-/

namespace ImapCache
open Lib

inductive Component where
  | accounts | mailboxes | messages | mailboxMessages | mimeParts | uidMappings | syncStates
  | pendingMutations | cacheObjects | quotas | users | sessionRecords | auditLog | blobs | index | upstream
  | sessions | events | locks | attempts | now
deriving DecidableEq, Repr

@[reducible] def Component.Value : Component → Type
  | accounts => Table MailAccount (.free _)
  | mailboxes => Table Mailbox mailboxKeys
  | messages => Table Message (.free _)
  | mailboxMessages => Table MailboxMessage mailboxMessageKeys
  | mimeParts => Table MimePart (.free _)
  | uidMappings => Table UidMapping uidMappingKeys
  | syncStates => Table SyncState syncStateKeys
  | pendingMutations => Table PendingMutation pendingMutationKeys
  | cacheObjects => Table CacheObject cacheObjectKeys
  | quotas => Table Quota quotaKeys
  | users => Table User userKeys
  | sessionRecords => Table SessionRecord sessionKeys
  | auditLog => Table AuditLogEntry (.free _)
  | blobs => List (String × Bytes)
  | index => List IndexedDocument
  | upstream => Upstream
  | sessions => Nat → Option String
  | events => List MutationEvent
  | locks => List String
  | attempts => Auth.Attempts
  | now => Time

def World.component (world : World) : (k : Component) → k.Value
  | .accounts => world.db.accounts
  | .mailboxes => world.db.mailboxes
  | .messages => world.db.messages
  | .mailboxMessages => world.db.mailboxMessages
  | .mimeParts => world.db.mimeParts
  | .uidMappings => world.db.uidMappings
  | .syncStates => world.db.syncStates
  | .pendingMutations => world.db.pendingMutations
  | .cacheObjects => world.db.cacheObjects
  | .quotas => world.db.quotas
  | .users => world.db.users
  | .sessionRecords => world.db.sessions
  | .auditLog => world.db.auditLog
  | .blobs => world.blobs
  | .index => world.index
  | .upstream => world.upstream
  | .sessions => world.sessions
  | .events => world.events
  | .locks => world.locks
  | .attempts => world.attempts
  | .now => world.now

def Op.writes : Op → List Component
  | createSession .. => [.sessionRecords]
  | markSessionDisconnected .. => [.sessionRecords]
  | recordAuditLog .. => [.auditLog]
  | setMailAccountSyncStatus .. => [.accounts]
  | upsertMailbox .. => [.mailboxes]
  | createMailbox .. => [.mailboxes]
  | renameMailbox .. => [.mailboxes]
  | setMailboxSubscribed .. => [.mailboxes]
  | deleteMailbox .. => [.mailboxes, .mailboxMessages, .uidMappings, .syncStates, .pendingMutations]
  | updateMailboxSyncMetadata .. => [.mailboxes]
  | insertMailboxMessage .. => [.mailboxes, .mailboxMessages]
  | setMailboxMessageUpstreamUid .. => [.mailboxes, .mailboxMessages]
  | updateMailboxMessageFlags .. => [.mailboxes, .mailboxMessages]
  | copyMailboxMessage .. => [.mailboxes, .mailboxMessages]
  | deleteMailboxMessage .. => [.mailboxes, .mailboxMessages]
  | refreshMailboxCounts .. => [.mailboxes]
  | upsertUidMapping .. => [.uidMappings]
  | putSyncState .. => [.syncStates]
  | upsertMessage .. => [.messages]
  | deleteMimePartsForMessage .. => [.mimeParts]
  | insertMimePart .. => [.mimeParts]
  | upsertCacheObject .. => [.cacheObjects]
  | deleteCacheObjectForAccount .. => [.cacheObjects]
  | touchCacheObject .. => [.cacheObjects]
  | adjustAccountQuotaUsage .. => [.quotas]
  | enqueueMutation .. => [.pendingMutations]
  | updatePendingMutation .. => [.pendingMutations]
  | putObject .. => [.blobs]
  | indexMessage .. => [.index]
  | acquireLock .. => [.locks]
  | releaseLock .. => [.locks]
  | publishEvent .. => [.events]
  | isBlocked .. => [.attempts]
  | recordFailure .. => [.attempts]
  | recordSuccess .. => [.attempts]
  | selectMailbox .. => [.sessions]
  | append .. => [.upstream]
  | uidCopyMessage .. => [.upstream]
  | uidStoreFlags .. => [.upstream]
  | expungeSelected .. => [.upstream]
  | _ => []

def Op.onMailboxes : Op → Bool
  | upsertMailbox .. | createMailbox .. | renameMailbox .. | setMailboxSubscribed .. | deleteMailbox ..
  | updateMailboxSyncMetadata .. | refreshMailboxCounts .. => true
  | _ => false

/-- The statements that write rows of messages in mailboxes. -/
def Op.onRows : Op → Bool
  | insertMailboxMessage .. | setMailboxMessageUpstreamUid .. | updateMailboxMessageFlags ..
  | copyMailboxMessage .. | deleteMailboxMessage .. => true
  | _ => false

def Op.onTable : Op → Bool
  | createSession .. | markSessionDisconnected .. | recordAuditLog .. | setMailAccountSyncStatus ..
  | upsertUidMapping .. | putSyncState .. | upsertMessage .. | deleteMimePartsForMessage .. | insertMimePart ..
  | upsertCacheObject .. | deleteCacheObjectForAccount .. | touchCacheObject .. | adjustAccountQuotaUsage ..
  | enqueueMutation .. | updatePendingMutation .. => true
  | _ => false

namespace World

theorem commit_component {α : Type} (world : World) (result : Except Error (α × Db)) (k : Component)
    (keeps : ∀ value db, result = .ok (value, db) →
      { world with db }.component k = world.component k) :
    (world.commit result).2.component k = world.component k := by
  unfold commit
  split
  · exact keeps _ _ rfl
  · rfl

theorem writesRows_component {world : World} {db : Db} {k : Component}
    (frame : Db.WritesRows world.db db) (ne : k ≠ .mailboxes ∧ k ≠ .mailboxMessages) :
    { world with db }.component k = world.component k := by
  obtain ⟨mailboxes, mailboxMessages, rfl, -⟩ := frame
  cases k <;> first | rfl | exact absurd rfl ne.1 | exact absurd rfl ne.2

section Statements
variable (lib : Libraries) (world : World) {op : Op} {k : Component}

theorem onMailboxes_frame (isStatement : op.onMailboxes = true) (untouched : k ∉ op.writes) :
    (world.perform lib op).2.component k = world.component k := by
  cases op with
  | upsertMailbox =>
      refine commit_component _ _ _ fun value db h => ?_
      obtain ⟨-, ⟨_, rfl⟩, -⟩ := Db.upsertMailbox_ok h
      cases k <;> first | rfl | simp [Op.writes] at untouched
  | createMailbox =>
      refine commit_component _ _ _ fun value db h => ?_
      obtain ⟨⟨_, rfl⟩, -⟩ := Db.createMailbox_ok h
      cases k <;> first | rfl | simp [Op.writes] at untouched
  | renameMailbox | setMailboxSubscribed =>
      refine commit_component _ _ _ fun value db h => ?_
      obtain ⟨⟨_, rfl⟩, -⟩ := Db.updateNamedMailbox_ok h
      cases k <;> first | rfl | simp [Op.writes] at untouched
  | deleteMailbox =>
      refine commit_component _ _ _ fun value db h => ?_
      cases h
      cases k <;> first | rfl | simp [Op.writes] at untouched
  | updateMailboxSyncMetadata =>
      refine commit_component _ _ _ fun value db h => ?_
      obtain ⟨_, rfl, -⟩ := Db.updateMailboxSyncMetadata_ok h
      cases k <;> first | rfl | simp [Op.writes] at untouched
  | refreshMailboxCounts =>
      refine commit_component _ _ _ fun value db h => ?_
      obtain ⟨_, rfl, -⟩ := Db.refreshMailboxCounts_ok h
      cases k <;> first | rfl | simp [Op.writes] at untouched
  | _ => cases isStatement

theorem onRows_frame (isStatement : op.onRows = true) (untouched : k ∉ op.writes) :
    (world.perform lib op).2.component k = world.component k := by
  cases op with
  | insertMailboxMessage =>
      refine commit_component _ _ _ fun value db h => ?_
      exact writesRows_component (Db.insertMailboxMessage_ok h).1.frame
        (by simpa [Op.writes] using untouched)
  | setMailboxMessageUpstreamUid =>
      refine commit_component _ _ _ fun value db h => ?_
      rcases Db.setMailboxMessageUpstreamUid_ok h with ⟨-, keep, -⟩ | ⟨_, _, _, _, put⟩
      · exact writesRows_component keep.frame (by simpa [Op.writes] using untouched)
      · exact writesRows_component put.frame (by simpa [Op.writes] using untouched)
  | updateMailboxMessageFlags =>
      refine commit_component _ _ _ fun value db h => ?_
      rcases Db.updateMailboxMessageFlags_ok h with ⟨-, keep, -⟩ | ⟨_, _, _, _, _, _, put⟩
      · exact writesRows_component keep.frame (by simpa [Op.writes] using untouched)
      · exact writesRows_component put.frame (by simpa [Op.writes] using untouched)
  | copyMailboxMessage =>
      refine commit_component _ _ _ fun value db h => ?_
      rcases Db.copyMailboxMessage_ok h with ⟨-, rfl, -⟩ | ⟨_, _, _, _, _, _, put, _⟩
      · rfl
      · exact writesRows_component put.frame (by simpa [Op.writes] using untouched)
  | deleteMailboxMessage =>
      refine commit_component _ _ _ fun value db h => ?_
      rcases Db.deleteMailboxMessage_ok h with ⟨-, rfl, -⟩ | ⟨_, _, _, _, drop⟩
      · rfl
      · exact writesRows_component drop.frame (by simpa [Op.writes] using untouched)
  | _ => cases isStatement

/-- A statement that gives the database another table, unless it fails, writes that table only. -/
theorem onTable_frame (isStatement : op.onTable = true) (untouched : k ∉ op.writes) :
    (world.perform lib op).2.component k = world.component k := by
  cases op with
  | upsertUidMapping =>
      refine commit_component _ _ _ fun value db h => ?_
      obtain ⟨_, rfl, -⟩ := Db.upsertUidMapping_ok h
      cases k <;> first | rfl | simp [Op.writes] at untouched
  | putSyncState =>
      refine commit_component _ _ _ fun value db h => ?_
      obtain ⟨_, rfl, -⟩ := Db.putSyncState_ok h
      cases k <;> first | rfl | simp [Op.writes] at untouched
  | upsertMessage =>
      refine commit_component _ _ _ fun value db h => ?_
      obtain ⟨_, rfl, -⟩ := Db.upsertMessage_ok h
      cases k <;> first | rfl | simp [Op.writes] at untouched
  | enqueueMutation =>
      refine commit_component _ _ _ fun value db h => ?_
      obtain ⟨_, rfl, -⟩ := Db.enqueueMutation_ok h
      cases k <;> first | rfl | simp [Op.writes] at untouched
  | updatePendingMutation =>
      refine commit_component _ _ _ fun value db h => ?_
      obtain ⟨_, rfl, -⟩ := Db.updatePendingMutation_ok h
      cases k <;> first | rfl | simp [Op.writes] at untouched
  | deleteMimePartsForMessage =>
      refine commit_component _ _ _ fun value db h => ?_
      cases h
      cases k <;> first | rfl | simp [Op.writes] at untouched
  | createSession | recordAuditLog | insertMimePart | upsertCacheObject | setMailAccountSyncStatus
  | markSessionDisconnected | touchCacheObject | adjustAccountQuotaUsage | deleteCacheObjectForAccount =>
      refine commit_component _ _ _ fun value db h => ?_
      simp only [Db.createSession, Db.recordAuditLog, Db.insertMimePart, Db.upsertCacheObject,
        Db.setMailAccountSyncStatus, Db.markSessionDisconnected, Db.touchCacheObject,
        Db.adjustAccountQuotaUsage, Db.deleteCacheObjectForAccount] at h
      repeat' split at h
      all_goals cases h
      all_goals cases k <;> first | rfl | simp [Op.writes] at untouched
  | _ => cases isStatement

end Statements

theorem attempts_component {world world' : World} {attempts : Auth.Attempts} {k : Component}
    (same : world' = { world with attempts }) (untouched : k ≠ .attempts) :
    world'.component k = world.component k := by
  subst same
  cases k <;> first | rfl | exact absurd rfl untouched

theorem perform_frame (lib : Libraries) (world : World) (op : Op) (k : Component)
    (untouched : k ∉ op.writes) : (world.perform lib op).2.component k = world.component k := by
  by_cases isMailboxes : op.onMailboxes = true
  · exact onMailboxes_frame lib world isMailboxes untouched
  by_cases isRows : op.onRows = true
  · exact onRows_frame lib world isRows untouched
  by_cases isTable : op.onTable = true
  · exact onTable_frame lib world isTable untouched
  -- Reads, and what is written beside the database.
  cases op with
  | putObject | getObject | acquireLock =>
      simp only [perform, putObject, getObject, acquireLock]
      repeat' split
      all_goals cases k <;> first | rfl | simp [Op.writes] at untouched
  | isBlocked | recordFailure | recordSuccess => exact attempts_component rfl (by simpa [Op.writes] using untouched)
  | _ =>
      first
        | exact absurd rfl isMailboxes
        | exact absurd rfl isRows
        | exact absurd rfl isTable
        | cases k <;> first | rfl | simp [Op.writes] at untouched

theorem answer_frame (lib : Libraries) (fault : Fault Error) (op : Op) (world : World) (k : Component)
    (untouched : k ∉ op.writes) :
    ((cacheHandler lib).answer fault op world).2.component k = world.component k := by
  rcases (cacheHandler lib).answer_state fault op world with eq | eq <;> rw [eq]
  exact perform_frame lib world op k untouched

theorem rowAt_frame (lib : Libraries) {op : Op} (unwritten : Component.mailboxMessages ∉ op.writes)
    (fault : Fault Error) (world : World) (mailboxId localUid : Int) :
    ((cacheHandler lib).answer fault op world).2.db.rowAt mailboxId localUid =
      world.db.rowAt mailboxId localUid := by
  have same := answer_frame lib fault op world .mailboxMessages unwritten
  change ((cacheHandler lib).answer fault op world).2.db.mailboxMessages = world.db.mailboxMessages at same
  rw [Db.rowAt, same]
  rfl

theorem flagsAt_frame (lib : Libraries) {op : Op} (unwritten : Component.mailboxMessages ∉ op.writes)
    (fault : Fault Error) (world : World) (mailboxId localUid : Int) :
    ((cacheHandler lib).answer fault op world).2.db.flagsAt mailboxId localUid =
      world.db.flagsAt mailboxId localUid :=
  congrArg (Option.map _) (rowAt_frame lib unwritten fault world mailboxId localUid)

end World
end ImapCache
