import ImapCache.Model.Ingest

/-!
# The sync engine

`SyncEngine`: a sync of a mailbox compares the upstream UIDs with the local rows, updates flags,
ingests what lies beyond the checkpoint, writes the new checkpoint and deletes the rows that are
gone upstream. A sync of an account does this for every upstream mailbox and then removes the
local mailboxes that upstream no longer has.
-/

namespace ImapCache.Sync
open Lib Prog Repository Ingest

structure SyncRunReport where
  mailboxesSynced : Nat
  messagesSynced : Nat
deriving DecidableEq, Repr

/-! ## One mailbox -/

/-- `local_by_upstream_uid.get(uid)`: of rows with the same upstream UID the map keeps the last. -/
def localByUpstreamUid (localMessages : List (Row MailboxMessage)) (uid : Int) :
    Option (Row MailboxMessage) :=
  localMessages.reverse.find? fun row => row.data.upstreamUid == some uid

def clearSyncedMailboxMessages (mailboxId : Int) : Action Unit := do
  let messages ← await (.listMailboxMessages mailboxId)
  forEach (messages.filter fun message => message.data.upstreamUid.isSome) fun message => do
    let _ ← deleteMailboxMessage mailboxId message.data.localUid
    pure ()

def reconcileMissingUpstreamMessagesWithSet (mailboxId : Int) (upstreamUids : List Int) :
    Action Unit := do
  let messages ← await (.listMailboxMessages mailboxId)
  forEach (messages.filter fun message =>
      message.data.upstreamUid.any fun uid => !upstreamUids.contains uid) fun message => do
    let _ ← deleteMailboxMessage mailboxId message.data.localUid
    pure ()

/-- What stays fixed while a run goes through the upstream UIDs. -/
structure SyncContext where
  accountId : Int
  mailboxName : String
  mailboxId : Int
  connection : Nat
  lastUid : Int
  localMessages : List (Row MailboxMessage)

/-- The flag reconciliation of one UID. -/
def reconcileFlags (context : SyncContext) (uid : Int) (fetchedFlags : List String) :
    Action Unit :=
  match localByUpstreamUid context.localMessages uid with
  | some localMessage =>
      if normalizeFlags localMessage.data.flags ≠ fetchedFlags then do
        let _ ← updateMailboxMessageFlags context.mailboxId localMessage.data.localUid fetchedFlags
        pure ()
      else pure ()
  | none => pure ()

def syncTarget (context : SyncContext) (uid : Int) (flags : List String) : Target :=
  { accountId := context.accountId, mailboxId := context.mailboxId
    mailboxName := context.mailboxName, localUid := uid, upstreamUid := some uid
    internalDate := none, flags, indexed := true }

/-- One round of the loop over the upstream UIDs; it carries the number of messages ingested and
the last UID ingested. -/
def syncUid (lib : Libraries) (context : SyncContext) (progress : Nat × Option Int) (uid : Nat) :
    Action (Nat × Option Int) := do
  let uidI64 ← orThrow (i64OfU64 uid) (.storage ("upstream UID out of range: " ++ toString uid))
  let flags ← await (.uidFetchFlags context.connection uid)
  let fetchedFlags := normalizeFlags flags
  reconcileFlags context uidI64 fetchedFlags
  if uidI64 ≤ context.lastUid then
    pure progress
  else do
    let raw ← await (.uidFetchRfc822 context.connection uid)
    let _ ← ingestRawMessage lib (syncTarget context uidI64 fetchedFlags) raw
    pure (progress.1 + 1, some uidI64)

/-- A field of the checkpoint document. -/
def checkpointField (checkpoint : Option (Row SyncState)) (key : String) : Option Int :=
  checkpoint.bind fun state => (state.data.stateJson.get key).bind Json.asI64

def uidvalidityChanged (selection : SelectedMailboxInfo) (checkpoint : Option (Row SyncState)) :
    Bool :=
  selection.uidvalidity.isSome && checkpointField checkpoint "uidvalidity" != selection.uidvalidity

/-- The UID a run starts after. -/
def effectiveLastUid (selection : SelectedMailboxInfo) (checkpoint : Option (Row SyncState)) : Int :=
  if uidvalidityChanged selection checkpoint then 0
  else (checkpointField checkpoint "last_uid").getD 0

def checkpointJson (mailboxName : String) (selection : SelectedMailboxInfo) (lastUid : Int) : Json :=
  .obj [("mailbox_name", .str mailboxName),
    ("uidvalidity", .ofOption .num selection.uidvalidity),
    ("uidnext", .ofOption .num selection.uidnext),
    ("highestmodseq", .ofOption .num selection.highestmodseq),
    ("exists", .ofOption .num selection.exists'),
    ("recent", .ofOption .num selection.recent),
    ("unseen", .ofOption .num selection.unseen),
    ("last_uid", .num lastUid)]

def validateCheckpoint (accountId : Int) : Except Error Unit :=
  if accountId ≤ 0 then .error (.storage "account_id must be positive") else .ok ()

def syncMailboxInner (lib : Libraries) (accountId : Int) (mailboxName : String)
    (mailbox : Row Mailbox) (connection : Nat) : Action Nat := do
  let selection ← await (.selectMailbox connection mailboxName)
  let checkpoint ← await (.loadSyncState accountId (some mailbox.id))
  onlyIf (uidvalidityChanged selection checkpoint) (clearSyncedMailboxMessages mailbox.id)
  let lastUid := effectiveLastUid selection checkpoint
  let upstreamUids ← await (.uidSearchAll connection)
  let upstreamUidSet := upstreamUids.filterMap i64OfU64
  let localMessages ← await (.listMailboxMessages mailbox.id)
  let context := { accountId, mailboxName, mailboxId := mailbox.id, connection, lastUid, localMessages }
  let (messagesSynced, newestUid) ← upstreamUids.foldlM (syncUid lib context) (0, none)
  ofExcept (validateCheckpoint accountId)
  await (.putSyncState { accountId, mailboxId := some mailbox.id
                         stateJson := checkpointJson mailboxName selection (newestUid.getD lastUid) })
  await (.updateMailboxSyncMetadata mailbox.id selection)
  reconcileMissingUpstreamMessagesWithSet mailbox.id upstreamUidSet
  refreshMailboxCounts mailbox.id
  pure messagesSynced

/-- The mailbox row that a sync writes before it starts: every column that upstream will fill in
is reset. -/
def syncedMailbox (accountId : Int) (mailboxName : String) : Mailbox :=
  let canonicalName := toAsciiLowercase mailboxName
  { accountId, name := mailboxName, canonicalName, delimiter := some "/", attributes := []
    subscribed := true
    specialUse := if canonicalName = "inbox" then some "\\Inbox" else none
    uidvalidity := none, uidnext := none, highestmodseq := none
    existsCount := 0, recentCount := 0, unseenCount := 0 }

def syncMailbox (lib : Libraries) (accountId : Int) (mailboxName : String) (connection : Nat) :
    Action Nat := do
  let mailbox ← upsertMailbox (syncedMailbox accountId mailboxName)
  syncMailboxInner lib accountId mailboxName mailbox connection

/-! ## One account -/

def removeMissingMailboxes (accountId : Int) (upstreamMailboxes : List String) : Action Unit := do
  let mailboxes ← await (.listMailboxes accountId)
  forEach (mailboxes.filter fun mailbox => !upstreamMailboxes.contains mailbox.data.canonicalName)
    fun mailbox => do
      let messages ← await (.listMailboxMessages mailbox.id)
      forEach messages fun message => do
        let _ ← deleteMailboxMessage mailbox.id message.data.localUid
        pure ()
      let _ ← deleteMailbox accountId mailbox.data.name
      pure ()

def syncListedMailbox (lib : Libraries) (accountId : Int) (connection : Nat) (report : SyncRunReport)
    (mailboxName : String) : Action SyncRunReport := do
  let synced ← syncMailbox lib accountId mailboxName connection
  pure ⟨report.mailboxesSynced + 1, report.messagesSynced + synced⟩

def syncMailboxes (lib : Libraries) (accountId : Int) (connection : Nat) : Action SyncRunReport := do
  let names ← await (.upstreamListMailboxes connection)
  let report ← names.foldlM (syncListedMailbox lib accountId connection) ⟨0, 0⟩
  removeMissingMailboxes accountId (names.map toAsciiLowercase)
  pure report

def syncLockKey (accountId : Int) : String := "imap-cache-rs:sync:account:" ++ toString accountId

/-- The lock is released when the guard is dropped, whatever the outcome. -/
def withSyncLock (accountId : Int) (body : Action SyncRunReport) : Action SyncRunReport := do
  let acquired ← await (.acquireLock (syncLockKey accountId))
  if acquired then do
    let outcome ← body.attempt
    tell (.releaseLock (syncLockKey accountId))
    ofExcept outcome
  else pure ⟨0, 0⟩

/-- The error text that the account's status shows after a sync. -/
def syncError (outcome : Except Error SyncRunReport) : Option String :=
  match outcome with
  | .ok _ => none
  | .error err => some err.text

/-- `lockManager` says whether the engine was built with one. -/
def syncAccount (lib : Libraries) (lockManager : Bool) (accountId : Int) (connection : Nat) :
    Action SyncRunReport := do
  let account ← await (.findAccountByIdAnyState accountId)
  match account with
  | none => pure ⟨0, 0⟩
  | some account => do
      let outcome ←
        (if account.data.disabledAt.isSome then pure ⟨0, 0⟩
        else if lockManager then withSyncLock accountId (syncMailboxes lib accountId connection)
        else syncMailboxes lib accountId connection : Action SyncRunReport).attempt
      tell (.setMailAccountSyncStatus accountId (syncError outcome))
      ofExcept outcome

end ImapCache.Sync
