import ImapCache.Model.World

/-!
# The repository

The methods of `PostgresRepository` that take more than one call: what they do after their
transaction has committed, each further query being a call of its own.
-/

namespace ImapCache.Repository
open Lib Prog

/-- `publish_event`: a failure is logged and goes no further. -/
def publishEvent (event : MutationEvent) : Action Unit := tell (.publishEvent event)

/-! ## Accounts -/

/-- The credentials of the account that was created last with that address. -/
def upstreamAccountConfig (lib : Libraries) (emailAddress : String) :
    Action (Option UpstreamAccountConfig) := do
  let account ← await (.findAccountByEmailAddressAnyState emailAddress)
  match account with
  | none => pure none
  | some account => do
      let config ← ofExcept (upstreamAccountConfigFromAccount lib account.data)
      pure (some config)

/-! ## Mailboxes -/

def upsertMailbox (input : Mailbox) : Action (Row Mailbox) := do
  let row ← await (.upsertMailbox input)
  publishEvent (.mailboxChanged (some row.data.accountId) (some row.id) "upsert_mailbox")
  pure row

def createMailbox (input : Mailbox) : Action (Option (Row Mailbox)) := do
  let created ← await (.createMailbox input)
  forEach created.toList fun row =>
    publishEvent (.mailboxChanged (some row.data.accountId) (some row.id) "create_mailbox")
  pure created

def renameMailbox (accountId : Int) (mailboxName newName : String) :
    Action (Option (Row Mailbox)) := do
  let taken ← await (.findMailbox accountId newName)
  if taken.isSome then pure none
  else do
    let renamed ← await (.renameMailbox accountId mailboxName newName)
    forEach renamed.toList fun row => publishEvent (.mailboxChanged (some row.data.accountId)
      (some row.id) ("rename_mailbox:" ++ mailboxName ++ "->" ++ newName))
    pure renamed

def setMailboxSubscribed (accountId : Int) (mailboxName : String) (subscribed : Bool) :
    Action (Option (Row Mailbox)) := do
  let updated ← await (.setMailboxSubscribed accountId mailboxName subscribed)
  forEach updated.toList fun row => publishEvent (.mailboxChanged (some row.data.accountId)
    (some row.id) ("set_mailbox_subscribed:" ++ toString subscribed))
  pure updated

def deleteMailbox (accountId : Int) (mailboxName : String) : Action Nat := do
  let rowsAffected ← await (.deleteMailbox accountId mailboxName)
  onlyIf (rowsAffected > 0) (publishEvent
    (.mailboxChanged (some accountId) none ("delete_mailbox:" ++ mailboxName)))
  pure rowsAffected

def refreshMailboxCounts (mailboxId : Int) : Action Unit := do
  await (.refreshMailboxCounts mailboxId)
  let accountId ← await (.accountIdForMailbox mailboxId)
  publishEvent (.mailboxChanged accountId (some mailboxId) "refresh_mailbox_counts")

/-! ## Messages -/

def upsertMessage (input : Message) : Action (Row Message) := do
  let row ← await (.upsertMessage input)
  publishEvent (.messageChanged (some row.data.accountId) none (some row.id) "upsert_message")
  pure row

/-- A mapping is recorded under the UIDVALIDITY that the mailbox has at that moment. -/
def recordUidMapping (mailboxId localUid upstreamUid : Int) : Action Unit := do
  let uidvalidity ← await (.mailboxUidvalidity mailboxId)
  await (.upsertUidMapping mailboxId localUid upstreamUid uidvalidity)

/-- The mapping of a row that has an upstream UID. -/
def recordRowMapping (row : Row MailboxMessage) : Action Unit :=
  match row.data.upstreamUid with
  | some upstreamUid => recordUidMapping row.data.mailboxId row.data.localUid upstreamUid
  | none => pure ()

def upsertMailboxMessage (input : MailboxMessage) : Action (Row MailboxMessage) := do
  let (row, sequenceNumber) ← await (.insertMailboxMessage input)
  let accountId ← await (.accountIdForMailbox row.data.mailboxId)
  recordRowMapping row
  publishEvent (.messageChangedWithContext accountId (some row.data.mailboxId)
    (some row.data.messageId) (some row.data.localUid) (some sequenceNumber) row.data.flags
    "upsert_mailbox_message")
  pure row

def setMailboxMessageUpstreamUid (mailboxId localUid upstreamUid : Int) :
    Action (Option (Row MailboxMessage)) := do
  let row ← await (.setMailboxMessageUpstreamUid mailboxId localUid upstreamUid)
  onlyIf row.isSome (recordUidMapping mailboxId localUid upstreamUid)
  pure row

def upstreamUidForMailboxMessage (mailboxId localUid : Int) : Action (Option Int) := do
  let uidvalidity ← await (.mailboxUidvalidity mailboxId)
  let upstreamUid ← await (.messageUpstreamUid mailboxId localUid)
  if upstreamUid.isSome then
    pure upstreamUid
  else
    await (.mappedUpstreamUid mailboxId localUid uidvalidity)

def updateMailboxMessageFlags (mailboxId localUid : Int) (flags : List String) :
    Action (Option (Row MailboxMessage)) := do
  let updated ← await (.updateMailboxMessageFlags mailboxId localUid flags)
  match updated with
  | some (row, sequenceNumber) => do
      let accountId ← await (.accountIdForMailbox row.data.mailboxId)
      publishEvent (.messageChangedWithContext accountId (some row.data.mailboxId)
        (some row.data.messageId) (some row.data.localUid) (some sequenceNumber) row.data.flags
        "update_mailbox_message_flags")
      pure (some row)
  | none => pure none

def copyMailboxMessage (sourceMailboxId destinationMailboxId sourceLocalUid : Int) :
    Action (Option (Row MailboxMessage)) := do
  let copied ← await (.copyMailboxMessage sourceMailboxId destinationMailboxId sourceLocalUid)
  match copied with
  | none => pure none
  | some (row, source, sequenceNumber) => do
      let accountId ← await (.accountIdForMailbox destinationMailboxId)
      let accountId ← orThrow accountId (.storage
        ("mailbox not found for cache refcount update: " ++ toString destinationMailboxId))
      let objects ← await (.listMessageCacheObjects accountId source.data.messageId)
      forEach objects fun object =>
        await (.upsertCacheObject
          { accountId := some accountId, objectType := object.objectType, blobKey := object.blobKey
            sha256 := object.sha256, sizeOctets := object.sizeOctets, refCount := 1
            lastAccessedAt := none })
      publishEvent (.messageChangedWithContext (some accountId) (some destinationMailboxId)
        (some row.data.messageId) (some row.data.localUid) (some sequenceNumber) row.data.flags
        "copy_mailbox_message")
      pure (some row)

def deleteMailboxMessage (mailboxId localUid : Int) : Action Nat := do
  let deleted ← await (.deleteMailboxMessage mailboxId localUid)
  match deleted with
  | none => pure 0
  | some (messageId, sequenceNumber) => do
      let accountId ← await (.accountIdForMailbox mailboxId)
      let accountId ← orThrow accountId (.storage
        ("mailbox not found for cache refcount update: " ++ toString mailboxId))
      let objects ← await (.listMessageCacheObjects accountId messageId)
      forEach objects fun object => do
        let _ ← await (.deleteCacheObjectForAccount accountId object.blobKey)
        pure ()
      publishEvent (.messageChangedWithContext (some accountId) (some mailboxId) none
        (some localUid) (some sequenceNumber) []
        ("delete_mailbox_message:" ++ toString localUid))
      pure 1

/-! ## Pending mutations -/

def enqueueMutation (input : PendingMutation) : Action (Row PendingMutation) := do
  let row ← await (.enqueueMutation input)
  publishEvent (.pendingMutationChanged (some row.data.accountId) (some row.data.mailboxId)
    (some row.id) "enqueue_mutation")
  pure row

def MutationStatus.text : MutationStatus → String
  | .pending => "pending"
  | .inFlight => "in_flight"
  | .succeeded => "succeeded"
  | .failed => "failed"
  | .deadLetter => "dead_letter"

def updatePendingMutation (id : Int) (status : MutationStatus) (attempts : Int)
    (nextAttemptAt : Option Time) : Action (Row PendingMutation) := do
  let row ← await (.updatePendingMutation id status attempts nextAttemptAt)
  publishEvent (.pendingMutationChanged (some row.data.accountId) (some row.data.mailboxId)
    (some row.id) ("update_pending_mutation:" ++ MutationStatus.text status))
  pure row

end ImapCache.Repository
