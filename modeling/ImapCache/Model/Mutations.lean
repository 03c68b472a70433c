import ImapCache.Model.Repository

/-!
# The mutation engine

`MutationEngine`: client changes are queued as rows of `pending_mutations` with a JSON payload,
and a flush applies the due ones upstream, in the order of their creation, until one fails.
-/

namespace ImapCache.Mutations
open Lib Prog Repository

/-! ## Queueing -/

/-- `to_be_bytes` of a 64-bit integer. -/
def toBeBytes (x : Int) : Bytes :=
  (List.range 8).reverse.map fun i => UInt8.ofNat (i64AsU64 x / 256 ^ i % 256)

def utf8 (s : String) : Bytes := s.toByteArray.data.toList

def idempotencyKey (lib : Libraries) (accountId mailboxId : Int) (mutationType : MutationType)
    (payloadJson : Json) : String :=
  lib.sha256 (toBeBytes accountId ++ toBeBytes mailboxId ++ utf8 mutationType.text ++
    utf8 (lib.jsonToString payloadJson))

/-- The queue entry of a payload: pending, never attempted and due at once. -/
def newPendingMutation (lib : Libraries) (accountId mailboxId : Int) (messageId : Option Int)
    (mutationType : MutationType) (payloadJson : Json) : PendingMutation :=
  { accountId, mailboxId, messageId, mutationType, payloadJson, status := .pending, attempts := 0
    nextAttemptAt := none
    idempotencyKey := idempotencyKey lib accountId mailboxId mutationType payloadJson
    createdAt := 0 }

def appendPayload (lib : Libraries) (mailboxId : Int) (mailboxName : String) (localUid : Option Int)
    (blobKey : String) (flags : List String) (internalDate : Option Int) : Json :=
  .obj [("mailbox", .str mailboxName), ("mailbox_id", .num mailboxId),
    ("local_uid", .ofOption .num localUid), ("blob_key", .str blobKey), ("flags", .strings flags),
    ("internal_date", .ofOption (fun date => .str (lib.toRfc3339 date)) internalDate)]

def queueAppend (lib : Libraries) (accountId mailboxId : Int) (mailboxName : String)
    (localUid : Option Int) (raw : Bytes) (flags : List String) (internalDate : Option Int) :
    Action (Row PendingMutation) := do
  let blobKey := contentAddressedKey lib .rfc822 raw
  let metadata ← await (.putObject blobKey raw)
  let payload := appendPayload lib mailboxId mailboxName localUid metadata.key flags internalDate
  enqueueMutation (newPendingMutation lib accountId mailboxId none .append payload)

def flagPayload (localUid : Int) (flags : List String) : Json :=
  .obj [("local_uid", .num localUid), ("flags", .strings flags)]

def queueFlagUpdate (lib : Libraries) (accountId mailboxId : Int) (messageId : Option Int)
    (localUid : Int) (flags : List String) : Action (Row PendingMutation) :=
  enqueueMutation
    (newPendingMutation lib accountId mailboxId messageId .storeFlags (flagPayload localUid flags))

/-- Where a copied or moved message comes from and goes to. -/
structure Transfer where
  sourceMailboxId : Int
  destinationMailboxId : Int
  sourceMailbox : String
  destinationMailbox : String
  localUid : Int
  destinationLocalUid : Int
  flags : List String
deriving DecidableEq, Repr

def transferPayload (transfer : Transfer) : Json :=
  .obj [("source_mailbox_id", .num transfer.sourceMailboxId),
    ("source_mailbox", .str transfer.sourceMailbox),
    ("destination_mailbox_id", .num transfer.destinationMailboxId),
    ("destination_mailbox", .str transfer.destinationMailbox),
    ("local_uid", .num transfer.localUid),
    ("destination_local_uid", .num transfer.destinationLocalUid),
    ("flags", .strings transfer.flags)]

def queueTransfer (lib : Libraries) (mutationType : MutationType) (accountId : Int)
    (transfer : Transfer) : Action (Row PendingMutation) :=
  enqueueMutation (newPendingMutation lib accountId transfer.sourceMailboxId none mutationType
    (transferPayload transfer))

def queueCopyMessage (lib : Libraries) (accountId : Int) (transfer : Transfer) :
    Action (Row PendingMutation) := queueTransfer lib .copyMessage accountId transfer

def queueMoveMessage (lib : Libraries) (accountId : Int) (transfer : Transfer) :
    Action (Row PendingMutation) := queueTransfer lib .moveMessage accountId transfer

/-! ## Applying -/

def requireStr (payload : Json) (key message : String) : Action String :=
  orThrow ((payload.get key).bind Json.asStr) (.parse message)

def requireI64 (payload : Json) (key message : String) : Action Int :=
  orThrow ((payload.get key).bind Json.asI64) (.parse message)

/-- The optional `internal_date` of an append payload. -/
def payloadDate (lib : Libraries) (payload : Json) : Except Error (Option Int) :=
  match (payload.get "internal_date").bind Json.asStr with
  | none => .ok none
  | some value =>
      match lib.parseRfc3339 value with
      | .ok date => .ok (some date)
      | .error err => .error (.parse ("invalid append internal_date " ++ value ++ ": " ++ err))

def applyAppend (lib : Libraries) (connection : Nat) (payload : Json) : Action Unit := do
  let mailbox ← requireStr payload "mailbox" "append mutation missing mailbox"
  let mailboxId ← requireI64 payload "mailbox_id" "append mutation missing mailbox_id"
  let localUid := (payload.get "local_uid").bind Json.asI64
  let blobKey ← requireStr payload "blob_key" "append mutation missing blob_key"
  let flags := Json.stringItems (payload.get "flags")
  let internalDate ← ofExcept (payloadDate lib payload)
  let raw ← await (.getObject blobKey)
  let raw ← orThrow raw (.storage ("missing blob for append: " ++ blobKey))
  let appendUid ← await (.append connection mailbox flags internalDate raw)
  match appendUid, localUid with
  | some appendUid, some localUid => do
      let _ ← setMailboxMessageUpstreamUid mailboxId localUid (u64AsI64 appendUid)
      pure ()
  | _, _ => pure ()

/-- The payload's UID is sent as it is, to whichever mailbox the connection has selected. -/
def applyFlagUpdate (connection : Nat) (payload : Json) : Action Unit := do
  let localUid ← orThrow ((payload.get "local_uid").bind Json.asU64)
    (.parse "flag mutation missing local_uid")
  let flags := Json.stringItems (payload.get "flags")
  await (.uidStoreFlags connection localUid flags)

/-- The payload of a copy or a move; `kind` names the mutation in the errors. -/
def readTransfer (kind : String) (payload : Json) : Action Transfer := do
  let sourceMailboxId ← requireI64 payload "source_mailbox_id"
    (kind ++ " mutation missing source_mailbox_id")
  let sourceMailbox ← requireStr payload "source_mailbox"
    (kind ++ " mutation missing source_mailbox")
  let destinationMailbox ← requireStr payload "destination_mailbox"
    (kind ++ " mutation missing destination_mailbox")
  let destinationMailboxId ← requireI64 payload "destination_mailbox_id"
    (kind ++ " mutation missing destination_mailbox_id")
  let localUid ← requireI64 payload "local_uid" (kind ++ " mutation missing local_uid")
  let destinationLocalUid ← requireI64 payload "destination_local_uid"
    (kind ++ " mutation missing destination_local_uid")
  let flags := Json.stringItems (payload.get "flags")
  pure { sourceMailboxId, destinationMailboxId, sourceMailbox, destinationMailbox
         localUid, destinationLocalUid, flags }

/-- What a copy and a move share: find the source upstream, select its mailbox, copy the message
and record the UID of the copy. The result is the source's upstream UID. -/
def copyUpstream (kind : String) (connection : Nat) (transfer : Transfer) : Action Int := do
  let sourceUpstreamUid ← upstreamUidForMailboxMessage transfer.sourceMailboxId transfer.localUid
  let sourceUpstreamUid ← orThrow sourceUpstreamUid (.storage (kind ++
    " mutation missing upstream uid for mailbox " ++ toString transfer.sourceMailboxId ++ " uid " ++
    toString transfer.localUid))
  let _ ← await (.selectMailbox connection transfer.sourceMailbox)
  let destinationUpstreamUid ← await (.uidCopyMessage connection (i64AsU64 sourceUpstreamUid)
    transfer.destinationMailbox)
  let _ ← setMailboxMessageUpstreamUid transfer.destinationMailboxId transfer.destinationLocalUid
    (u64AsI64 destinationUpstreamUid)
  pure sourceUpstreamUid

def applyCopyMessage (connection : Nat) (payload : Json) : Action Unit := do
  let transfer ← readTransfer "copy" payload
  let _ ← copyUpstream "copy" connection transfer
  pure ()

def withDeleted (flags : List String) : List String :=
  if flags.any (eqIgnoreAsciiCase · "\\Deleted") then flags else flags ++ ["\\Deleted"]

def applyMoveMessage (connection : Nat) (payload : Json) : Action Unit := do
  let transfer ← readTransfer "move" payload
  let sourceUpstreamUid ← copyUpstream "move" connection transfer
  await (.uidStoreFlags connection (i64AsU64 sourceUpstreamUid) (withDeleted transfer.flags))
  await (.expungeSelected connection)

def applyMutation (lib : Libraries) (connection : Nat) (mutation : PendingMutation) : Action Unit :=
  match mutation.mutationType with
  | .append => applyAppend lib connection mutation.payloadJson
  | .storeFlags => applyFlagUpdate connection mutation.payloadJson
  | .copyMessage => applyCopyMessage connection mutation.payloadJson
  | .moveMessage => applyMoveMessage connection mutation.payloadJson
  | .other name => .throw (.storage ("unsupported mutation type: " ++ name))

/-! ## Flushing -/

/-- The backoff in seconds: doubled with each attempt, at most five minutes. -/
def retryDelay (attempt : Nat) : Time := min (2 ^ min attempt 10) 300

/-- The cast `as u32` of a 32-bit signed integer. -/
def i32AsU32 (x : Int) : Nat := (x % 4294967296).toNat

/-- One round of the flush; it carries the number of mutations applied. -/
def flushMutation (lib : Libraries) (connection : Nat) (applied : Nat)
    (mutation : Row PendingMutation) : Action Nat := do
  let inFlight ← updatePendingMutation mutation.id .inFlight (mutation.data.attempts + 1) none
  let result ← (applyMutation lib connection mutation.data).attempt
  match result with
  | .ok () => do
      let _ ← updatePendingMutation inFlight.id .succeeded inFlight.data.attempts none
      pure (applied + 1)
  | .error err => do
      let now ← await .clock
      let nextAttempt := now + retryDelay (i32AsU32 inFlight.data.attempts)
      let _ ← updatePendingMutation inFlight.id .failed inFlight.data.attempts (some nextAttempt)
      .throw err

def flushPendingMutations (lib : Libraries) (accountId : Int) (connection : Nat) : Action Nat := do
  let pending ← await (.listDuePendingMutations accountId)
  pending.foldlM (flushMutation lib connection) 0

end ImapCache.Mutations
