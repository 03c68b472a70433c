import ImapCache.Model.Repository

/-!
# Message ingestion

`MessageIngestor`: a raw message is parsed, checked against the quota, stored and recorded, and
its row is written between the records of its parts and those of its cache objects.
-/

namespace ImapCache.Ingest
open Lib Prog Repository

/-- The checked total of the raw message and its parts. -/
def estimateMessageBytes (raw : Bytes) (parsed : ParsedMessage) : Except Error Int :=
  let add (total : Int) (size : Nat) (large : String) : Except Error Int :=
    if (size : Int) > i64Max then .error (.storage large)
    else if total + size > i64Max then .error (.storage "message size calculation overflowed")
    else .ok (total + size)
  parsed.mimeParts.foldlM
    (fun total part => add total part.rawBytes.length "mime part size does not fit in i64")
    =<< add 0 raw.length "message size does not fit in i64"

def cacheObjectTypeForMimePart (part : MimePartRecord) : String :=
  if part.disposition == some "attachment" || part.filename.isSome then "Attachment" else "MimePart"

/-- The quota check at the head of `ingest_parsed_message`. -/
def checkQuota (accountId incomingBytes : Int) : Action Unit := do
  let quota ← await (.getAccountQuota accountId)
  match quota with
  | none => pure ()
  | some quota =>
      if quota.data.usedBytes + incomingBytes > i64Max then
        throw (.storage "account quota calculation overflowed")
      else if quota.data.usedBytes + incomingBytes > quota.data.maxBytes then
        throw (.storage ("account quota exceeded: used=" ++ toString quota.data.usedBytes ++
          " incoming=" ++ toString incomingBytes ++ " limit=" ++ toString quota.data.maxBytes))
      else pure ()

def newCacheObject (accountId : Int) (objectType : String) (metadata : ObjectMetadata) :
    CacheObject :=
  { accountId := some accountId, objectType, blobKey := metadata.key, sha256 := metadata.sha256
    sizeOctets := metadata.sizeOctets, refCount := 1, lastAccessedAt := none }

/-- One round of the loop over the MIME parts; it carries the accounted bytes. -/
def ingestPart (accountId messageId : Int) (accountedBytes : Int) (part : MimePartRecord) :
    Action Int := do
  let metadata ← await (.putObject part.blobKey part.rawBytes)
  await (.insertMimePart
    { messageId, partPath := part.partPath, contentType := part.contentType
      charset := part.charset, disposition := part.disposition, filename := part.filename
      contentId := part.contentId, sizeOctets := part.sizeOctets, blobKey := metadata.key
      sha256 := metadata.sha256, transferEncoding := part.transferEncoding
      metadataJson := part.metadataJson })
  await (.upsertCacheObject (newCacheObject accountId (cacheObjectTypeForMimePart part) metadata))
  pure (accountedBytes + metadata.sizeOctets)

structure IngestedMessage where
  messageId : Int
  mailboxMessageId : Int
  localUid : Int
  blobKey : String
deriving DecidableEq, Repr

/-- What every call of the ingestor takes: where the message goes and what is known of it. -/
structure Target where
  accountId : Int
  mailboxId : Int
  mailboxName : String
  localUid : Int
  upstreamUid : Option Int
  internalDate : Option Int
  flags : List String
  /-- Whether the ingestor has a search index. -/
  indexed : Bool
deriving DecidableEq, Repr

/-- The object and the records of a message that precede its row in the mailbox. -/
def recordMessage (lib : Libraries) (target : Target) (raw : Bytes) (parsed : ParsedMessage) :
    Action (ObjectMetadata × Row Message × Int) := do
  let blobKey := contentAddressedKey lib .rfc822 raw
  let metadata ← await (.putObject blobKey raw)
  let message ← upsertMessage
    { accountId := target.accountId, rfc822BlobKey := metadata.key
      rfc822Sha256 := parsed.rawSha256, messageIdHeader := parsed.messageIdHeader
      subject := parsed.subject, fromJson := parsed.fromJson, toJson := parsed.toJson
      ccJson := parsed.ccJson, bccJson := parsed.bccJson, replyToJson := parsed.replyToJson
      envelopeJson := parsed.envelopeJson, bodystructureJson := parsed.bodystructureJson
      internalDate := target.internalDate, sentDate := none, sizeOctets := parsed.sizeOctets
      textPreview := parsed.textPreview }
  onlyIf (!parsed.mimeParts.isEmpty) (await (.deleteMimePartsForMessage message.id))
  let accountedBytes ← parsed.mimeParts.foldlM (ingestPart target.accountId message.id)
    (metadata.sizeOctets : Int)
  pure (metadata, message, accountedBytes)

def newMailboxMessage (target : Target) (messageId : Int) : MailboxMessage :=
  { mailboxId := target.mailboxId, messageId, localUid := target.localUid
    upstreamUid := target.upstreamUid, modseq := none, flags := target.flags, keywords := []
    isExpunged := false, expungedAt := none }

/-- The cache object, the search document and the quota usage, after the row. The document is
indexed under the UID the caller passed, which is 0 for an appended message. -/
def accountMessage (target : Target) (parsed : ParsedMessage) (metadata : ObjectMetadata)
    (accountedBytes : Int) : Action Unit := do
  await (.upsertCacheObject (newCacheObject target.accountId "rfc822" metadata))
  onlyIf target.indexed (await (.indexMessage target.mailboxName (i64AsU64 target.localUid)
    { parsed with mimeParts := [] }))
  await (.adjustAccountQuotaUsage target.accountId accountedBytes)

def ingestParsedMessage (lib : Libraries) (target : Target) (raw : Bytes) (parsed : ParsedMessage) :
    Action IngestedMessage := do
  let incomingBytes ← ofExcept (estimateMessageBytes raw parsed)
  checkQuota target.accountId incomingBytes
  let (metadata, message, accountedBytes) ← recordMessage lib target raw parsed
  let mailboxMessage ← upsertMailboxMessage (newMailboxMessage target message.id)
  accountMessage target parsed metadata accountedBytes
  pure ⟨message.id, mailboxMessage.id, mailboxMessage.data.localUid, metadata.key⟩

def ingestRawMessage (lib : Libraries) (target : Target) (raw : Bytes) : Action IngestedMessage := do
  let parsed ← ofExcept (lib.parseMessage raw)
  ingestParsedMessage lib target raw parsed

end ImapCache.Ingest
