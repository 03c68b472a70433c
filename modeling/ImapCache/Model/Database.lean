import ImapCache.Model.Responses

/-!
# The database

The tables of the schema and the SQL of the repository. Each definition is one statement, or one
transaction with everything between its `begin` and its `commit`: it either has its whole effect
or fails and has none.
-/

namespace ImapCache
open Lib

def mailboxKeys : Constraint Mailbox := .unique fun m => some (m.accountId, m.canonicalName)

/-- `UNIQUE(mailbox_id, local_uid)` and the partial index on `(mailbox_id, upstream_uid)`. -/
def mailboxMessageKeys : Constraint MailboxMessage :=
  (Constraint.unique fun m => some (m.mailboxId, m.localUid)).and
    (.unique fun m => m.upstreamUid.map fun uid => (m.mailboxId, uid))

def uidMappingKeys : Constraint UidMapping :=
  (Constraint.unique fun m => some (m.mailboxId, m.localUid)).and
    (.unique fun m => some (m.mailboxId, m.upstreamUid))

def syncStateKeys : Constraint SyncState :=
  .unique fun s => s.mailboxId.map fun mailboxId => (s.accountId, mailboxId)

def pendingMutationKeys : Constraint PendingMutation := .unique fun m => some m.idempotencyKey

def cacheObjectKeys : Constraint CacheObject :=
  .unique fun o => o.accountId.map fun accountId => (accountId, o.objectType, o.blobKey)

def quotaKeys : Constraint Quota := .unique (·.accountId)

def userKeys : Constraint User := .unique fun u => some u.usernameEmail

def sessionKeys : Constraint SessionRecord := .unique fun s => some s.connectionId

structure Db where
  accounts : Table MailAccount (.free _)
  mailboxes : Table Mailbox mailboxKeys
  messages : Table Message (.free _)
  mailboxMessages : Table MailboxMessage mailboxMessageKeys
  mimeParts : Table MimePart (.free _)
  uidMappings : Table UidMapping uidMappingKeys
  syncStates : Table SyncState syncStateKeys
  pendingMutations : Table PendingMutation pendingMutationKeys
  cacheObjects : Table CacheObject cacheObjectKeys
  quotas : Table Quota quotaKeys
  users : Table User userKeys
  sessions : Table SessionRecord sessionKeys
  auditLog : Table AuditLogEntry (.free _)

namespace Db

def empty : Db :=
  ⟨.empty, .empty, .empty, .empty, .empty, .empty, .empty, .empty, .empty, .empty, .empty, .empty, .empty⟩

def hasAccount (db : Db) (id : Int) : Bool := (db.accounts.find (·.id == id)).isSome

def mailbox (db : Db) (id : Int) : Option (Row Mailbox) := db.mailboxes.find (·.id == id)

def hasUser (db : Db) (id : Int) : Bool := (db.users.find (·.id == id)).isSome

def message (db : Db) (id : Int) : Option (Row Message) := db.messages.find (·.id == id)

def uniqueViolation (constraint : String) : Error := .sqlx (.uniqueViolation constraint)

def foreignKeyViolation (constraint : String) : Error := .sqlx (.foreignKeyViolation constraint)

/-! ## Users and accounts -/

/-- `ORDER BY id DESC LIMIT 1`. -/
def newest {α : Type} (rows : List (Row α)) : Option (Row α) :=
  (rows.insertionSort fun a b => b.id ≤ a.id).head?

def findUserByUsername (lower : String → String) (db : Db) (username : String) :
    Option (Row User) :=
  newest (db.users.rows.filter fun row => lower row.data.usernameEmail == lower username)

def findAccountByEmailAddressAnyState (lower : String → String) (db : Db) (emailAddress : String) :
    Option (Row MailAccount) :=
  newest (db.accounts.rows.filter fun row => lower row.data.emailAddress == lower emailAddress)

def findAccountByEmailAddress (lower : String → String) (db : Db) (emailAddress : String) :
    Option (Row MailAccount) :=
  newest (db.accounts.rows.filter fun row =>
    lower row.data.emailAddress == lower emailAddress && row.data.disabledAt.isNone)

def listAccountsForUser (db : Db) (userId : Int) : List (Row MailAccount) :=
  (db.accounts.rows.filter fun row =>
    row.data.userId == userId && row.data.disabledAt.isNone).insertionSort fun a b => a.id ≤ b.id

def findAccountByIdAnyState (db : Db) (accountId : Int) : Option (Row MailAccount) :=
  db.accounts.find (·.id == accountId)

def setMailAccountSyncStatus (db : Db) (accountId : Int) (at' : Option Time)
    (error : Option String) : Except Error (Unit × Db) :=
  match db.accounts.modify (·.id == accountId)
      fun account => { account with lastSyncAt := at', lastSyncError := error } with
  | some accounts => .ok ((), { db with accounts })
  | none => .ok ((), db)

/-! ## Sessions and the audit log -/

def createSession (db : Db) (input : SessionRecord) : Except Error (Row SessionRecord × Db) :=
  if !db.hasUser input.userId then .error (foreignKeyViolation "sessions_user_id_fkey")
  else if !input.accountId.all db.hasAccount then
    .error (foreignKeyViolation "sessions_account_id_fkey")
  else
    match db.sessions.insert input with
    | some (row, sessions) => .ok (row, { db with sessions })
    | none => .error (uniqueViolation "sessions_connection_id_key")

/-- `COALESCE(disconnected_at, NOW())`. -/
def markSessionDisconnected (db : Db) (now : Time) (connectionId : Uuid) :
    Except Error (Option (Row SessionRecord) × Db) :=
  match db.sessions.modify (·.data.connectionId == connectionId)
      fun session => { session with disconnectedAt := session.disconnectedAt.or (some now) } with
  | some sessions => .ok (sessions.find (·.data.connectionId == connectionId), { db with sessions })
  | none => .error (uniqueViolation "sessions_connection_id_key")

def recordAuditLog (db : Db) (input : AuditLogEntry) : Except Error (Row AuditLogEntry × Db) :=
  if !input.userId.all db.hasUser then .error (foreignKeyViolation "audit_log_user_id_fkey")
  else if !input.accountId.all db.hasAccount then
    .error (foreignKeyViolation "audit_log_account_id_fkey")
  else
    match db.auditLog.insert input with
    | some (row, auditLog) => .ok (row, { db with auditLog })
    | none => .error (uniqueViolation "audit_log_pkey")

/-! ## Mailboxes -/

/-- `account_id = $1 AND (name = $2 OR canonical_name = lower($2))`. -/
def namedMailbox (accountId : Int) (mailboxName : String) (row : Row Mailbox) : Bool :=
  row.data.accountId == accountId &&
    (row.data.name == mailboxName || row.data.canonicalName == toAsciiLowercase mailboxName)

def findMailbox (db : Db) (accountId : Int) (mailboxName : String) : Option (Row Mailbox) :=
  ((db.mailboxes.rows.filter (namedMailbox accountId mailboxName)).insertionSort
    fun a b => b.id ≤ a.id).head?

def listMailboxes (db : Db) (accountId : Int) : List (Row Mailbox) :=
  (db.mailboxes.rows.filter fun row => row.data.accountId == accountId).insertionSort fun a b =>
    a.data.canonicalName < b.data.canonicalName ∨
      (a.data.canonicalName = b.data.canonicalName ∧ a.id ≤ b.id)

def upsertMailbox (db : Db) (input : Mailbox) : Except Error (Row Mailbox × Db) :=
  if !db.hasAccount input.accountId then
    .error (foreignKeyViolation "mailboxes_account_id_fkey")
  else
    match db.mailboxes.upsert
        (fun row => row.data.accountId == input.accountId &&
          row.data.canonicalName == input.canonicalName) (fun _ => input) input with
    | some (row, mailboxes) => .ok (row, { db with mailboxes })
    | none => .error (uniqueViolation "mailboxes_account_id_canonical_name_key")

/-- `ON CONFLICT (account_id, canonical_name) DO NOTHING`: no row when there is one already. -/
def createMailbox (db : Db) (input : Mailbox) : Except Error (Option (Row Mailbox) × Db) :=
  if db.mailboxes.rows.any fun row => row.data.accountId == input.accountId &&
      row.data.canonicalName == input.canonicalName then
    .ok (none, db)
  else if !db.hasAccount input.accountId then
    .error (foreignKeyViolation "mailboxes_account_id_fkey")
  else
    match db.mailboxes.insert input with
    | some (row, mailboxes) => .ok (some row, { db with mailboxes })
    | none => .error (uniqueViolation "mailboxes_account_id_canonical_name_key")

/-- An `UPDATE` of the mailboxes of that name, which returns one of the rows it changed. -/
def updateNamedMailbox (db : Db) (accountId : Int) (mailboxName : String)
    (change : Mailbox → Mailbox) : Except Error (Option (Row Mailbox) × Db) :=
  match db.mailboxes.modify (namedMailbox accountId mailboxName) change with
  | none => .error (uniqueViolation "mailboxes_account_id_canonical_name_key")
  | some mailboxes =>
      .ok ((db.mailboxes.find (namedMailbox accountId mailboxName)).bind fun old =>
        mailboxes.find (·.id == old.id), { db with mailboxes })

def renameMailbox (db : Db) (accountId : Int) (mailboxName newName : String) :
    Except Error (Option (Row Mailbox) × Db) :=
  db.updateNamedMailbox accountId mailboxName fun mailbox =>
    { mailbox with name := newName, canonicalName := toAsciiLowercase newName }

def setMailboxSubscribed (db : Db) (accountId : Int) (mailboxName : String) (subscribed : Bool) :
    Except Error (Option (Row Mailbox) × Db) :=
  db.updateNamedMailbox accountId mailboxName fun mailbox => { mailbox with subscribed }

/-- Deletes the mailboxes of that name and, through `ON DELETE CASCADE`, what refers to them. -/
def deleteMailbox (db : Db) (accountId : Int) (mailboxName : String) : Nat × Db :=
  let gone := db.mailboxes.rows.filter (namedMailbox accountId mailboxName)
  let refers (mailboxId : Int) : Bool := gone.any (·.id == mailboxId)
  (gone.length,
    { db with
      mailboxes := db.mailboxes.remove (namedMailbox accountId mailboxName)
      mailboxMessages := db.mailboxMessages.remove fun row => refers row.data.mailboxId
      uidMappings := db.uidMappings.remove fun row => refers row.data.mailboxId
      syncStates := db.syncStates.remove fun row => row.data.mailboxId.any refers
      pendingMutations := db.pendingMutations.remove fun row => refers row.data.mailboxId })

def updateMailboxSyncMetadata (db : Db) (mailboxId : Int) (selection : SelectedMailboxInfo) :
    Except Error (Unit × Db) :=
  match db.mailboxes.modify (·.id == mailboxId) fun mailbox =>
      { mailbox with
        uidvalidity := selection.uidvalidity.or mailbox.uidvalidity
        uidnext := selection.uidnext.or mailbox.uidnext
        highestmodseq := selection.highestmodseq.or mailbox.highestmodseq
        existsCount := selection.exists'.getD mailbox.existsCount
        recentCount := selection.recent.getD mailbox.recentCount
        unseenCount := selection.unseen.getD mailbox.unseenCount } with
  | some mailboxes => .ok ((), { db with mailboxes })
  | none => .error (uniqueViolation "mailboxes_account_id_canonical_name_key")

def accountIdForMailbox (db : Db) (mailboxId : Int) : Option Int :=
  (db.mailbox mailboxId).map (·.data.accountId)

/-- The stored UIDVALIDITY, 1 while there is none. -/
def mailboxUidvalidity (db : Db) (mailboxId : Int) : Int :=
  ((db.mailbox mailboxId).bind (·.data.uidvalidity)).getD 1

/-! ## Messages of a mailbox -/

/-- The rows `WHERE mailbox_id = $1 AND is_expunged = FALSE`. -/
def liveMessages (db : Db) (mailboxId : Int) : List (Row MailboxMessage) :=
  db.mailboxMessages.rows.filter fun row => row.data.mailboxId == mailboxId && !row.data.isExpunged

/-- The row `WHERE mailbox_id = $1 AND local_uid = $2 AND is_expunged = FALSE`. -/
def isLiveAt (mailboxId localUid : Int) (row : Row MailboxMessage) : Bool :=
  row.data.mailboxId == mailboxId && row.data.localUid == localUid && !row.data.isExpunged

def listMailboxMessages (db : Db) (mailboxId : Int) : List (Row MailboxMessage) :=
  (db.liveMessages mailboxId).insertionSort fun a b => a.data.localUid ≤ b.data.localUid

def messageView (createdAt : Int → Int) (row : Row MailboxMessage) (message : Row Message) :
    MailboxMessageView :=
  { id := row.id, mailboxId := row.data.mailboxId, messageId := row.data.messageId
    localUid := row.data.localUid, upstreamUid := row.data.upstreamUid, modseq := row.data.modseq
    flags := row.data.flags, keywords := row.data.keywords, createdAt := createdAt row.id
    rfc822BlobKey := message.data.rfc822BlobKey, subject := message.data.subject
    envelopeJson := message.data.envelopeJson
    bodystructureJson := message.data.bodystructureJson
    internalDate := message.data.internalDate, sentDate := message.data.sentDate
    sizeOctets := message.data.sizeOctets, textPreview := message.data.textPreview }

/-- The live rows of a mailbox joined with their messages. -/
def listMailboxMessageViews (createdAt : Int → Int) (db : Db) (mailboxId : Int) :
    List MailboxMessageView :=
  (db.listMailboxMessages mailboxId).filterMap fun row =>
    (db.message row.data.messageId).map (messageView createdAt row)

/-- One more than the largest UID among the rows that are left. -/
def assignMailboxLocalUid (db : Db) (mailboxId : Int) : Except Error Int :=
  match db.mailbox mailboxId with
  | none => .error (.sqlx .rowNotFound)
  | some _ =>
      match ((db.liveMessages mailboxId).map (·.data.localUid)).max? with
      | none => .ok 1
      | some uid => if uid < i64Max then .ok (uid + 1) else .error (.sqlx .outOfRange)

def assignMailboxModseq (db : Db) (mailboxId : Int) (requested : Option Int) :
    Except Error (Int × Db) :=
  match db.mailbox mailboxId with
  | none => .error (.sqlx .rowNotFound)
  | some row =>
      let current := row.data.highestmodseq.getD 0
      let assigned := requested.getD (saturatingSucc current)
      let next := max assigned current
      if next = current then .ok (next, db)
      else
        match db.mailboxes.modify (·.id == mailboxId)
            fun mailbox => { mailbox with highestmodseq := some next } with
        | some mailboxes => .ok (next, { db with mailboxes })
        | none => .error (uniqueViolation "mailboxes_account_id_canonical_name_key")

def mailboxSequenceNumber (db : Db) (mailboxId localUid : Int) : Int :=
  ((db.liveMessages mailboxId).filter fun row => row.data.localUid < localUid).length + 1

/-- The UID of a row to be written: a new one in the place of 0. -/
def chooseLocalUid (db : Db) (mailboxId requested : Int) : Except Error Int :=
  if requested = 0 then db.assignMailboxLocalUid mailboxId else .ok requested

/-- The transaction of `upsert_mailbox_message`. -/
def insertMailboxMessage (db : Db) (input : MailboxMessage) :
    Except Error ((Row MailboxMessage × Int) × Db) := do
  let localUid ← db.chooseLocalUid input.mailboxId input.localUid
  let (modseq, db) ← db.assignMailboxModseq input.mailboxId input.modseq
  let excluded := { input with localUid, modseq := some modseq }
  match db.mailboxMessages.upsert
      (fun row => row.data.mailboxId == input.mailboxId && row.data.localUid == localUid)
      (fun _ => excluded) excluded with
  | none => throw (uniqueViolation "mailbox_messages_mailbox_upstream_uid_idx")
  | some (row, mailboxMessages) =>
      if (db.message input.messageId).isNone then
        throw (foreignKeyViolation "mailbox_messages_message_id_fkey")
      else
        let db := { db with mailboxMessages }
        pure ((row, db.mailboxSequenceNumber input.mailboxId localUid), db)

def setMailboxMessageUpstreamUid (db : Db) (mailboxId localUid upstreamUid : Int) :
    Except Error (Option (Row MailboxMessage) × Db) :=
  match db.mailboxMessages.modify (isLiveAt mailboxId localUid)
      fun message => { message with upstreamUid := some upstreamUid } with
  | none => .error (uniqueViolation "mailbox_messages_mailbox_upstream_uid_idx")
  | some mailboxMessages =>
      .ok (mailboxMessages.find (isLiveAt mailboxId localUid), { db with mailboxMessages })

/-- The transaction of `update_mailbox_message_flags`: the sequence advances with or without a
row to change. -/
def updateMailboxMessageFlags (db : Db) (mailboxId localUid : Int) (flags : List String) :
    Except Error (Option (Row MailboxMessage × Int) × Db) := do
  let (modseq, db) ← db.assignMailboxModseq mailboxId none
  match db.mailboxMessages.modify (isLiveAt mailboxId localUid)
      fun message => { message with flags, modseq := some modseq } with
  | none => throw (uniqueViolation "mailbox_messages_mailbox_id_local_uid_key")
  | some mailboxMessages =>
      let db := { db with mailboxMessages }
      pure ((mailboxMessages.find (isLiveAt mailboxId localUid)).map
        fun row => (row, db.mailboxSequenceNumber mailboxId localUid), db)

/-- The transaction of `copy_mailbox_message`: the new row, its source and its position. -/
def copyMailboxMessage (db : Db) (sourceMailboxId destinationMailboxId sourceLocalUid : Int) :
    Except Error (Option (Row MailboxMessage × Row MailboxMessage × Int) × Db) :=
  match db.mailboxMessages.find (isLiveAt sourceMailboxId sourceLocalUid) with
  | none => .ok (none, db)
  | some source => do
      let nextUid ← db.assignMailboxLocalUid destinationMailboxId
      let (modseq, db) ← db.assignMailboxModseq destinationMailboxId none
      match db.mailboxMessages.insert
          { mailboxId := destinationMailboxId
            messageId := source.data.messageId
            localUid := nextUid
            upstreamUid := none
            modseq := some modseq
            flags := source.data.flags
            keywords := source.data.keywords
            isExpunged := false
            expungedAt := none } with
      | none => throw (uniqueViolation "mailbox_messages_mailbox_id_local_uid_key")
      | some (row, mailboxMessages) =>
          let db := { db with mailboxMessages }
          pure (some (row, source, db.mailboxSequenceNumber destinationMailboxId nextUid), db)

/-- The transaction of `delete_mailbox_message`: the message of the deleted row and its former
position. -/
def deleteMailboxMessage (db : Db) (mailboxId localUid : Int) :
    Except Error (Option (Int × Int) × Db) :=
  match db.mailboxMessages.find (isLiveAt mailboxId localUid) with
  | none => .ok (none, db)
  | some target => do
      let sequenceNumber := db.mailboxSequenceNumber mailboxId localUid
      let (_, db) ← db.assignMailboxModseq mailboxId none
      pure (some (target.data.messageId, sequenceNumber),
        { db with mailboxMessages := db.mailboxMessages.remove (isLiveAt mailboxId localUid) })

/-- The statement compares with the text of its SQL literal, which has two backslashes. -/
def refreshMailboxCounts (db : Db) (mailboxId : Int) : Except Error (Unit × Db) :=
  let live := db.liveMessages mailboxId
  match db.mailboxes.modify (·.id == mailboxId) fun mailbox =>
      { mailbox with
        existsCount := live.length
        unseenCount := (live.filter fun row => !row.data.flags.contains "\\\\Seen").length } with
  | some mailboxes => .ok ((), { db with mailboxes })
  | none => .error (uniqueViolation "mailboxes_account_id_canonical_name_key")

/-! ## UID mappings -/

def upsertUidMapping (db : Db) (mailboxId localUid upstreamUid upstreamUidvalidity : Int) :
    Except Error (Unit × Db) :=
  if (db.mailbox mailboxId).isNone then .error (foreignKeyViolation "uid_mappings_mailbox_id_fkey")
  else
    match db.uidMappings.upsert
        (fun row => row.data.mailboxId == mailboxId && row.data.localUid == localUid)
        (fun mapping => { mapping with upstreamUid, upstreamUidvalidity })
        { mailboxId, localUid, upstreamUid, upstreamUidvalidity } with
    | some (_, uidMappings) => .ok ((), { db with uidMappings })
    | none => .error (uniqueViolation "uid_mappings_mailbox_id_upstream_uid_key")

/-- The first query of `upstream_uid_for_mailbox_message`. Its column is read as an `i64`, so a
row whose `upstream_uid` is NULL is a decoding error. -/
def messageUpstreamUid (db : Db) (mailboxId localUid : Int) : Except Error (Option Int) :=
  match db.mailboxMessages.find (isLiveAt mailboxId localUid) with
  | none => .ok none
  | some row =>
      match row.data.upstreamUid with
      | some upstreamUid => .ok (some upstreamUid)
      | none => .error (.sqlx (.columnDecode "upstream_uid"))

/-- The second query of `upstream_uid_for_mailbox_message`. -/
def mappedUpstreamUid (db : Db) (mailboxId localUid upstreamUidvalidity : Int) : Option Int :=
  (db.uidMappings.find fun row => row.data.mailboxId == mailboxId &&
    row.data.localUid == localUid && row.data.upstreamUidvalidity == upstreamUidvalidity).map
      (·.data.upstreamUid)

/-! ## Sync states -/

def putSyncState (db : Db) (input : SyncState) : Except Error (Unit × Db) :=
  if !db.hasAccount input.accountId || input.mailboxId.any fun id => (db.mailbox id).isNone then
    .error (foreignKeyViolation "sync_state_mailbox_id_fkey")
  else
    match db.syncStates.upsert
        (fun row => row.data.mailboxId.isSome && row.data.accountId == input.accountId &&
          row.data.mailboxId == input.mailboxId)
        (fun _ => input) input with
    | some (_, syncStates) => .ok ((), { db with syncStates })
    | none => .error (uniqueViolation "sync_state_account_mailbox_unique")

def loadSyncState (db : Db) (accountId : Int) (mailboxId : Option Int) : Option (Row SyncState) :=
  ((db.syncStates.rows.filter fun row =>
    row.data.accountId == accountId && row.data.mailboxId == mailboxId).insertionSort
      fun a b => b.id ≤ a.id).head?

/-! ## Messages and their parts -/

def upsertMessage (db : Db) (input : Message) : Except Error (Row Message × Db) :=
  if !db.hasAccount input.accountId then .error (foreignKeyViolation "messages_account_id_fkey")
  else
    match db.messages.insert input with
    | some (row, messages) => .ok (row, { db with messages })
    | none => .error (uniqueViolation "messages_pkey")

def deleteMimePartsForMessage (db : Db) (messageId : Int) : Unit × Db :=
  ((), { db with mimeParts := db.mimeParts.remove fun row => row.data.messageId == messageId })

def insertMimePart (db : Db) (input : MimePart) : Except Error (Unit × Db) :=
  if (db.message input.messageId).isNone then
    .error (foreignKeyViolation "mime_parts_message_id_fkey")
  else
    match db.mimeParts.insert input with
    | some (_, mimeParts) => .ok ((), { db with mimeParts })
    | none => .error (uniqueViolation "mime_parts_pkey")

def findMimePartByMessageAndPath (db : Db) (accountId messageId : Int) (partPath : String) :
    Option (Row MimePart) :=
  db.mimeParts.find fun row => row.data.messageId == messageId && row.data.partPath == partPath &&
    (db.message messageId).any fun message => message.data.accountId == accountId

/-! ## Cache objects and quotas -/

def findCacheObjectByAccountTypeAndBlobKey (db : Db) (accountId : Int)
    (objectType blobKey : String) : Option (Row CacheObject) :=
  db.cacheObjects.find fun row => row.data.accountId == some accountId &&
    row.data.objectType == objectType && row.data.blobKey == blobKey

def touchCacheObject (db : Db) (now : Time) (accountId : Int) (blobKey : String) :
    Except Error (Nat × Db) :=
  let touched (row : Row CacheObject) : Bool :=
    row.data.accountId == some accountId && row.data.blobKey == blobKey
  match db.cacheObjects.modify touched fun object => { object with lastAccessedAt := some now } with
  | some cacheObjects =>
      .ok ((db.cacheObjects.rows.filter touched).length, { db with cacheObjects })
  | none => .error (uniqueViolation "cache_objects_account_object_type_blob_key_key")

def listMessageCacheObjects (db : Db) (accountId messageId : Int) : List CacheObjectReference :=
  let owned := db.messages.rows.filter fun row =>
    row.data.accountId == accountId && row.id == messageId
  let raw := owned.map fun row =>
    { objectType := "rfc822", blobKey := row.data.rfc822BlobKey, sha256 := row.data.rfc822Sha256,
      sizeOctets := row.data.sizeOctets }
  let parts := (db.mimeParts.rows.filter fun row =>
    row.data.messageId == messageId && !owned.isEmpty).map fun row =>
    { objectType := if row.data.disposition == some "attachment" || row.data.filename.isSome
        then "Attachment" else "MimePart"
      blobKey := row.data.blobKey, sha256 := row.data.sha256, sizeOctets := row.data.sizeOctets }
  (raw ++ parts).insertionSort fun a b =>
    a.objectType < b.objectType ∨ (a.objectType = b.objectType ∧ a.blobKey ≤ b.blobKey)

/-- The later of two times; an absent time counts as no bound. -/
def laterTime : Option Time → Option Time → Option Time
  | some a, some b => some (max a b)
  | a, none => a
  | none, b => b

def upsertCacheObject (db : Db) (input : CacheObject) : Except Error (Unit × Db) :=
  if input.accountId.any fun id => !db.hasAccount id then
    .error (foreignKeyViolation "cache_objects_account_id_fkey")
  else
    match db.cacheObjects.upsert
        (fun row => row.data.accountId.isSome && row.data.accountId == input.accountId &&
          row.data.objectType == input.objectType && row.data.blobKey == input.blobKey)
        (fun object => { object with
          sha256 := input.sha256
          sizeOctets := input.sizeOctets
          refCount := object.refCount + input.refCount
          lastAccessedAt := laterTime (input.lastAccessedAt.or object.lastAccessedAt)
            object.lastAccessedAt }) input with
    | some (_, cacheObjects) => .ok ((), { db with cacheObjects })
    | none => .error (uniqueViolation "cache_objects_account_object_type_blob_key_key")

/-- The references to a blob from the messages and parts of other accounts. -/
def countBlobKeyReferencesElsewhere (db : Db) (blobKey : String) (accountId : Int) : Nat :=
  (db.messages.rows.filter fun row =>
    row.data.rfc822BlobKey == blobKey && row.data.accountId != accountId).length +
  (db.mimeParts.rows.filter fun row => row.data.blobKey == blobKey &&
    (db.message row.data.messageId).any fun message => message.data.accountId != accountId).length

/-- The transaction of `delete_cache_object_for_account`. -/
def deleteCacheObjectForAccount (db : Db) (now : Time) (accountId : Int) (blobKey : String) :
    Except Error (Bool × Db) :=
  match db.cacheObjects.find fun row =>
      row.data.accountId == some accountId && row.data.blobKey == blobKey with
  | none => .ok (false, db)
  | some row =>
      if row.data.refCount > 1 then
        match db.cacheObjects.modify (·.id == row.id) fun object =>
            { object with refCount := object.refCount - 1, lastAccessedAt := some now } with
        | some cacheObjects => .ok (false, { db with cacheObjects })
        | none => .error (uniqueViolation "cache_objects_account_object_type_blob_key_key")
      else
        .ok (db.countBlobKeyReferencesElsewhere blobKey accountId == 0,
          { db with cacheObjects := db.cacheObjects.remove (·.id == row.id) })

def getAccountQuota (db : Db) (accountId : Int) : Option (Row Quota) :=
  db.quotas.find fun row => row.data.accountId == some accountId

def adjustAccountQuotaUsage (db : Db) (accountId deltaBytes : Int) : Except Error (Unit × Db) :=
  if (db.getAccountQuota accountId).any fun row => row.data.usedBytes + deltaBytes > i64Max then
    .error (.sqlx .outOfRange)
  else
    match db.quotas.modify (fun row => row.data.accountId == some accountId)
        fun quota => { quota with usedBytes := quota.usedBytes + deltaBytes } with
    | some quotas => .ok ((), { db with quotas })
    | none => .error (uniqueViolation "quotas_account_id_unique_idx")

/-! ## Pending mutations -/

def enqueueMutation (db : Db) (input : PendingMutation) :
    Except Error (Row PendingMutation × Db) :=
  match db.pendingMutations.insert input with
  | none => .error (uniqueViolation "pending_mutations_idempotency_key_key")
  | some (row, pendingMutations) =>
      if !db.hasAccount input.accountId || (db.mailbox input.mailboxId).isNone then
        .error (foreignKeyViolation "pending_mutations_mailbox_id_fkey")
      else .ok (row, { db with pendingMutations })

/-- Whether the due query of an account selects a mutation. -/
def isDue (now : Time) (accountId : Int) (row : Row PendingMutation) : Bool :=
  row.data.accountId == accountId &&
    (row.data.status == .pending || row.data.status == .failed) &&
    row.data.nextAttemptAt.all (· ≤ now)

def listDuePendingMutations (db : Db) (now : Time) (accountId : Int) :
    List (Row PendingMutation) :=
  (db.pendingMutations.rows.filter (isDue now accountId)).insertionSort
    fun a b => a.data.createdAt ≤ b.data.createdAt

def updatePendingMutation (db : Db) (id : Int) (status : MutationStatus) (attempts : Int)
    (nextAttemptAt : Option Time) : Except Error (Row PendingMutation × Db) :=
  match db.pendingMutations.modify (·.id == id)
      fun mutation => { mutation with status, attempts, nextAttemptAt } with
  | none => .error (uniqueViolation "pending_mutations_idempotency_key_key")
  | some pendingMutations =>
      match pendingMutations.find (·.id == id) with
      | some row => .ok (row, { db with pendingMutations })
      | none => .error (.sqlx .rowNotFound)

end Db
end ImapCache
