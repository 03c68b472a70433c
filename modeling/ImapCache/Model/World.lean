import ImapCache.Lib.Program
import ImapCache.Model.Database
import ImapCache.Model.SearchQuery
import ImapCache.Model.Throttle
import ImapCache.Model.Upstream

/-!
# The world and its operations

Everything the processes of the cache share: the database, the object store, the search index,
the upstream server with the selected mailbox of each connection, the published events, the locks
and the clock. An operation is one call that the code awaits; `perform` says what it does.
-/

namespace ImapCache
open Lib

/-- A document of the search index and the name it was indexed under. -/
structure IndexedDocument where
  mailboxName : String
  document : SearchDocument
deriving DecidableEq, Repr

structure World where
  db : Db
  blobs : List (String × Bytes)
  index : List IndexedDocument
  upstream : Upstream
  sessions : Nat → Option String
  events : List MutationEvent
  locks : List String
  attempts : Auth.Attempts
  now : Time

inductive Op where
  -- users, accounts and mailboxes
  | findUserByUsername (username : String)
  | findAccountByEmailAddress (emailAddress : String)
  | findAccountByEmailAddressAnyState (emailAddress : String)
  | listAccountsForUser (userId : Int)
  | findAccountByIdAnyState (accountId : Int)
  | createSession (input : SessionRecord)
  | markSessionDisconnected (connectionId : Uuid)
  | recordAuditLog (input : AuditLogEntry)
  | setMailAccountSyncStatus (accountId : Int) (error : Option String)
  | findMailbox (accountId : Int) (mailboxName : String)
  | listMailboxes (accountId : Int)
  | upsertMailbox (input : Mailbox)
  | createMailbox (input : Mailbox)
  | renameMailbox (accountId : Int) (mailboxName newName : String)
  | setMailboxSubscribed (accountId : Int) (mailboxName : String) (subscribed : Bool)
  | deleteMailbox (accountId : Int) (mailboxName : String)
  | updateMailboxSyncMetadata (mailboxId : Int) (selection : SelectedMailboxInfo)
  | accountIdForMailbox (mailboxId : Int)
  | mailboxUidvalidity (mailboxId : Int)
  -- the messages of a mailbox and their UIDs
  | listMailboxMessages (mailboxId : Int)
  | listMailboxMessageViews (mailboxId : Int)
  | insertMailboxMessage (input : MailboxMessage)
  | setMailboxMessageUpstreamUid (mailboxId localUid upstreamUid : Int)
  | updateMailboxMessageFlags (mailboxId localUid : Int) (flags : List String)
  | copyMailboxMessage (sourceMailboxId destinationMailboxId sourceLocalUid : Int)
  | deleteMailboxMessage (mailboxId localUid : Int)
  | refreshMailboxCounts (mailboxId : Int)
  | upsertUidMapping (mailboxId localUid upstreamUid upstreamUidvalidity : Int)
  | messageUpstreamUid (mailboxId localUid : Int)
  | mappedUpstreamUid (mailboxId localUid upstreamUidvalidity : Int)
  -- sync states
  | putSyncState (input : SyncState)
  | loadSyncState (accountId : Int) (mailboxId : Option Int)
  -- messages, parts, cache objects, quotas
  | upsertMessage (input : Message)
  | deleteMimePartsForMessage (messageId : Int)
  | insertMimePart (input : MimePart)
  | findMimePartByMessageAndPath (accountId messageId : Int) (partPath : String)
  | findCacheObjectByAccountTypeAndBlobKey (accountId : Int) (objectType blobKey : String)
  | touchCacheObject (accountId : Int) (blobKey : String)
  | listMessageCacheObjects (accountId messageId : Int)
  | upsertCacheObject (input : CacheObject)
  | deleteCacheObjectForAccount (accountId : Int) (blobKey : String)
  | getAccountQuota (accountId : Int)
  | adjustAccountQuotaUsage (accountId deltaBytes : Int)
  -- pending mutations
  | enqueueMutation (input : PendingMutation)
  | listDuePendingMutations (accountId : Int)
  | updatePendingMutation (id : Int) (status : MutationStatus) (attempts : Int)
      (nextAttemptAt : Option Time)
  -- object store, search index, login attempts, locks, events and clock
  | putObject (key : String) (bytes : Bytes)
  | getObject (key : String)
  | getObjectRange (key : String) (start : Nat) (stop : Option Nat)
  | indexMessage (mailboxName : String) (uid : Nat) (parsed : ParsedMessage)
  | searchIndex (mailboxName : String) (query : Search.SearchQuery)
  | isBlocked (username : String)
  | recordFailure (limits : Auth.LoginLimits) (username : String)
  | recordSuccess (username : String)
  | acquireLock (key : String)
  | releaseLock (key : String)
  | publishEvent (event : MutationEvent)
  | clock
  /-- The process panics: there is no answer to go on with. -/
  | panic (reason : Panic)
  -- the upstream server, over a connection
  | connectUpstream (connection : Nat) (config : UpstreamAccountConfig)
  | upstreamListMailboxes (connection : Nat)
  | selectMailbox (connection : Nat) (mailbox : String)
  | uidSearchAll (connection : Nat)
  | uidFetchFlags (connection : Nat) (uid : Nat)
  | uidFetchRfc822 (connection : Nat) (uid : Nat)
  | append (connection : Nat) (mailbox : String) (flags : List String) (internalDate : Option Int)
      (data : Bytes)
  | uidCopyMessage (connection : Nat) (uid : Nat) (mailbox : String)
  | uidStoreFlags (connection : Nat) (uid : Nat) (flags : List String)
  | expungeSelected (connection : Nat)

@[reducible] def Op.Ret : Op → Type
  | findUserByUsername _ => Option (Row User)
  | findAccountByEmailAddress _ => Option (Row MailAccount)
  | findAccountByEmailAddressAnyState _ => Option (Row MailAccount)
  | listAccountsForUser _ => List (Row MailAccount)
  | findAccountByIdAnyState _ => Option (Row MailAccount)
  | createSession _ => Row SessionRecord
  | markSessionDisconnected _ => Option (Row SessionRecord)
  | recordAuditLog _ => Row AuditLogEntry
  | setMailAccountSyncStatus _ _ => Unit
  | findMailbox _ _ => Option (Row Mailbox)
  | listMailboxes _ => List (Row Mailbox)
  | upsertMailbox _ => Row Mailbox
  | createMailbox _ => Option (Row Mailbox)
  | renameMailbox _ _ _ => Option (Row Mailbox)
  | setMailboxSubscribed _ _ _ => Option (Row Mailbox)
  | deleteMailbox _ _ => Nat
  | updateMailboxSyncMetadata _ _ => Unit
  | accountIdForMailbox _ => Option Int
  | mailboxUidvalidity _ => Int
  | listMailboxMessages _ => List (Row MailboxMessage)
  | listMailboxMessageViews _ => List MailboxMessageView
  | insertMailboxMessage _ => Row MailboxMessage × Int
  | setMailboxMessageUpstreamUid _ _ _ => Option (Row MailboxMessage)
  | updateMailboxMessageFlags _ _ _ => Option (Row MailboxMessage × Int)
  | copyMailboxMessage _ _ _ => Option (Row MailboxMessage × Row MailboxMessage × Int)
  | deleteMailboxMessage _ _ => Option (Int × Int)
  | refreshMailboxCounts _ => Unit
  | upsertUidMapping _ _ _ _ => Unit
  | messageUpstreamUid _ _ => Option Int
  | mappedUpstreamUid _ _ _ => Option Int
  | putSyncState _ => Unit
  | loadSyncState _ _ => Option (Row SyncState)
  | upsertMessage _ => Row Message
  | deleteMimePartsForMessage _ => Unit
  | insertMimePart _ => Unit
  | findMimePartByMessageAndPath _ _ _ => Option (Row MimePart)
  | findCacheObjectByAccountTypeAndBlobKey _ _ _ => Option (Row CacheObject)
  | touchCacheObject _ _ => Nat
  | listMessageCacheObjects _ _ => List CacheObjectReference
  | upsertCacheObject _ => Unit
  | deleteCacheObjectForAccount _ _ => Bool
  | getAccountQuota _ => Option (Row Quota)
  | adjustAccountQuotaUsage _ _ => Unit
  | enqueueMutation _ => Row PendingMutation
  | listDuePendingMutations _ => List (Row PendingMutation)
  | updatePendingMutation _ _ _ _ => Row PendingMutation
  | putObject _ _ => ObjectMetadata
  | getObject _ => Option Bytes
  | getObjectRange _ _ _ => Option Bytes
  | indexMessage _ _ _ => Unit
  | searchIndex _ _ => List Nat
  | isBlocked _ => Bool
  | recordFailure _ _ => Unit
  | recordSuccess _ => Unit
  | acquireLock _ => Bool
  | releaseLock _ => Unit
  | publishEvent _ => Unit
  | clock => Time
  | panic _ => Empty
  | connectUpstream _ _ => Unit
  | upstreamListMailboxes _ => List String
  | selectMailbox _ _ => SelectedMailboxInfo
  | uidSearchAll _ => List Nat
  | uidFetchFlags _ _ => List String
  | uidFetchRfc822 _ _ => Bytes
  | append _ _ _ _ _ => Option Nat
  | uidCopyMessage _ _ _ => Nat
  | uidStoreFlags _ _ _ => Unit
  | expungeSelected _ => Unit

/-- Reading the clock is the one call that cannot fail. -/
def Op.fallible : Op → Bool
  | clock => false
  | _ => true

@[reducible] def cacheSignature : Signature := ⟨Op, Op.Ret, Error, Op.fallible⟩

/-- The code of the cache as programs over the world's operations. -/
abbrev Action (α : Type) := Prog cacheSignature α

/-- A call with `.await?`. -/
abbrev await (op : Op) : Action op.Ret := Prog.ask (σ := cacheSignature) op

/-- What a process that panicked ends with. -/
def panicked : Error := .io "the process panicked"

/-- The value of a function that may panic. -/
def orPanic {α : Type} : Except Panic α → Action α
  | .ok value => .ret value
  | .error reason => (await (.panic reason)).bind Empty.elim

namespace World

def read {α : Type} (world : World) (value : α) : Except Error α × World := (.ok value, world)

/-- A statement or transaction: without effect when it fails. -/
def commit {α : Type} (world : World) (result : Except Error (α × Db)) :
    Except Error α × World :=
  match result with
  | .ok (value, db) => (.ok value, { world with db })
  | .error failure => (.error failure, world)

def blob (world : World) (key : String) : Option Bytes := world.blobs.lookup key

/-- `put` of an object store: the bytes must have the content address they are stored under. -/
def putObject (lib : Libraries) (world : World) (key : String) (bytes : Bytes) :
    Except Error ObjectMetadata × World :=
  match validateContentAddressedBytes lib key bytes with
  | .error failure => (.error failure, world)
  | .ok () =>
      (.ok ⟨key, lib.sha256 bytes, bytes.length⟩, { world with blobs := (key, bytes) :: world.blobs })

def getObject (lib : Libraries) (world : World) (key : String) : Except Error (Option Bytes) × World :=
  match world.blob key with
  | none => (.ok none, world)
  | some bytes =>
      match validateContentAddressedBytes lib key bytes with
      | .error failure => (.error failure, world)
      | .ok () => (.ok (some bytes), world)

def getObjectRange (world : World) (key : String) (start : Nat) (stop : Option Nat) : Option Bytes :=
  (world.blob key).map fun bytes =>
    if start ≥ bytes.length then []
    else (bytes.take (min (stop.getD bytes.length) bytes.length)).drop start

/-- Indexing deletes the documents of the same mailbox name and UID, as far as the library finds them,
and adds one. -/
def indexMessage (lib : Libraries) (world : World) (mailboxName : String) (uid : Nat)
    (parsed : ParsedMessage) : Except Error Unit × World :=
  (.ok (), { world with
    index := world.index.filter (fun document => !(lib.deletesUnindexed &&
        document.mailboxName == mailboxName && document.document.uid == uid)) ++
      [⟨mailboxName, .fromParsedMessage uid parsed⟩] })

def searchIndex (lib : Libraries) (world : World) (mailboxName : String)
    (query : Search.SearchQuery) : Except Error (List Nat) :=
  Search.searchDocuments lib ((world.index.filter fun entry =>
    entry.mailboxName == mailboxName).map (·.document)) query

/-- The authenticators count failed logins in memory. -/
def isBlocked (world : World) (username : String) : Bool × World :=
  let (blocked, attempts) := world.attempts.isBlocked world.now username
  (blocked, { world with attempts })

def recordFailure (world : World) (limits : Auth.LoginLimits) (username : String) : World :=
  { world with attempts := world.attempts.recordFailure limits world.now username }

def recordSuccess (world : World) (username : String) : World :=
  { world with attempts := world.attempts.recordSuccess username }

def acquireLock (world : World) (key : String) : Except Error Bool × World :=
  if world.locks.contains key then (.ok false, world)
  else (.ok true, { world with locks := key :: world.locks })

def withUpstream {α : Type} (world : World) (reply : Except Error α × Upstream) :
    Except Error α × World := (reply.1, { world with upstream := reply.2 })

def perform (lib : Libraries) (world : World) : (op : Op) → Except Error op.Ret × World
  | .findUserByUsername username => world.read (world.db.findUserByUsername lib.lower username)
  | .findAccountByEmailAddress emailAddress =>
      world.read (world.db.findAccountByEmailAddress lib.lower emailAddress)
  | .findAccountByEmailAddressAnyState emailAddress =>
      world.read (world.db.findAccountByEmailAddressAnyState lib.lower emailAddress)
  | .listAccountsForUser userId => world.read (world.db.listAccountsForUser userId)
  | .findAccountByIdAnyState accountId => world.read (world.db.findAccountByIdAnyState accountId)
  | .createSession input =>
      world.commit (world.db.createSession
        { input with authenticatedAt := some world.now, disconnectedAt := none })
  | .markSessionDisconnected connectionId =>
      world.commit (world.db.markSessionDisconnected world.now connectionId)
  | .recordAuditLog input =>
      world.commit (world.db.recordAuditLog { input with createdAt := world.now })
  | .setMailAccountSyncStatus accountId error =>
      world.commit (world.db.setMailAccountSyncStatus accountId (some world.now) error)
  | .findMailbox accountId mailboxName => world.read (world.db.findMailbox accountId mailboxName)
  | .listMailboxes accountId => world.read (world.db.listMailboxes accountId)
  | .upsertMailbox input => world.commit (world.db.upsertMailbox input)
  | .createMailbox input => world.commit (world.db.createMailbox input)
  | .renameMailbox accountId mailboxName newName =>
      world.commit (world.db.renameMailbox accountId mailboxName newName)
  | .setMailboxSubscribed accountId mailboxName subscribed =>
      world.commit (world.db.setMailboxSubscribed accountId mailboxName subscribed)
  | .deleteMailbox accountId mailboxName =>
      world.commit (.ok (world.db.deleteMailbox accountId mailboxName))
  | .updateMailboxSyncMetadata mailboxId selection =>
      world.commit (world.db.updateMailboxSyncMetadata mailboxId selection)
  | .accountIdForMailbox mailboxId => world.read (world.db.accountIdForMailbox mailboxId)
  | .mailboxUidvalidity mailboxId => world.read (world.db.mailboxUidvalidity mailboxId)
  | .listMailboxMessages mailboxId => world.read (world.db.listMailboxMessages mailboxId)
  | .listMailboxMessageViews mailboxId =>
      world.read (world.db.listMailboxMessageViews lib.createdAt mailboxId)
  | .insertMailboxMessage input => world.commit (world.db.insertMailboxMessage input)
  | .setMailboxMessageUpstreamUid mailboxId localUid upstreamUid =>
      world.commit (world.db.setMailboxMessageUpstreamUid mailboxId localUid upstreamUid)
  | .updateMailboxMessageFlags mailboxId localUid flags =>
      world.commit (world.db.updateMailboxMessageFlags mailboxId localUid flags)
  | .copyMailboxMessage source destination localUid =>
      world.commit (world.db.copyMailboxMessage source destination localUid)
  | .deleteMailboxMessage mailboxId localUid =>
      world.commit (world.db.deleteMailboxMessage mailboxId localUid)
  | .refreshMailboxCounts mailboxId => world.commit (world.db.refreshMailboxCounts mailboxId)
  | .upsertUidMapping mailboxId localUid upstreamUid uidvalidity =>
      world.commit (world.db.upsertUidMapping mailboxId localUid upstreamUid uidvalidity)
  | .messageUpstreamUid mailboxId localUid =>
      (world.db.messageUpstreamUid mailboxId localUid, world)
  | .mappedUpstreamUid mailboxId localUid uidvalidity =>
      world.read (world.db.mappedUpstreamUid mailboxId localUid uidvalidity)
  | .putSyncState input => world.commit (world.db.putSyncState input)
  | .loadSyncState accountId mailboxId => world.read (world.db.loadSyncState accountId mailboxId)
  | .upsertMessage input => world.commit (world.db.upsertMessage input)
  | .deleteMimePartsForMessage messageId =>
      world.commit (.ok (world.db.deleteMimePartsForMessage messageId))
  | .insertMimePart input => world.commit (world.db.insertMimePart input)
  | .findMimePartByMessageAndPath accountId messageId partPath =>
      world.read (world.db.findMimePartByMessageAndPath accountId messageId partPath)
  | .findCacheObjectByAccountTypeAndBlobKey accountId objectType blobKey =>
      world.read (world.db.findCacheObjectByAccountTypeAndBlobKey accountId objectType blobKey)
  | .touchCacheObject accountId blobKey =>
      world.commit (world.db.touchCacheObject world.now accountId blobKey)
  | .listMessageCacheObjects accountId messageId =>
      world.read (world.db.listMessageCacheObjects accountId messageId)
  | .upsertCacheObject input =>
      world.commit (world.db.upsertCacheObject { input with lastAccessedAt := some world.now })
  | .deleteCacheObjectForAccount accountId blobKey =>
      world.commit (world.db.deleteCacheObjectForAccount world.now accountId blobKey)
  | .getAccountQuota accountId => world.read (world.db.getAccountQuota accountId)
  | .adjustAccountQuotaUsage accountId deltaBytes =>
      world.commit (world.db.adjustAccountQuotaUsage accountId deltaBytes)
  | .enqueueMutation input =>
      world.commit (world.db.enqueueMutation { input with createdAt := world.now })
  | .listDuePendingMutations accountId =>
      world.read (world.db.listDuePendingMutations world.now accountId)
  | .updatePendingMutation id status attempts nextAttemptAt =>
      world.commit (world.db.updatePendingMutation id status attempts nextAttemptAt)
  | .putObject key bytes => world.putObject lib key bytes
  | .getObject key => world.getObject lib key
  | .getObjectRange key start stop => world.read (world.getObjectRange key start stop)
  | .indexMessage mailboxName uid parsed => world.indexMessage lib mailboxName uid parsed
  | .searchIndex mailboxName query => (world.searchIndex lib mailboxName query, world)
  | .isBlocked username => (world.isBlocked username).map .ok id
  | .recordFailure limits username => (.ok (), world.recordFailure limits username)
  | .recordSuccess username => (.ok (), world.recordSuccess username)
  | .acquireLock key => world.acquireLock key
  | .releaseLock key => (.ok (), { world with locks := world.locks.filter (· != key) })
  | .publishEvent event => (.ok (), { world with events := world.events ++ [event] })
  | .clock => world.read world.now
  | .panic _ => (.error panicked, world)
  | .connectUpstream _ _ => world.read ()
  | .upstreamListMailboxes _ => world.read (world.upstream.mailboxes.map (·.name))
  | .selectMailbox connection mailbox =>
      let reply := world.upstream.selectMailbox mailbox
      (reply.1, { world with sessions := Function.update world.sessions connection reply.2 })
  | .uidSearchAll connection =>
      (world.upstream.uidSearchAll (world.sessions connection), world)
  | .uidFetchFlags connection uid =>
      (world.upstream.uidFetchFlags (world.sessions connection) uid, world)
  | .uidFetchRfc822 connection uid =>
      (world.upstream.uidFetchRfc822 (world.sessions connection) uid, world)
  | .append _ mailbox flags internalDate data =>
      world.withUpstream (world.upstream.append mailbox flags internalDate data)
  | .uidCopyMessage connection uid mailbox =>
      world.withUpstream (world.upstream.uidCopyMessage (world.sessions connection) uid mailbox)
  | .uidStoreFlags connection uid flags =>
      world.withUpstream (world.upstream.uidStoreFlags (world.sessions connection) uid flags)
  | .expungeSelected connection =>
      world.withUpstream (world.upstream.expungeSelected (world.sessions connection))

end World

/-- The world as the handler of the cache's programs. -/
def cacheHandler (lib : Libraries) : Handler cacheSignature World where
  exec op world := world.perform lib op
  total op world infallible := by
    cases op <;> first | exact ⟨_, rfl⟩ | cases infallible

@[simp] theorem cacheHandler_exec (lib : Libraries) (op : Op) (world : World) :
    (cacheHandler lib).exec op world = world.perform lib op := rfl

theorem eval_await_bind {lib : Libraries} {op : Op} {α : Type} {next : op.Ret → Action α}
    {world world' : World} {value : op.Ret} (done : world.perform lib op = (.ok value, world')) :
    ((await op).bind next).eval (cacheHandler lib) world = (next value).eval (cacheHandler lib) world' := by
  rw [Prog.eval_bind, Prog.eval_ask, cacheHandler_exec, done]

theorem eval_await_bind_error {lib : Libraries} {op : Op} {α : Type} {next : op.Ret → Action α}
    {world world' : World} {failure : Error} (refused : world.perform lib op = (.error failure, world')) :
    ((await op).bind next).eval (cacheHandler lib) world = (.error failure, world') := by
  rw [Prog.eval_bind, Prog.eval_ask, cacheHandler_exec, refused]

theorem World.commit_of_ok {α : Type} {world : World} {result : Except Error (α × Db)} {value : α}
    {db : Db} (ok : result = .ok (value, db)) : world.commit result = (.ok value, { world with db }) := by
  rw [ok, commit]

theorem World.commit_of_error {α : Type} {world : World} {result : Except Error (α × Db)}
    {failure : Error} (error : result = .error failure) :
    world.commit result = (.error failure, world) := by
  rw [error, commit]

end ImapCache
