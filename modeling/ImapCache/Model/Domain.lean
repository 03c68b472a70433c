import ImapCache.Lib.Table
import Mathlib.Data.List.Sort
import Mathlib.Data.List.Destutter
import Mathlib.Data.String.Basic

/-!
# The domain of the cache

The records of the database, the errors, the JSON documents the tables hold, and the conversions
between the integer types of the source. A 64-bit signed integer is an `Int` and an unsigned one a
`Nat`; where the source converts or adds, the range is explicit.
-/

namespace ImapCache

abbrev Bytes := List UInt8

/-- Seconds of the clock that both the process and the database read. -/
abbrev Time := Nat

/-! ## Integers -/

def i64Max : Int := 9223372036854775807

/-- The conversion `i64::try_from` of an unsigned integer. -/
def i64OfU64 (n : Nat) : Option Int := if (n : Int) ≤ i64Max then some n else none

/-- The cast `as i64` of an unsigned integer. -/
def u64AsI64 (n : Nat) : Int :=
  if ((n % 18446744073709551616 : Nat) : Int) ≤ i64Max then ((n % 18446744073709551616 : Nat) : Int)
  else ((n % 18446744073709551616 : Nat) : Int) - 18446744073709551616

/-- The cast `as u64` of a signed integer. -/
def i64AsU64 (x : Int) : Nat := (x % 18446744073709551616).toNat

/-- `x.saturating_add(1)`. -/
def saturatingSucc (x : Int) : Int := if x < i64Max then x + 1 else i64Max

/-! ## Texts -/

def toAsciiLowercase (s : String) : String := String.ofList (s.toList.map Char.toLower)

def eqIgnoreAsciiCase (a b : String) : Bool := toAsciiLowercase a == toAsciiLowercase b

/-- `value.split_once(separator)`. -/
def splitOnce (separator : Char) (value : String) : Option (String × String) :=
  let (before, after) := value.toList.span (· != separator)
  match after with
  | [] => none
  | _ :: after => some (String.ofList before, String.ofList after)

/-! ## Errors -/

inductive SqlxError where
  | rowNotFound
  | uniqueViolation (constraint : String)
  | foreignKeyViolation (constraint : String)
  | columnDecode (column : String)
  | outOfRange
  | connection (message : String)
deriving DecidableEq, Repr

inductive Error where
  | config (message : String)
  | authenticationFailed
  | imapCommand (message : String)
  | parse (message : String)
  | storage (message : String)
  | io (message : String)
  | utf8 (message : String)
  | sqlx (error : SqlxError)
deriving DecidableEq, Repr

/-- The text of an error, as `Display` prints it. -/
def Error.text : Error → String
  | .config message => "configuration error: " ++ message
  | .authenticationFailed => "authentication failed"
  | .imapCommand message => "invalid IMAP command: " ++ message
  | .parse message => "parse error: " ++ message
  | .storage message => "storage error: " ++ message
  | .io message => message
  | .utf8 message => message
  | .sqlx _ => "database error"

/-! ## JSON documents -/

inductive Json where
  | null
  | bool (value : Bool)
  | num (value : Int)
  | str (value : String)
  | arr (items : List Json)
  | obj (fields : List (String × Json))

namespace Json

def get (key : String) : Json → Option Json
  | obj fields => fields.lookup key
  | _ => none

def asI64 : Json → Option Int
  | num value => if -i64Max - 1 ≤ value ∧ value ≤ i64Max then some value else none
  | _ => none

def asU64 : Json → Option Nat
  | num value => if 0 ≤ value ∧ value < 18446744073709551616 then some value.toNat else none
  | _ => none

def asStr : Json → Option String
  | str value => some value
  | _ => none

def asArray : Json → Option (List Json)
  | arr items => some items
  | _ => none

def ofOption {α : Type} (f : α → Json) : Option α → Json
  | some value => f value
  | none => null

def strings (values : List String) : Json := arr (values.map str)

/-- The texts of an array, its other items left out; nothing for any other value. -/
def stringItems (value : Option Json) : List String :=
  match value.bind asArray with
  | some items => items.filterMap asStr
  | none => []

end Json

/-! ## Records -/

inductive MutationStatus where
  | pending
  | inFlight
  | succeeded
  | failed
  | deadLetter
deriving DecidableEq, Repr

/-- The `mutation_type` column: the four kinds the engine applies, or any other text. -/
inductive MutationType where
  | append
  | storeFlags
  | copyMessage
  | moveMessage
  | other (name : String)
deriving DecidableEq, Repr

def MutationType.text : MutationType → String
  | .append => "append"
  | .storeFlags => "store_flags"
  | .copyMessage => "copy_message"
  | .moveMessage => "move_message"
  | .other name => name

structure User where
  usernameEmail : String
  passwordHash : String
  disabledAt : Option Time
deriving DecidableEq, Repr

inductive UpstreamTlsMode where
  | plain
  | startTls
  | tls
deriving DecidableEq, Repr

inductive UpstreamAuthMethod where
  | login
  | oauth2
  | xoauth2
deriving DecidableEq, Repr

structure MailAccount where
  userId : Int
  emailAddress : String
  upstreamHost : String
  upstreamPort : Nat
  upstreamTlsMode : UpstreamTlsMode
  upstreamAuthMethod : UpstreamAuthMethod
  encryptedUpstreamUsername : Bytes
  encryptedUpstreamSecret : Bytes
  disabledAt : Option Time
  lastSyncAt : Option Time
  lastSyncError : Option String
deriving DecidableEq, Repr

structure Mailbox where
  accountId : Int
  name : String
  canonicalName : String
  delimiter : Option String
  attributes : List String
  subscribed : Bool
  specialUse : Option String
  uidvalidity : Option Int
  uidnext : Option Int
  highestmodseq : Option Int
  existsCount : Int
  recentCount : Int
  unseenCount : Int
deriving DecidableEq, Repr

structure Message where
  accountId : Int
  rfc822BlobKey : String
  rfc822Sha256 : String
  messageIdHeader : Option String
  subject : Option String
  fromJson : Json
  toJson : Json
  ccJson : Json
  bccJson : Json
  replyToJson : Json
  envelopeJson : Json
  bodystructureJson : Json
  internalDate : Option Int
  sentDate : Option Int
  sizeOctets : Int
  textPreview : Option String

structure MailboxMessage where
  mailboxId : Int
  messageId : Int
  localUid : Int
  upstreamUid : Option Int
  modseq : Option Int
  flags : List String
  keywords : List String
  isExpunged : Bool
  expungedAt : Option Time
deriving DecidableEq, Repr

structure MimePart where
  messageId : Int
  partPath : String
  contentType : String
  charset : Option String
  disposition : Option String
  filename : Option String
  contentId : Option String
  sizeOctets : Int
  blobKey : String
  sha256 : String
  transferEncoding : Option String
  metadataJson : Json

structure UidMapping where
  mailboxId : Int
  localUid : Int
  upstreamUid : Int
  upstreamUidvalidity : Int
deriving DecidableEq, Repr

structure SyncState where
  accountId : Int
  mailboxId : Option Int
  stateJson : Json

structure PendingMutation where
  accountId : Int
  mailboxId : Int
  messageId : Option Int
  mutationType : MutationType
  payloadJson : Json
  status : MutationStatus
  attempts : Int
  nextAttemptAt : Option Time
  idempotencyKey : String
  createdAt : Time

/-- A UUID, as its number. -/
abbrev Uuid := Nat

structure SessionRecord where
  userId : Int
  accountId : Option Int
  connectionId : Uuid
  remoteAddr : Option String
  authenticatedAt : Option Time
  disconnectedAt : Option Time
deriving DecidableEq, Repr

structure AuditLogEntry where
  userId : Option Int
  accountId : Option Int
  action : String
  metadataJson : Json
  createdAt : Time

structure CacheObject where
  accountId : Option Int
  objectType : String
  blobKey : String
  sha256 : String
  sizeOctets : Int
  refCount : Int
  lastAccessedAt : Option Time
deriving DecidableEq, Repr

structure CacheObjectReference where
  objectType : String
  blobKey : String
  sha256 : String
  sizeOctets : Int
deriving DecidableEq, Repr

structure Quota where
  accountId : Option Int
  maxBytes : Int
  usedBytes : Int
deriving DecidableEq, Repr

/-! ## Parsed messages, upstream selections, stored objects and events -/

structure MimePartRecord where
  partPath : String
  contentType : String
  charset : Option String
  disposition : Option String
  filename : Option String
  contentId : Option String
  sizeOctets : Nat
  blobKey : String
  sha256 : String
  transferEncoding : Option String
  metadataJson : Json
  rawBytes : Bytes

structure ParsedMessage where
  rawSha256 : String
  sizeOctets : Nat
  messageIdHeader : Option String
  subject : Option String
  fromJson : Json
  toJson : Json
  ccJson : Json
  bccJson : Json
  replyToJson : Json
  envelopeJson : Json
  bodystructureJson : Json
  textPreview : Option String
  mimeParts : List MimePartRecord

/-- What a `SELECT` of the upstream server reports. -/
structure SelectedMailboxInfo where
  flags : List String
  exists' : Option Int
  recent : Option Int
  uidvalidity : Option Int
  uidnext : Option Int
  highestmodseq : Option Int
  unseen : Option Int
  readOnly : Bool
deriving DecidableEq, Repr

structure ObjectMetadata where
  key : String
  sha256 : String
  sizeOctets : Nat
deriving DecidableEq, Repr

inductive ObjectType where
  | rfc822
  | mimePart
  | attachment
  | cache
deriving DecidableEq, Repr

def ObjectType.text : ObjectType → String
  | .rfc822 => "Rfc822"
  | .mimePart => "MimePart"
  | .attachment => "Attachment"
  | .cache => "Cache"

inductive MutationEventKind where
  | accountChanged
  | mailboxChanged
  | messageChanged
  | pendingMutationChanged
deriving DecidableEq, Repr

structure MutationEvent where
  kind : MutationEventKind
  accountId : Option Int
  mailboxId : Option Int
  messageId : Option Int
  mutationId : Option Int
  localUid : Option Int
  sequenceNumber : Option Int
  flags : List String
  detail : String
deriving DecidableEq, Repr

namespace MutationEvent

def mailboxChanged (accountId mailboxId : Option Int) (detail : String) : MutationEvent :=
  ⟨.mailboxChanged, accountId, mailboxId, none, none, none, none, [], detail⟩

def messageChanged (accountId mailboxId messageId : Option Int) (detail : String) : MutationEvent :=
  ⟨.messageChanged, accountId, mailboxId, messageId, none, none, none, [], detail⟩

def messageChangedWithContext (accountId mailboxId messageId localUid sequenceNumber : Option Int)
    (flags : List String) (detail : String) : MutationEvent :=
  ⟨.messageChanged, accountId, mailboxId, messageId, none, localUid, sequenceNumber, flags, detail⟩

def pendingMutationChanged (accountId mailboxId mutationId : Option Int) (detail : String) :
    MutationEvent :=
  ⟨.pendingMutationChanged, accountId, mailboxId, none, mutationId, none, none, [], detail⟩

end MutationEvent

structure SearchDocument where
  uid : Nat
  subject : Option String
  sender : List String
  recipients : List String
  cc : List String
  bcc : List String
  messageId : Option String
  replyTo : List String
  body : String
deriving DecidableEq, Repr

/-! ## Panics -/

/-- The ways in which the modelled code can panic. -/
inductive Panic where
  | sliceOutOfRange
  | notCharBoundary
  | capacityOverflow
  | expectFailed (message : String)
deriving DecidableEq, Repr

/-! ## Code from outside the repository -/

/-- `timestamp`: the seconds of a time. The times of messages are in microseconds. -/
def timestamp (time : Int) : Int := time / 1000000

/-- The libraries the modelled code calls: SHA-256 in hexadecimal, the MIME parser, the printer of
JSON documents, the readers and printers of dates, the ciphers and the text search. -/
structure Libraries where
  sha256 : Bytes → String
  parseMessage : Bytes → Except Error ParsedMessage
  jsonToString : Json → String
  toRfc3339 : Int → String
  parseRfc3339 : String → Except String Int
  /-- `DateTime::parse_from_str` with the format of the IMAP date-time. -/
  parseImapDateTime : String → Except String Int
  /-- `NaiveDate::parse_from_str` with the format of the IMAP date, as a day since 1970. -/
  parseImapDate : String → Option Int
  /-- `DateTime::from_timestamp`. -/
  fromTimestamp : Int → Option Int
  /-- `DateTime::format` with the format of the IMAP date-time. -/
  formatImapDate : Int → String
  /-- The `created_at` column of a row of `mailbox_messages`, which is written with the row and
  never changed. -/
  createdAt : Int → Int
  /-- The `lower` of the database. -/
  lower : String → String
  decrypt : Bytes → Except String Bytes
  verifyPassword : String → String → Except Error Bool
  decodeBase64 : String → Except String Bytes
  /-- The query parser of the text search: which documents a query finds. -/
  parseQuery : String → Except String (SearchDocument → Bool)
  /-- The place of a document among the results of a query, or among all the documents: by its score
  and, for equal scores, by its address in the index. -/
  rank : Option String → List SearchDocument → SearchDocument → Nat
  /-- Whether `delete_term` deletes by the value of a field that is stored but not indexed, as the UID
  of a document is. -/
  deletesUnindexed : Bool
  /-- The Message-ID, References and In-Reply-To headers of a raw message. -/
  threadHeaders : Bytes → Except String (Option String × Option String × Option String)

def contentAddressedKey (lib : Libraries) (objectType : ObjectType) (bytes : Bytes) : String :=
  objectType.text ++ "/" ++ lib.sha256 bytes

def validateContentAddressedBytes (lib : Libraries) (expectedKey : String) (bytes : Bytes) :
    Except Error Unit :=
  match splitOnce '/' expectedKey with
  | none => .error (.storage ("invalid content-addressed key: " ++ expectedKey))
  | some (head, hash) =>
      let objectType := [ObjectType.rfc822, .mimePart, .attachment, .cache].find? (·.text == head)
      match objectType with
      | none => .error (.storage ("unknown content-addressed key prefix: " ++ head))
      | some objectType =>
          if contentAddressedKey lib objectType bytes = expectedKey then .ok ()
          else .error (.storage ("content hash mismatch for " ++ expectedKey ++ ": expected " ++ hash
            ++ ", got " ++ lib.sha256 bytes))

/-! ## The credentials of an account -/

structure UpstreamAccountConfig where
  host : String
  port : Nat
  tlsMode : UpstreamTlsMode
  authMethod : UpstreamAuthMethod
  username : String
  secret : String
deriving DecidableEq, Repr

def fromUtf8 (bytes : Bytes) : Option String := String.fromUTF8? ⟨bytes.toArray⟩

/-- One decrypted column; `name` is the column in the errors. -/
def decryptText (lib : Libraries) (name : String) (bytes : Bytes) : Except Error String :=
  match lib.decrypt bytes with
  | .error err => .error (.storage ("failed to decrypt upstream " ++ name ++ ": " ++ err))
  | .ok plain =>
      match fromUtf8 plain with
      | some text => .ok text
      | none => .error (.storage ("upstream " ++ name ++ " is not valid UTF-8"))

def upstreamAccountConfigFromAccount (lib : Libraries) (account : MailAccount) :
    Except Error UpstreamAccountConfig := do
  let username ← decryptText lib "username" account.encryptedUpstreamUsername
  let secret ← decryptText lib "secret" account.encryptedUpstreamSecret
  pure { host := account.upstreamHost, port := account.upstreamPort % 65536
         tlsMode := account.upstreamTlsMode, authMethod := account.upstreamAuthMethod
         username, secret }

/-! ## The documents of the search index -/

mutual
/-- The addresses of a header document, those of the members of groups included. -/
def collectAddresses : Json → List String
  | .arr items => collectItems items
  | .obj fields => (((Json.obj fields).get "address").bind Json.asStr).toList ++ collectMembers fields
  | _ => []
def collectItems : List Json → List String
  | [] => []
  | item :: items => collectAddresses item ++ collectItems items
def collectMembers : List (String × Json) → List String
  | [] => []
  | (key, value) :: fields =>
      if key = "members" then collectAddresses value else collectMembers fields
end

/-- Sorted and without repetitions. -/
def sortedTexts (texts : List String) : List String :=
  (texts.insertionSort (· ≤ ·)).destutter (· ≠ ·)

def SearchDocument.fromParsedMessage (uid : Nat) (parsed : ParsedMessage) : SearchDocument :=
  let addresses (value : Json) : List String := sortedTexts (collectAddresses value)
  { uid, subject := parsed.subject, sender := addresses parsed.fromJson
    recipients := addresses parsed.toJson, cc := addresses parsed.ccJson
    bcc := addresses parsed.bccJson, messageId := parsed.messageIdHeader
    replyTo := addresses parsed.replyToJson, body := parsed.textPreview.getD "" }

/-! ## Flags -/

/-- Sorted and without repetitions. -/
def normalizeFlags (flags : List String) : List String :=
  (flags.insertionSort (· ≤ ·)).destutter (· ≠ ·)

theorem normalizeFlags_idem (flags : List String) :
    normalizeFlags (normalizeFlags flags) = normalizeFlags flags := by
  have sorted : (normalizeFlags flags).Pairwise (· ≤ ·) :=
    (List.pairwise_insertionSort (· ≤ ·) flags).sublist (List.destutter_sublist _ _)
  have chain : (normalizeFlags flags).IsChain (· ≠ ·) := List.isChain_destutter _ _
  rw [normalizeFlags, List.Pairwise.insertionSort_eq sorted]
  exact List.destutter_of_isChain _ _ chain

end ImapCache
