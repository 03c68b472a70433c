import ImapCache.Model.Responses
import ImapCache.Model.Tasks

/-!
# A small deployment

One account with an INBOX, and libraries whose values are known where the runs on it need them:
the digests of a few texts and the parse of two short messages. Counterexamples and witnesses run
here.
-/

namespace ImapCache.Sample
open Lib

/-! ## Libraries -/

def text (s : String) : Bytes := s.toList.map fun c => UInt8.ofNat c.toNat

def hiMessage : Bytes := text "Subject: hi\r\n\r\nbody"
def yoMessage : Bytes := text "Subject: yo\r\n\r\nbody"
def bodyText : Bytes := text "body"

/-- What the idempotency key of a mutation of the account's first mailbox is the digest of. -/
def mutationText (kind payload : String) : Bytes :=
  Mutations.toBeBytes 1 ++ Mutations.toBeBytes 1 ++ text kind ++ text payload

/-- Known SHA-256 digests. -/
def digests : List (Bytes × String) :=
  [(mutationText "store_flags" "\x7b\"flags\":[\"\\\\Seen\"],\"local_uid\":1\x7d",
      "f4046c4d5a2fd4a3f4d97703a58b9b316bdb8c817fb6932a6fd646b46c423896"),
    (mutationText "store_flags" "\x7b\"flags\":[],\"local_uid\":1\x7d",
      "20cbab38ba8037b20e5150e92a04950029e996d31e5ea477dd6afb46efeab108"),
    (mutationText "append" ("\x7b\"blob_key\":\"Rfc822/" ++
        "6059e5b0d341c20e5980acdd38fff46d347a20adf375af4e3db52661e30c3821\",\"flags\":[]," ++
        "\"internal_date\":null,\"local_uid\":1,\"mailbox\":\"INBOX\",\"mailbox_id\":1\x7d"),
      "71f837828b60c7161ef12eed16d70c268087c839f92a1912acc591167dd943bd"),
    (hiMessage, "6059e5b0d341c20e5980acdd38fff46d347a20adf375af4e3db52661e30c3821"),
    (yoMessage, "9c0abc287f3612c31f1f8a7c599c7996656c904ab712b2e11e3dbd08e083bd25"),
    (bodyText, "230d8358dc8e8890b4c58deeb62912ee2f20357ae92a5cc861b98e68fe31acb5")]

/-- A text that no digest is equal to. -/
def undigested (bytes : Bytes) : String :=
  String.ofList ('#' :: bytes.map fun b => Char.ofNat b.toNat)

def sha256 (bytes : Bytes) : String :=
  match digests.lookup bytes with
  | some digest => digest
  | none => undigested bytes

mutual
/-- The compact form of a document, with the keys of an object in order. -/
def printJson : Json → String
  | .null => "null"
  | .bool value => if value then "true" else "false"
  | .num value => toString value
  | .str value => quote value
  | .arr items => "[" ++ ",".intercalate (printItems items) ++ "]"
  | .obj fields =>
      "\x7b" ++ ",".intercalate (((printFields fields).insertionSort fun a b => a.1 ≤ b.1).map (·.2))
        ++ "\x7d"
def printItems : List Json → List String
  | [] => []
  | item :: items => printJson item :: printItems items
def printFields : List (String × Json) → List (String × String)
  | [] => []
  | (key, value) :: fields => (key, quote key ++ ":" ++ printJson value) :: printFields fields
def quote (s : String) : String :=
  "\"" ++ String.ofList (s.toList.flatMap fun c =>
    if c = '"' ∨ c = '\\' then ['\\', c] else [c]) ++ "\""
end

/-- The parse of a message whose header is a subject and whose body is `body`. -/
def parsedText (raw : Bytes) (subject : String) : ParsedMessage :=
  { rawSha256 := sha256 raw, sizeOctets := raw.length, messageIdHeader := none
    subject := some subject, fromJson := .null, toJson := .null, ccJson := .null, bccJson := .null
    replyToJson := .null
    envelopeJson := .obj [("date", .null), ("subject", .str subject), ("message_id", .null),
      ("from", .null), ("to", .null), ("cc", .null), ("bcc", .null), ("reply_to", .null)]
    bodystructureJson := .obj [("path", .str "1"), ("type", .str "text"), ("subtype", .str "plain"),
      ("charset", .null), ("params", .obj []), ("disposition", .str "inline"), ("filename", .null),
      ("content_id", .null), ("transfer_encoding", .null), ("size", .num 4)]
    textPreview := some "body"
    mimeParts := [
      { partPath := "1", contentType := "text/plain", charset := some "us-ascii"
        disposition := some "inline", filename := none, contentId := none, sizeOctets := 4
        blobKey := "MimePart/" ++ sha256 bodyText, sha256 := sha256 bodyText
        transferEncoding := none
        metadataJson := .obj [("path", .str "1"), ("content_type", .str "text/plain")]
        rawBytes := bodyText }] }

def parseMessage (raw : Bytes) : Except Error ParsedMessage :=
  if raw = hiMessage then .ok (parsedText raw "hi")
  else if raw = yoMessage then .ok (parsedText raw "yo")
  else .error (.parse "failed to parse RFC822 message")

/-! ## Dates -/

def padded (width : Nat) (n : Nat) : String :=
  String.ofList (List.replicate (width - (toString n).length) '0') ++ toString n

def months : List String :=
  ["Jan", "Feb", "Mar", "Apr", "May", "Jun", "Jul", "Aug", "Sep", "Oct", "Nov", "Dec"]

/-- Year, month from 0 on and day of the month of a day since 1970, in the Gregorian calendar. -/
def civilDate (days : Int) : Int × Nat × Nat :=
  let shifted := days + 719468
  let dayOfEra := (shifted % 146097).toNat
  let yearOfEra := (dayOfEra - dayOfEra / 1460 + dayOfEra / 36524 - dayOfEra / 146096) / 365
  let dayOfYear := dayOfEra - (365 * yearOfEra + yearOfEra / 4 - yearOfEra / 100)
  let march := (5 * dayOfYear + 2) / 153
  let month := if march < 10 then march + 2 else march - 10
  (shifted / 146097 * 400 + yearOfEra + (if month < 2 then 1 else 0), month,
    dayOfYear - (153 * march + 2) / 5 + 1)

/-- The date-time of a time in UTC; a year of more than four digits has a sign. -/
def formatImapDate (time : Int) : String :=
  let (year, month, day) := civilDate (timestamp time / 86400)
  let second := (timestamp time % 86400).toNat
  let sign := if year < 0 then "-" else if year > 9999 then "+" else ""
  padded 2 day ++ "-" ++ months.getD month "" ++ "-" ++ sign ++ padded 4 year.natAbs ++ " " ++
    padded 2 (second / 3600) ++ ":" ++ padded 2 (second / 60 % 60) ++ ":" ++ padded 2 (second % 60) ++
    " +0000"

example : formatImapDate 951782400000000 = "29-Feb-2000 00:00:00 +0000" := by decide +kernel

/-- No run on the small deployment reads a date, a secret or a header of a thread; a text query
finds the documents that have the queried word as their subject. -/
def libraries : Libraries where
  sha256 := sha256
  parseMessage := parseMessage
  jsonToString := printJson
  toRfc3339 _ := ""
  parseRfc3339 _ := .error "premature end of input"
  parseImapDateTime _ := .error "premature end of input"
  parseImapDate _ := none
  fromTimestamp timestamp :=
    if -8334601228800 ≤ timestamp ∧ timestamp ≤ 8210266876799 then some (timestamp * 1000000) else none
  formatImapDate := formatImapDate
  createdAt _ := 951782400000000
  lower := toAsciiLowercase
  decrypt := .ok
  verifyPassword hash password := .ok (hash == password)
  decodeBase64 _ := .error "invalid length"
  parseQuery query := .ok fun document => document.subject.any (query == "subject:" ++ ·)
  rank _ _ _ := 0
  deletesUnindexed := false
  threadHeaders _ := .ok (none, none, none)

/-! ## The account and its mailboxes -/

def account : MailAccount :=
  { userId := 1, emailAddress := "a@example.com", upstreamHost := "imap.example.com"
    upstreamPort := 993, upstreamTlsMode := .tls, upstreamAuthMethod := .login
    encryptedUpstreamUsername := text "a", encryptedUpstreamSecret := text "secret"
    disabledAt := none, lastSyncAt := none, lastSyncError := none }

def mailbox (name : String) (uidvalidity : Option Int) : Mailbox :=
  { Sync.syncedMailbox 1 name with uidvalidity }

def selection (uidvalidity : Option Int) : SelectedMailboxInfo :=
  { flags := [], exists' := none, recent := none, uidvalidity, uidnext := none
    highestmodseq := none, unseen := none, readOnly := false }

def upstreamMailbox (name : String) (uidvalidity : Option Int) : UpstreamMailbox :=
  { name, info := selection uidvalidity, messages := [], uidnext := 1, distinct := List.nodup_nil
    bounded := nofun, positive := Nat.one_pos }

/-- Deliver messages without flags to a mailbox, the first under UID 1. -/
def withMessages (mailbox : UpstreamMailbox) (bodies : List Bytes) : UpstreamMailbox :=
  bodies.foldl (fun mailbox body => mailbox.deliver [] none body) mailbox

def message (raw : Bytes) : Message :=
  let parsed := parsedText raw "hi"
  { accountId := 1, rfc822BlobKey := "Rfc822/" ++ sha256 raw, rfc822Sha256 := sha256 raw
    messageIdHeader := none, subject := parsed.subject, fromJson := .null, toJson := .null
    ccJson := .null, bccJson := .null, replyToJson := .null, envelopeJson := parsed.envelopeJson
    bodystructureJson := parsed.bodystructureJson, internalDate := none, sentDate := none
    sizeOctets := raw.length, textPreview := parsed.textPreview }

/-- The database with the account, its mailboxes and one message. -/
def db (mailboxes : List Mailbox) (rows : List MailboxMessage) : Db :=
  { Db.empty with
    accounts := .ofList [account]
    mailboxes := .ofList mailboxes
    messages := .ofList [message hiMessage]
    mailboxMessages := .ofList rows }

def world (db : Db) (upstream : Upstream) : World :=
  { db, upstream, blobs := [("Rfc822/" ++ sha256 hiMessage, hiMessage)], index := []
    sessions := fun _ => none, events := [], locks := [], attempts := fun _ => none, now := 0 }

/-- A row for the one message. -/
def row (mailboxId localUid : Int) (upstreamUid : Option Int) (flags : List String) :
    MailboxMessage :=
  { mailboxId, messageId := 1, localUid, upstreamUid, modseq := none, flags, keywords := []
    isExpunged := false, expungedAt := none }

/-- The view of such a row in the account's INBOX, for a message of the given subject. -/
def view (localUid : Int) (flags : List String) (subject : String) : MailboxMessageView :=
  let parsed := parsedText hiMessage subject
  { id := localUid, mailboxId := 1, messageId := 1, localUid, upstreamUid := none, modseq := none
    flags, keywords := [], createdAt := 951782400000000, rfc822BlobKey := "Rfc822/" ++ sha256 hiMessage
    subject := parsed.subject, envelopeJson := parsed.envelopeJson
    bodystructureJson := parsed.bodystructureJson, internalDate := none, sentDate := none
    sizeOctets := hiMessage.length, textPreview := parsed.textPreview }

/-- A server with one empty INBOX. -/
def emptyServer (uidvalidity : Option Int) : Upstream where
  mailboxes := [upstreamMailbox "INBOX" uidvalidity]
  uidplus := true
  distinct := List.pairwise_singleton _ _

end ImapCache.Sample
