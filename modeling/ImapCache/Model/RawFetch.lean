import ImapCache.Model.FlagCommands

/-!
# Raw FETCH

A FETCH of a message body: the bytes come from the object store or, if the object is gone, from the
upstream server, and a message that was not only peeked at is marked as seen. `handle_connection`
tries this path first for every FETCH and every UID command.
-/

namespace ImapCache.RawFetch
open Lib Prog Repository Protocol Commands Mutations

/-! ## Sections of a message -/

def crlf : Bytes := [13, 10]

/-- The position of the empty line that ends the header. -/
def headerEnd : Bytes → Option Nat
  | [] => none
  | byte :: rest =>
      if [13, 10, 13, 10].isPrefixOf (byte :: rest) then some 0 else (headerEnd rest).map (· + 1)

def splitRfc822 (raw : Bytes) : Bytes × Bytes :=
  match headerEnd raw with
  | some index => (raw.take (index + 2), raw.drop (index + 4))
  | none => (raw, [])

/-- The loop of `header_blocks`, `current` being the bytes since the last start. The last line of a
header that ends with a line break is there twice, the second time with its line break. -/
def headerBlocksFrom (current : Bytes) : Bytes → List Bytes
  | [] => [current]
  | [byte] => [current ++ [byte]]
  | byte :: next :: rest =>
      if byte = 13 ∧ next = 10 then
        match rest with
        | [] => [current, current ++ crlf]
        | following :: rest =>
            if following = 32 ∨ following = 9 then
              headerBlocksFrom (current ++ crlf) (following :: rest)
            else current :: headerBlocksFrom [] (following :: rest)
      else headerBlocksFrom (current ++ [byte]) (next :: rest)

def headerBlocks (headers : Bytes) : List Bytes :=
  (headerBlocksFrom [] headers).filter (!·.isEmpty)

/-! ### Header names -/

/-- The number of continuation bytes after a leading byte and the bounds of the first of them. -/
def leadByte (byte : Nat) : Option (Nat × Nat × Nat) :=
  if 0xC2 ≤ byte ∧ byte ≤ 0xDF then some (1, 0x80, 0xBF)
  else if byte = 0xE0 then some (2, 0xA0, 0xBF)
  else if byte = 0xED then some (2, 0x80, 0x9F)
  else if 0xE1 ≤ byte ∧ byte ≤ 0xEF then some (2, 0x80, 0xBF)
  else if byte = 0xF0 then some (3, 0x90, 0xBF)
  else if byte = 0xF4 then some (3, 0x80, 0x8F)
  else if 0xF1 ≤ byte ∧ byte ≤ 0xF3 then some (3, 0x80, 0xBF)
  else none

/-- How many of the wanted continuation bytes are there. -/
def continuation : Nat → Nat → Nat → Bytes → Nat
  | 0, _, _, _ => 0
  | _, _, _, [] => 0
  | wanted + 1, low, high, byte :: rest =>
      if low ≤ byte.toNat ∧ byte.toNat ≤ high then continuation wanted 0x80 0xBF rest + 1 else 0

/-- `String::from_utf8_lossy`: a sequence that breaks off becomes one replacement character. -/
def fromUtf8Lossy : Nat → Bytes → List Char
  | 0, _ => []
  | _, [] => []
  | fuel + 1, byte :: rest =>
      if byte.toNat < 0x80 then Char.ofNat byte.toNat :: fromUtf8Lossy fuel rest
      else
        match leadByte byte.toNat with
        | none => '\uFFFD' :: fromUtf8Lossy fuel rest
        | some (wanted, low, high) =>
            let found := continuation wanted low high rest
            let lead := byte.toNat % 2 ^ (6 - wanted)
            let c := if found = wanted then
                Char.ofNat ((rest.take wanted).foldl (fun n byte => n * 64 + byte.toNat % 64) lead)
              else '\uFFFD'
            c :: fromUtf8Lossy fuel (rest.drop found)

def headerName (block : Bytes) : Option String :=
  let firstLine := match (block.tails.findIdx? (crlf.isPrefixOf ·)) with
    | some index => block.take index
    | none => block
  (firstLine.findIdx? (· == 58)).map fun colon =>
    toAsciiUppercase (String.ofList (trim (fromUtf8Lossy colon (firstLine.take colon))))

def selectHeaderBlocks (headers : Bytes) (names : List String) (negated : Bool) : Bytes :=
  (headerBlocks headers).flatMap (fun block =>
    let name := (headerName block).getD ""
    if (names.any (eqIgnoreAsciiCase · name)) != negated then block ++ crlf else []) ++ crlf

def rawFetchBytes (raw : Bytes) (bodySection : FetchBodySection) : Bytes :=
  let (headers, body) := splitRfc822 raw
  match bodySection with
  | .full => raw
  | .header | .mime => headers ++ crlf
  | .text => body
  | .headerFields names negated => selectHeaderBlocks headers names negated

/-! ### Parts -/

def synthesizeMimePartHeaders (part : MimePart) : Bytes :=
  let charset := (part.charset.map fun charset => "; charset=\"" ++ charset ++ "\"").getD ""
  let optional (value : Option String) (line : String → String) : String :=
    (value.map line).getD ""
  let disposition := match part.disposition, part.filename with
    | some disposition, some filename =>
        "Content-Disposition: " ++ disposition ++ ";\r\n\tfilename=\"" ++ filename ++ "\"\r\n"
    | some disposition, none => "Content-Disposition: " ++ disposition ++ "\r\n"
    | none, some filename =>
        "Content-Disposition: attachment;\r\n\tfilename=\"" ++ filename ++ "\"\r\n"
    | none, none => ""
  utf8 ("Content-Type: " ++ part.contentType ++ charset ++ "\r\n" ++
    optional part.transferEncoding (fun encoding =>
      "Content-Transfer-Encoding: " ++ encoding ++ "\r\n") ++
    optional part.contentId (fun contentId => "Content-ID: <" ++ contentId ++ ">\r\n") ++
    optional ((part.metadataJson.get "description").bind Json.asStr) (fun description =>
      "Content-Description: " ++ description ++ "\r\n") ++
    disposition ++ "\r\n")

def mimePartFetchBytes (raw : Bytes) (part : MimePart) (bodySection : FetchBodySection) : Bytes :=
  if eqIgnoreAsciiCase part.contentType "message/rfc822" then rawFetchBytes raw bodySection
  else
    match bodySection with
    | .full | .text => raw
    | .header | .mime => synthesizeMimePartHeaders part
    | .headerFields names negated =>
        selectHeaderBlocks (synthesizeMimePartHeaders part) names negated

def cacheObjectTypeForMimePart (part : MimePart) : String :=
  if part.disposition == some "attachment" || part.filename.isSome then "Attachment" else "MimePart"

/-- `offset.saturating_add(count)`. -/
def saturatingEnd (offset count : Nat) : Nat := min (offset + count) 18446744073709551615

def applyPartial (bytes : Bytes) (range : Option (Nat × Option Nat)) : Bytes :=
  match range with
  | none => bytes
  | some (offset, count) =>
      if offset ≥ bytes.length then []
      else
        let stop := match count with
          | some count => min (saturatingEnd offset count) bytes.length
          | none => bytes.length
        (bytes.take stop).drop offset

/-! ## Loading -/

/-- Which message of which account is read, and the connection to open if it has to be fetched. -/
structure Source where
  lib : Libraries
  connection : Nat
  accountId : Int
  mailboxName : String
  view : MailboxMessageView

/-- The record of an object that was put back: a new one, or the old one touched. -/
def recordObject (accountId : Int) (objectType : String) (metadata : ObjectMetadata) :
    Action Unit := do
  let known ← await (.findCacheObjectByAccountTypeAndBlobKey accountId objectType metadata.key)
  if known.isNone then await (.upsertCacheObject (Ingest.newCacheObject accountId objectType metadata))
  else do
    let _ ← await (.touchCacheObject accountId metadata.key)
    pure ()

def rehydrateMissingRawBlob (source : Source) : Action (Option Bytes) := do
  let some upstreamUid := source.view.upstreamUid | pure none
  let some account ← await (.findAccountByIdAnyState source.accountId) | pure none
  let some config ← upstreamAccountConfig source.lib account.data.emailAddress | pure none
  await (.connectUpstream source.connection config)
  let _ ← await (.selectMailbox source.connection source.mailboxName)
  let raw ← await (.uidFetchRfc822 source.connection (i64AsU64 upstreamUid))
  let metadata ← await (.putObject source.view.rfc822BlobKey raw)
  recordObject source.accountId "rfc822" metadata
  pure (some raw)

/-- The range of an object that is there; its record is touched, whatever comes of that. -/
def loadRange (source : Source) (key : String) (offset : Nat) (count : Option Nat) :
    Action (Option Bytes) := do
  let bytes ← await (.getObjectRange key offset (count.map (saturatingEnd offset)))
  onlyIf bytes.isSome (tell (.touchCacheObject source.accountId key))
  pure bytes

/-- Bytes that are there, or else what the fallback has. -/
def orLoad (stored : Option Bytes) (fallback : Action (Option Bytes)) : Action (Option Bytes) :=
  match stored with
  | some raw => pure (some raw)
  | none => fallback

def loadRaw (source : Source) : Action (Option Bytes) := do
  let stored ← await (.getObject source.view.rfc822BlobKey)
  match stored with
  | some raw => do
      tell (.touchCacheObject source.accountId source.view.rfc822BlobKey)
      pure (some raw)
  | none => rehydrateMissingRawBlob source

/-- The bytes of a part whose object is gone, from the raw message, put back into the store. -/
def restorePart (source : Source) (part : MimePart) (storedPath : String) :
    Action (Option Bytes) := do
  let stored ← await (.getObject source.view.rfc822BlobKey)
  let raw ← orLoad stored (rehydrateMissingRawBlob source)
  let some raw := raw | pure none
  let parsed ← ofExcept (source.lib.parseMessage raw)
  let some record := parsed.mimeParts.find? (·.partPath == storedPath) | pure none
  let metadata ← await (.putObject part.blobKey record.rawBytes)
  recordObject source.accountId (cacheObjectTypeForMimePart part) metadata
  pure (some record.rawBytes)

def loadPart (source : Source) (part : MimePart) (storedPath : String)
    (bodySection : FetchBodySection) (range : Option (Nat × Option Nat)) :
    Action (Option Bytes) := do
  let stored ← await (.getObject part.blobKey)
  let raw ← orLoad stored (restorePart source part storedPath)
  let some raw := raw | pure none
  tell (.touchCacheObject source.accountId part.blobKey)
  pure (some (applyPartial (mimePartFetchBytes raw part bodySection) range))

def loadRawFetchBytes (source : Source) (bodySection : RawFetchSection)
    (range : Option (Nat × Option Nat)) : Action (Option Bytes) :=
  match bodySection, range with
  | .whole .full, some (offset, count) => do
      let bytes ← loadRange source source.view.rfc822BlobKey offset count
      if bytes.isSome then pure bytes
      else do
        let raw ← rehydrateMissingRawBlob source
        pure (raw.map fun raw => applyPartial (rawFetchBytes raw .full) range)
  | .whole bodySection, range => do
      let raw ← loadRaw source
      pure (raw.map fun raw => applyPartial (rawFetchBytes raw bodySection) range)
  | .part path bodySection, range => do
      let storedPath := "1." ++ path
      let some part ← await (.findMimePartByMessageAndPath source.accountId source.view.messageId
          storedPath) | pure none
      match bodySection, range with
      | .full, some (offset, count) => loadRange source part.data.blobKey offset count
      | bodySection, range => loadPart source part.data storedPath bodySection range

/-! ## The response -/

def resolveSequenceViews (mailboxId : Int) (set : String) :
    Action (List (Int × MailboxMessageView)) := do
  let messages ← await (.listMailboxMessageViews mailboxId)
  let sequences ← numberSet set messages.length
  pure (sequences.filterMap fun sequence =>
    messages[(sequence - 1).toNat]?.map fun message => (sequence, message))

def resolveUidViews (mailboxId : Int) (set : String) : Action (List MailboxMessageView) := do
  let messages ← await (.listMailboxMessageViews mailboxId)
  let uids ← numberSet set ((messages.map (·.localUid)).max?.getD 0)
  pure (messages.filter fun message => uids.contains message.localUid)

/-- The messages of a set with the number that each is announced under. -/
def resolveViews (isUid : Bool) (mailboxId : Int) (set : String) :
    Action (List (Int × MailboxMessageView)) :=
  if isUid then do
    let views ← resolveUidViews mailboxId set
    pure (views.map fun view => (view.localUid, view))
  else resolveSequenceViews mailboxId set

def fetchMetadataPart (lib : Libraries) (view : MailboxMessageView) (item : String) : Option String :=
  match item with
  | "FLAGS" => some ("FLAGS (" ++ Responses.join view.flags ++ ")")
  | "UID" => some ("UID " ++ toString view.localUid)
  | "RFC822.SIZE" => some ("RFC822.SIZE " ++ toString view.sizeOctets)
  | "INTERNALDATE" => some ("INTERNALDATE " ++
      Responses.quoteImapString (lib.formatImapDate (Responses.internalDate view)))
  | "ENVELOPE" => some ("ENVELOPE " ++ Responses.encodeEnvelope lib view.envelopeJson)
  | "BODYSTRUCTURE" =>
      some ("BODYSTRUCTURE " ++ Responses.encodeBodystructure lib view.bodystructureJson)
  | _ => none

def hasSeen (flags : List String) : Bool := flags.any (eqIgnoreAsciiCase · "\\Seen")

def markSeen (context : Context) (accountId mailboxId : Int) (view : MailboxMessageView) :
    Action Unit := do
  let flags := dedupeFlags (view.flags ++ ["\\Seen"])
  let _ ← updateMailboxMessageFlags mailboxId view.localUid flags
  queueFlags context accountId mailboxId view.localUid flags

/-- The items of a FETCH of raw bytes: the raw one, those before it and those after it. -/
structure RawItems where
  before : List String
  request : RawFetchRequest
  after : List String

def rawResponse (lib : Libraries) (sequence : Int) (view : MailboxMessageView) (items : RawItems)
    (selected : Bytes) : Bytes :=
  let before := items.before.filterMap (fetchMetadataPart lib view)
  let after := items.after.filterMap (fetchMetadataPart lib view)
  let start := "* " ++ toString sequence ++ " FETCH (" ++
    (if before.isEmpty then "" else Responses.join before ++ " ") ++ items.request.label
  let stop := if after.isEmpty then ")\r\n" else " " ++ Responses.join after ++ " )\r\n"
  utf8 (start ++ " \x7b" ++ toString selected.length ++ "\x7d\r\n") ++ selected ++ utf8 stop

/-- The first item that asks for raw bytes and the items around it. -/
@[irreducible] def splitRawItem : List String → Except Panic (Option RawItems)
  | [] => pure none
  | item :: items => do
      match ← parseRawFetchRequest item with
      | some request => pure (some ⟨[], request, items⟩)
      | none =>
          let found ← splitRawItem items
          pure (found.map fun found => { found with before := item :: found.before })

/-- One round of the loop over the messages; it carries the bytes that were written. -/
def fetchRaw (context : Context) (accountId : Int) (mailboxName : String) (mailboxId : Int)
    (items : RawItems) (written : Bytes) (target : Int × MailboxMessageView) : Action Bytes := do
  let bytes ← loadRawFetchBytes ⟨context.lib, context.connection, accountId, mailboxName, target.2⟩
    items.request.bodySection items.request.range
  let bytes ← orThrow bytes (.storage ("missing raw RFC822 blob: " ++ target.2.rfc822BlobKey))
  onlyIf (!items.request.peek && !hasSeen target.2.flags)
    (markSeen context accountId mailboxId target.2)
  pure (written ++ rawResponse context.lib target.1 target.2 items bytes)

def fetchRawTargets (context : Context) (accountId : Int) (mailboxName : String) (mailboxId : Int)
    (items : RawItems) (targets : List (Int × MailboxMessageView)) : Action Bytes :=
  targets.foldlM (fetchRaw context accountId mailboxName mailboxId items) []

/-- The answer for a set of messages; `args` holds the words after the set. -/
def answerRawFetch (context : Context) (accountId : Int) (mailboxName : String) (mailboxId : Int)
    (isUid : Bool) (set : String) (args : List String) : Action (Option Bytes) := do
  let some items ← orPanic (splitRawItem (parseFetchItems args)) | pure none
  let targets ← resolveViews isUid mailboxId set
  let written ← fetchRawTargets context accountId mailboxName mailboxId items targets
  pure (some written)

/-- The bytes that are written for a FETCH with a raw item; nothing if there is no such item, or no
account, mailbox or message set. Only the name of the command is looked at, not the subcommand of
UID. -/
def writeRawFetchResponse (context : Context) (command : ParsedCommand) : Action (Option Bytes) := do
  let some accountId := context.session.accountId | pure none
  let some selectedMailbox := context.session.selectedMailboxName | pure none
  let some mailbox ← await (.findMailbox accountId selectedMailbox) | pure none
  let isUid := eqIgnoreAsciiCase command.name "UID"
  let setIndex := if isUid then 1 else 0
  match command.args[setIndex]? with
  | none => pure none
  | some set => do
      let args ← orPanic (argsFrom command.args (setIndex + 1))
      answerRawFetch context accountId selectedMailbox mailbox.id isUid set args

end ImapCache.RawFetch
