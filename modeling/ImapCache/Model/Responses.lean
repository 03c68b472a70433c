import ImapCache.Model.Domain

/-!
# FETCH responses

The view of a message that FETCH, SEARCH, SORT and THREAD read, and the text of the metadata items
of a FETCH response: flags, dates, the envelope and the body structure.
-/

namespace ImapCache

/-- A row of `mailbox_messages` joined with its message. -/
structure MailboxMessageView where
  id : Int
  mailboxId : Int
  messageId : Int
  localUid : Int
  upstreamUid : Option Int
  modseq : Option Int
  flags : List String
  keywords : List String
  createdAt : Int
  rfc822BlobKey : String
  subject : Option String
  envelopeJson : Json
  bodystructureJson : Json
  internalDate : Option Int
  sentDate : Option Int
  sizeOctets : Int
  textPreview : Option String

namespace Responses

def join (parts : List String) : String := " ".intercalate parts

/-! ## Quoting -/

/-- `value.replace(old, new)` of a single character. -/
def replaceChar (old : Char) (new : List Char) (value : String) : String :=
  String.ofList (value.toList.flatMap fun c => if c = old then new else [c])

def quoteImapString (value : String) : String :=
  "\"" ++ replaceChar '"' ['\\', '"'] (replaceChar '\\' ['\\', '\\'] value) ++ "\""

def nstring (value : Option String) : String :=
  match value with
  | some value => quoteImapString value
  | none => "NIL"

/-- The text under a key, if there is one. -/
def textAt (value : Json) (key : String) : Option String := (value.get key).bind Json.asStr

/-! ## ENVELOPE -/

/-- The parts of an address before and after its first `@`. -/
def addressParts (address : String) : Option String × Option String :=
  match splitOnce '@' address with
  | some (localPart, domainPart) => (some localPart, some domainPart)
  | none => (some address, none)

def encodeImapAddress (item : Json) : String :=
  let displayName := textAt item "display_name"
  let parts := addressParts ((textAt item "address").getD "")
  "(" ++ nstring displayName ++ " NIL " ++ nstring parts.1 ++ " " ++ nstring parts.2 ++ ")"

/-- The entries of an address list that are encoded: groups are left out. -/
def mailboxItems (items : List Json) : List Json :=
  items.filter fun item => (textAt item "kind").getD "mailbox" == "mailbox"

def encodeImapAddressList (value : Option Json) : String :=
  match value.bind Json.asArray with
  | none => "NIL"
  | some items =>
      let encoded := (mailboxItems items).map encodeImapAddress
      if encoded.isEmpty then "NIL" else "(" ++ join encoded ++ ")"

def encodeEnvelope (lib : Libraries) (value : Json) : String :=
  let date := (((value.get "date").bind Json.asI64).bind lib.fromTimestamp).map lib.formatImapDate
  let sender := encodeImapAddressList (value.get "from")
  let replyTo := encodeImapAddressList (value.get "reply_to")
  let recipients := encodeImapAddressList (value.get "to")
  let cc := encodeImapAddressList (value.get "cc")
  let bcc := encodeImapAddressList (value.get "bcc")
  "(" ++ join [nstring date, nstring (textAt value "subject"), sender, sender, replyTo,
    recipients, cc, bcc, "NIL", nstring (textAt value "message_id")] ++ ")"

/-! ## BODYSTRUCTURE -/

/-- The parameters whose value is a text. -/
def textParams (fields : List (String × Json)) : List (String × String) :=
  fields.filterMap fun field => field.2.asStr.map fun text => (field.1, text)

def encodeParamList (params : Option Json) : String :=
  match params with
  | some (.obj fields) =>
      let parts := (textParams fields).flatMap fun param =>
        [quoteImapString param.1, quoteImapString param.2]
      if parts.isEmpty then "NIL" else "(" ++ join parts ++ ")"
  | _ => "NIL"

inductive BodyKind where
  | multipart
  | message
  | single
deriving DecidableEq, Repr

/-- Which arm of `encode_bodystructure` a document takes. -/
def bodyKind (value : Json) : BodyKind :=
  match textAt value "type" with
  | some "multipart" => .multipart
  | some "message" => if textAt value "subtype" = some "rfc822" then .message else .single
  | _ => .single

def bodyParts (value : Json) : List Json := ((value.get "parts").bind Json.asArray).getD []

def numberAt (value : Json) (key : String) : Int := ((value.get key).bind Json.asI64).getD 0

def transferEncoding (value : Json) : String := (textAt value "transfer_encoding").getD "7BIT"

/-- The parameters of a single part: its charset alone when it has one. -/
def singleParams (value : Json) : String :=
  match textAt value "charset" with
  | some charset => "(" ++ join [quoteImapString "CHARSET", quoteImapString charset] ++ ")"
  | none => encodeParamList (value.get "params")

def encodeSinglePart (value : Json) : String :=
  let typeName := (textAt value "type").getD "application"
  let subtype := (textAt value "subtype").getD "octet-stream"
  let lines := if eqIgnoreAsciiCase typeName "text" then " 0 NIL NIL NIL)" else " NIL NIL NIL)"
  "(" ++ join [quoteImapString typeName, quoteImapString subtype, singleParams value, "NIL", "NIL",
    quoteImapString (transferEncoding value), toString (numberAt value "size")] ++ lines

theorem sizeOf_get {value inner : Json} {key : String} (found : value.get key = some inner) :
    sizeOf inner < sizeOf value := by
  cases value with
  | obj fields =>
      simp only [Json.get] at found
      have member : (key, inner) ∈ fields := by
        induction fields with
        | nil => cases found
        | cons field fields ih =>
            rw [List.lookup_cons] at found
            split at found
            · rename_i same
              cases found
              rw [beq_iff_eq] at same
              subst same
              exact List.mem_cons_self ..
            · exact List.mem_cons_of_mem _ (ih found)
      have := List.sizeOf_lt_of_mem member
      simp only [Prod.mk.sizeOf_spec, Json.obj.sizeOf_spec] at this ⊢
      omega
  | _ => cases found

theorem sizeOf_bodyParts {value part : Json} (member : part ∈ bodyParts value) :
    sizeOf part < sizeOf value := by
  unfold bodyParts at member
  cases found : value.get "parts" with
  | none => simp [found] at member
  | some inner =>
      have smaller := sizeOf_get found
      cases inner with
      | arr items =>
          simp only [found, Option.bind_some, Json.asArray, Option.getD_some] at member
          have := List.sizeOf_lt_of_mem member
          simp only [Json.arr.sizeOf_spec] at smaller
          omega
      | _ => simp [found, Json.asArray] at member

def encodeBodystructure (lib : Libraries) (value : Json) : String :=
  match bodyKind value with
  | .multipart =>
      let parts := (bodyParts value).attach.map fun part => encodeBodystructure lib part.1
      "(" ++ join [join parts, quoteImapString ((textAt value "subtype").getD "mixed"),
        encodeParamList (value.get "params")] ++ ")"
  | .message =>
      let envelope := (value.get "envelope").map (encodeEnvelope lib)
      let bodystructure := (value.get "bodystructure").attach.map fun inner =>
        encodeBodystructure lib inner.1
      "(" ++ join ["\"message\"", "\"rfc822\"", encodeParamList (value.get "params"), "NIL", "NIL",
        quoteImapString (transferEncoding value), toString (numberAt value "size"),
        envelope.getD "NIL", bodystructure.getD "NIL", toString (numberAt value "lines")] ++ ")"
  | .single => encodeSinglePart value
termination_by sizeOf value
decreasing_by
  · exact sizeOf_bodyParts part.2
  · exact sizeOf_get inner.2

/-! ## The response -/

/-- The date that INTERNALDATE shows: of the message or, without one, of its row. -/
def internalDate (view : MailboxMessageView) : Int := view.internalDate.getD view.createdAt

def formatFetchResponse (lib : Libraries) (sequenceNumber : Int) (view : MailboxMessageView)
    (items : List String) : String :=
  let wants (item : String) : Bool := items.contains item
  let part (wanted : Bool) (text : String) : List String := if wanted then [text] else []
  let parts :=
    part (wants "FLAGS") ("FLAGS (" ++ join view.flags ++ ")") ++
    part (wants "UID") ("UID " ++ toString view.localUid) ++
    part (wants "RFC822.SIZE" || wants "RFC822") ("RFC822.SIZE " ++ toString view.sizeOctets) ++
    part (wants "INTERNALDATE")
      ("INTERNALDATE " ++ quoteImapString (lib.formatImapDate (internalDate view))) ++
    part (wants "ENVELOPE") ("ENVELOPE " ++ encodeEnvelope lib view.envelopeJson) ++
    part (wants "BODYSTRUCTURE")
      ("BODYSTRUCTURE " ++ encodeBodystructure lib view.bodystructureJson) ++
    part (wants "MODSEQ") ("MODSEQ (" ++ toString (view.modseq.getD 0) ++ ")")
  "* " ++ toString sequenceNumber ++ " FETCH (" ++ join parts ++ ")"

end Responses
end ImapCache
