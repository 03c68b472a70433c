import ImapCache.Model.Searching

/-!
# MIME parts

The records that `parse_message` makes of the parts of a message. `mailparse` gives the tree of the
parts; a part that is a message is parsed once more when its record is made, so the tree has the result
of that as well.
-/

namespace ImapCache.Mime
open Search

inductive DispositionType where
  | inline
  | attachment
  | formData
  | extension (value : String)
deriving DecidableEq, Repr

def DispositionType.text : DispositionType → String
  | inline => "inline"
  | attachment => "attachment"
  | formData => "form-data"
  | extension value => value

/-- What `mailparse` tells about a part apart from its subparts. -/
structure PartHead where
  mimetype : String
  charset : String
  ctypeParams : List (String × String)
  disposition : DispositionType
  dispositionParams : List (String × String)
  headers : List (String × String)
  /-- `get_body_raw`: the decoded body. -/
  bodyRaw : Except String Bytes

/-- `get_first_value` of the headers. -/
def PartHead.getFirstValue (head : PartHead) (key : String) : Option String :=
  (head.headers.find? fun header => eqIgnoreAsciiCase header.1 key).map (·.2)

/-- A part with its subparts and what `parse_mail` makes of its decoded body. -/
inductive ParsedMail where
  | mail (head : PartHead) (subparts : List ParsedMail) (embedded : Except String ParsedMail)

def PartHead.isMessage (head : PartHead) : Bool := eqIgnoreAsciiCase head.mimetype "message/rfc822"

/-- The record of a part that is not a multipart. -/
def partRecord (lib : Libraries) (head : PartHead) (path : String) (rawBytes : Bytes) :
    MimePartRecord :=
  let filename := (head.dispositionParams.lookup "filename").or (head.ctypeParams.lookup "name")
  let objectType :=
    if head.disposition.text = "attachment" ∨ filename.isSome then ObjectType.attachment else .mimePart
  { partPath := path
    contentType := head.mimetype
    charset := (some head.charset).filter (!·.isEmpty)
    disposition := some head.disposition.text
    filename
    contentId := (head.getFirstValue "Content-ID").map fun value =>
      String.ofList (trimChar '>' (trimChar '<' (trim value.toList)))
    sizeOctets := rawBytes.length
    blobKey := contentAddressedKey lib objectType rawBytes
    sha256 := lib.sha256 rawBytes
    transferEncoding := head.getFirstValue "Content-Transfer-Encoding"
    metadataJson := .obj ([("path", .str path), ("content_type", .str head.mimetype)] ++
      ((head.getFirstValue "Content-Description").map fun value => ("description", Json.str value)).toList)
    rawBytes }

def decodeBody (head : PartHead) (path : String) : Except Error Bytes :=
  match head.bodyRaw with
  | .ok rawBytes => .ok rawBytes
  | .error err => .error (.parse ("failed to decode MIME part " ++ path ++ ": " ++ err))

/-- The path of a child, counted from 0. -/
def childPath (path : String) (idx : Nat) : String :=
  if path.isEmpty then toString (idx + 1) else path ++ "." ++ toString (idx + 1)

mutual
/-- The records that `build_part_tree` adds. -/
def buildPartTree (lib : Libraries) (path : String) : ParsedMail → Except Error (List MimePartRecord)
  | .mail head subparts embedded =>
      if head.isMessage then do
        let rawBytes ← decodeBody head path
        let nested ← buildEmbedded lib path embedded
        pure (partRecord lib head path rawBytes :: nested)
      else if subparts.isEmpty then do
        let rawBytes ← decodeBody head path
        pure [partRecord lib head path rawBytes]
      else buildChildren lib path 0 subparts
/-- The records of the message in a part. -/
def buildEmbedded (lib : Libraries) (path : String) :
    Except String ParsedMail → Except Error (List MimePartRecord)
  | .error err => .error (.parse ("failed to parse embedded message " ++ path ++ ": " ++ err))
  | .ok nested => buildPartTree lib (path ++ ".1") nested
def buildChildren (lib : Libraries) (path : String) :
    Nat → List ParsedMail → Except Error (List MimePartRecord)
  | _, [] => .ok []
  | idx, child :: children => do
      let records ← buildPartTree lib (childPath path idx) child
      let others ← buildChildren lib path (idx + 1) children
      pure (records ++ others)
end

/-- The records of a message, as `parse_message` makes them. -/
def mimeParts (lib : Libraries) (mail : ParsedMail) : Except Error (List MimePartRecord) :=
  buildPartTree lib "1" mail

/-- The row that a record is stored in. -/
def partRow (messageId : Int) (part : MimePartRecord) : MimePart :=
  { messageId, partPath := part.partPath, contentType := part.contentType, charset := part.charset
    disposition := part.disposition, filename := part.filename, contentId := part.contentId
    sizeOctets := part.sizeOctets, blobKey := part.blobKey, sha256 := part.sha256
    transferEncoding := part.transferEncoding, metadataJson := part.metadataJson }

end ImapCache.Mime
