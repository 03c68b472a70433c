import ImapCache.Model.Connection
import ImapCache.Model.UpstreamLines

/-!
# The upstream client

`UpstreamClient` on a connected stream: the commands it writes, the lines of the responses, the status
that ends one and what the client takes from the lines before it. The bytes of a literal are read off the
same stream between two lines.
-/

namespace ImapCache.UpstreamClient
open Lib Protocol Search UpstreamLines

inductive Failure where
  | error (failure : Error)
  | panic (reason : Panic)
deriving DecidableEq, Repr

/-- `incoming` is what the server has sent and the client has not read yet. -/
structure Client where
  nextTag : Nat
  capabilities : List String
  incoming : Bytes
  outgoing : Bytes
deriving DecidableEq, Repr

structure CommandResponse where
  tagged : String
  untagged : List String
  continuations : List String
deriving DecidableEq, Repr

def orPanics {α : Type} : Except Panic α → Except Failure α
  | .ok value => .ok value
  | .error reason => .error (.panic reason)

/-! ## Lines -/

/-- A line without its line break, and the bytes after it. -/
def readTextLine (incoming : Bytes) : Except Failure (String × Bytes) :=
  let (line, rest) := Session.readLine incoming
  if line.isEmpty then .error (.error (.parse "upstream closed connection"))
  else
    match fromUtf8 line with
    | none => .error (.error (.io "stream did not contain valid UTF-8"))
    | some line => .ok (String.ofList (trimLineEnd line.toList), rest)

/-- `read_exact` into a vector of the size. -/
def readExact (size : Nat) (incoming : Bytes) : Except Failure (Bytes × Bytes) :=
  if Session.maxAllocation < size then .error (.panic .capacityOverflow)
  else if incoming.length < size then .error (.error (.io "early eof"))
  else .ok (incoming.take size, incoming.drop size)

/-! ## Statuses -/

def ensureOk (tagged : String) : Except Failure Unit :=
  if containsText tagged.toList " OK ".toList then .ok ()
  else if containsText tagged.toList " NO ".toList then .error (.error .authenticationFailed)
  else if containsText tagged.toList " BAD ".toList then .error (.error (.imapCommand tagged))
  else .error (.error (.parse ("unexpected tagged response: " ++ tagged)))

/-! ## Commands -/

def commandLine (tag command : String) (args : List String) : String :=
  args.foldl (fun line arg => line ++ " " ++ arg) (tag ++ " " ++ command) ++ "\r\n"

/-- The client after a command is written. -/
def Client.write (client : Client) (text : String) : Client :=
  { client with nextTag := client.nextTag + 1, outgoing := client.outgoing ++ Mutations.utf8 text }

/-- Every round takes a byte, so that the number of bytes is fuel enough. -/
def readResponse (tag : String) : Nat → List String → List String → Bytes →
    Except Failure (CommandResponse × Bytes)
  | 0, _, _, _ => .error (.error (.parse "upstream closed connection"))
  | fuel + 1, untagged, continuations, incoming => do
      let (response, rest) ← readTextLine incoming
      if startsWith "+ " response.toList then
        readResponse tag fuel untagged (continuations ++ [response]) rest
      else if startsWith "* " response.toList then
        readResponse tag fuel (untagged ++ [response]) continuations rest
      else if startsWith tag response.toList then .ok (⟨response, untagged, continuations⟩, rest)
      else .error (.error (.parse ("unexpected IMAP response line: " ++ response)))

/-- The capabilities of the last line that lists some. -/
def updateCapabilities (capabilities : List String) (untagged : List String) : List String :=
  untagged.foldl (fun capabilities line =>
    match stripPrefix "* CAPABILITY ".toList line.toList with
    | some found => splitWhitespace found
    | none => capabilities) capabilities

def sendCommand (client : Client) (command : String) (args : List String) :
    Except Failure (CommandResponse × Client) := do
  let tag := tagText client.nextTag
  let client := client.write (commandLine tag command args)
  let (response, incoming) ← readResponse tag (client.incoming.length + 1) [] [] client.incoming
  .ok (response, { client with
    incoming, capabilities := updateCapabilities client.capabilities response.untagged })

/-- A command whose answer is its status. -/
def sendChecked (client : Client) (command : String) (args : List String) :
    Except Failure (CommandResponse × Client) := do
  let (response, client) ← sendCommand client command args
  ensureOk response.tagged
  .ok (response, client)

def login (client : Client) (username password : String) : Except Failure Client := do
  let (_, client) ← sendChecked client "LOGIN" [quote username, quote password]
  .ok client

def uidStoreFlags (client : Client) (uid : Nat) (flags : List String) : Except Failure Client := do
  let (_, client) ← sendChecked client "UID"
    ["STORE", toString uid, "FLAGS.SILENT", "(" ++ Responses.join flags ++ ")"]
  .ok client

def expungeSelected (client : Client) : Except Failure Client := do
  let (_, client) ← sendChecked client "EXPUNGE" []
  .ok client

def listMailboxes (client : Client) : Except Failure (List String × Client) := do
  let (response, client) ← sendChecked client "LIST" [quote "", quote "*"]
  .ok (UpstreamLines.listMailboxes response.untagged, client)

/-! ## SELECT -/

/-- The items of a list in parentheses, without quotes around them; a text that is no list has none. -/
def parseParenthesizedList (value : List Char) : List String :=
  match (stripPrefix ['('] (trim value)).bind (stripSuffix [')']) with
  | some inner => (splitWhitespace inner).map fun item => String.ofList (trimChar '"' item.toList)
  | none => []

/-- The value of a response code in brackets. -/
def extractBracketedResponseCode (line code : String) : Except Panic (Option (List Char)) := do
  let marker := "[" ++ code ++ " "
  match Slice.findOffset (startsWith marker) line.toList with
  | none => pure none
  | some index => do
      let start := index + Slice.byteLength marker.toList
      let rest ← textFrom line.toList start
      match Slice.findOffset (fun rest => rest.head? == some ']') rest with
      | none => pure none
      | some length => do
          let value ← textBetween line.toList start (length + start)
          pure (some (trim value))

/-- The response codes of SELECT with the columns that they fill in. -/
def selectCodes : List (String × (SelectedMailboxInfo → Option Int → SelectedMailboxInfo)) :=
  [("UIDVALIDITY", fun info value => { info with uidvalidity := value }),
    ("UIDNEXT", fun info value => { info with uidnext := value }),
    ("HIGHESTMODSEQ", fun info value => { info with highestmodseq := value }),
    ("UNSEEN", fun info value => { info with unseen := value })]

/-- The first code that a line has fills in its column. -/
def readCodes (info : SelectedMailboxInfo) (line : String) :
    List (String × (SelectedMailboxInfo → Option Int → SelectedMailboxInfo)) →
    Except Panic SelectedMailboxInfo
  | [] => pure (if containsText line.toList "[READ-ONLY]".toList then { info with readOnly := true }
      else info)
  | (code, fill) :: codes => do
      match ← extractBracketedResponseCode line code with
      | some value => pure (fill info (Commands.parseI64 value))
      | none => readCodes info line codes

def readSelectLine (info : SelectedMailboxInfo) (line : String) : Except Panic SelectedMailboxInfo :=
  match stripPrefix "* FLAGS ".toList line.toList with
  | some rest => pure { info with
      flags := (parseParenthesizedList rest).map fun item => String.ofList (trimChar '"' item.toList) }
  | none =>
      let count (suffix : String) : Option (List Char) :=
        (stripPrefix "* ".toList line.toList).bind (stripSuffix suffix.toList)
      match count " EXISTS", count " RECENT" with
      | some value, _ => pure { info with exists' := Commands.parseI64 (trim value) }
      | none, some value => pure { info with recent := Commands.parseI64 (trim value) }
      | none, none => readCodes info line selectCodes

def selectMailbox (client : Client) (mailbox : String) :
    Except Failure (SelectedMailboxInfo × Client) := do
  let (response, client) ← sendCommand client "SELECT" [quote mailbox]
  let info ← orPanics (response.untagged.foldlM readSelectLine
    ⟨[], none, none, none, none, none, none, false⟩)
  ensureOk response.tagged
  .ok (info, client)

/-! ## FETCH -/

def parseFetchFlags (line : String) (uid : Nat) : Except Panic (Option (List String)) := do
  let trimmed := trim line.toList
  if !startsWith "* " trimmed || !containsText trimmed " FETCH ".toList then pure none
  else if !containsText trimmed ("UID " ++ toString uid).toList then pure none
  else
    match Slice.findOffset (startsWith "FLAGS (") trimmed with
    | none => pure none
    | some index => do
        let start := index + 6
        let rest ← textFrom trimmed start
        match Slice.findOffset (fun rest => rest.head? == some ')') rest with
        | none => pure none
        | some length => do
            let list ← textBetween trimmed start (length + start + 1)
            pure (some (parseParenthesizedList list))

/-- The flags of the first line that has some for the UID. -/
def findFetchFlags (uid : Nat) : List String → Except Panic (Option (List String))
  | [] => pure none
  | line :: lines => do
      match ← parseFetchFlags line uid with
      | some flags => pure (some flags)
      | none => findFetchFlags uid lines

def uidFetchFlags (client : Client) (uid : Nat) : Except Failure (List String × Client) := do
  let (response, client) ← sendChecked client "UID" ["FETCH", toString uid, "(UID FLAGS)"]
  match ← orPanics (findFetchFlags uid response.untagged) with
  | some flags => .ok (flags, client)
  | none => .error (.error (.parse ("FETCH response missing flags for UID " ++ toString uid)))

/-- The text of the error of `str::parse::<usize>`: digits are taken until the number gets too large. -/
def parseIntError (token : List Char) : String :=
  let digits := match token with
    | '+' :: rest => rest
    | digits => digits
  let value : Nat := (digits.takeWhile Char.isDigit).foldl (fun n c => 10 * n + (c.toNat - '0'.toNat)) 0
  if token.isEmpty then "cannot parse integer from empty string"
  else if 18446744073709551615 < value then "number too large to fit in target type"
  else "invalid digit found in string"

/-- The size between the last brace that opens and the last one that closes. -/
def parseLiteralSize (line : List Char) : Except Failure Nat := do
  let last (brace : Char) (rest : List Char) : Bool := rest.head? == some brace && !rest.tail.contains brace
  match Slice.findOffset (last '\x7b') line, Slice.findOffset (last '\x7d') line with
  | none, _ => .error (.error (.parse ("missing literal marker in response: " ++ String.ofList line)))
  | some _, none =>
      .error (.error (.parse ("missing literal terminator in response: " ++ String.ofList line)))
  | some start, some stop => do
      let size ← orPanics (textBetween line (start + 1) stop)
      match parseU64 size with
      | some size => .ok size
      | none => .error (.error (.parse ("invalid literal size in response: " ++ parseIntError size)))

/-- Whether a line announces the literal of a FETCH response. -/
def announcesLiteral (response : List Char) : Bool :=
  startsWith "* " response && containsText response "FETCH".toList && response.contains '\x7b' &&
    response.getLast? == some '\x7d'

/-- The loop of `uid_fetch_rfc822`: a literal replaces the one before it. Every round takes a byte. -/
def readBody (tag : String) : Nat → Option Bytes → Bytes → Except Failure (Bytes × Bytes)
  | 0, _, _ => .error (.error (.parse "upstream closed connection"))
  | fuel + 1, body, incoming => do
      let (response, rest) ← readTextLine incoming
      if response.isEmpty || response == ")" then readBody tag fuel body rest
      else if announcesLiteral response.toList then
        let size ← parseLiteralSize response.toList
        let (bytes, rest) ← readExact size rest
        readBody tag fuel (some bytes) rest
      else if startsWith tag response.toList then
        ensureOk response
        match body with
        | some body => .ok (body, rest)
        | none => .error (.error (.parse "FETCH completed without a literal body"))
      else readBody tag fuel body rest

def uidFetchRfc822 (client : Client) (uid : Nat) : Except Failure (Bytes × Client) := do
  let tag := tagText client.nextTag
  let client := client.write (tag ++ " UID FETCH " ++ toString uid ++ " (UID BODY.PEEK[])\r\n")
  let (body, incoming) ← readBody tag (client.incoming.length + 1) none client.incoming
  .ok (body, { client with incoming })

end ImapCache.UpstreamClient
