import ImapCache.Model.Ingest
import ImapCache.Model.Mutations

/-!
# Client commands

The commands of `handle_parsed_command` that add messages to a mailbox or remove them from it:
APPEND, COPY and MOVE with and without UID, EXPUNGE, UID EXPUNGE and CLOSE. A command answers with
the lines that the client is sent.
-/

namespace ImapCache.Commands
open Lib Prog Repository

/-! ## Reading arguments -/

/-- `str::parse::<i64>`: a sign and at least one digit, in range. -/
def parseI64 (token : List Char) : Option Int :=
  let (negative, digits) := match token with
    | '-' :: rest => (true, rest)
    | '+' :: rest => (false, rest)
    | digits => (false, digits)
  if digits.isEmpty || digits.any (!·.isDigit) then none
  else
    let magnitude : Int := digits.foldl (fun n c => 10 * n + (c.toNat - '0'.toNat)) (0 : Nat)
    let value := if negative then -magnitude else magnitude
    if -i64Max - 1 ≤ value ∧ value ≤ i64Max then some value else none

/-- The integers of `lo..=hi`. -/
def inclusiveRange (lo hi : Int) : List Int :=
  (List.range (hi + 1 - lo).toNat).map fun (i : Nat) => lo + i

def setParts (value : String) : List (List Char) :=
  ((value.toList.splitOn ',').map trim).filter (!·.isEmpty)

/-- The bounds of one part of a set; a part that is no number and no range has none. -/
def partBounds (maxValue : Int) (part : List Char) : Option (Int × Int) :=
  let expand (token : List Char) : Option Int :=
    if token = ['*'] then some maxValue else parseI64 token
  match part.span (· != ':') with
  | (start, _ :: stop) =>
      match expand (trim start), expand (trim stop) with
      | some start, some stop => some (min start stop, max start stop)
      | _, _ => none
  | (_, []) => (expand part).map fun value => (value, value)

def parseNumberSet (value : String) (maxValue : Int) : List Int :=
  let numbers (part : List Char) : List Int :=
    match partBounds maxValue part with
    | some (lo, hi) => inclusiveRange lo hi
    | none => []
  (((((setParts value).flatMap numbers).insertionSort (· ≤ ·)).destutter (· ≠ ·))).filter (0 < ·)

/-- The most 64-bit integers that a vector can have room for. -/
def maxCapacity : Nat := 1152921504606846975

/-- Length and capacity of a vector that is to take more elements; the capacity at least doubles. -/
def reserve (vector : Nat × Nat) (additional : Nat) : Option (Nat × Nat) :=
  let length := vector.1 + additional
  if length ≤ vector.2 then some (length, vector.2)
  else
    let capacity := max (max (2 * vector.2) length) 4
    if capacity ≤ maxCapacity then some (length, capacity) else none

/-- Whether the numbers of a set fit into a vector, duplicates and numbers out of range included. -/
def numberSetFits (value : String) (maxValue : Int) : Bool :=
  (((setParts value).filterMap (partBounds maxValue)).foldlM
    (fun vector bounds => reserve vector (bounds.2 + 1 - bounds.1).toNat) (0, 0)).isSome

/-- `parse_number_set`, which panics when its vector gets too large. -/
def numberSet (value : String) (maxValue : Int) : Action (List Int) :=
  if numberSetFits value maxValue then pure (parseNumberSet value maxValue)
  else orPanic (.error .capacityOverflow)

def parseFlagList (value : String) : List String :=
  let trimmed := trim value.toList
  let trimmed := match trimmed with
    | '(' :: rest => rest
    | trimmed => trimmed
  let trimmed := if trimmed.getLast? = some ')' then trimmed.dropLast else trimmed
  ((trimmed.splitOnP isWhitespace).filter (!·.isEmpty)).map String.ofList

def parseImapDateTime (lib : Libraries) (value : String) : Except Error Int :=
  match lib.parseImapDateTime value with
  | .ok date => .ok date
  | .error err => .error (.parse ("invalid IMAP date-time \"" ++ value ++ "\": " ++ err))

def parseAppendMetadata (lib : Libraries) (args : List String) (bodyIndex : Nat) :
    Except Error (List String × Option Int) :=
  let isFlagList (token : String) : Bool := token.toList.head? == some '('
  let tooMany : Error := .parse "APPEND accepts at most one flag list and one date-time"
  match (args.take bodyIndex).drop 1 with
  | [] => .ok ([], none)
  | [token] =>
      if isFlagList token then .ok (parseFlagList token, none)
      else (parseImapDateTime lib token).map fun date => ([], some date)
  | [first, second] =>
      match isFlagList first, isFlagList second with
      | true, false =>
          (parseImapDateTime lib second).map fun date => (parseFlagList first, some date)
      | false, true =>
          (parseImapDateTime lib first).map fun date => (parseFlagList second, some date)
      | _, _ => .error tooMany
  | _ => .error tooMany

/-! ## Sessions and replies -/

inductive SessionState where
  | notAuthenticated
  | authenticated
  | selectedMailbox (mailbox : String) (readOnly : Bool)
  | logout
deriving DecidableEq, Repr

/-- What the commands read of an `ImapSession`: the account of the authenticated user, the state,
and the id of the mailbox in the snapshot that SELECT took. -/
structure Session where
  accountId : Option Int
  state : SessionState
  snapshotMailboxId : Option Int
deriving DecidableEq, Repr

def Session.selectedMailboxName (session : Session) : Option String :=
  match session.state with
  | .selectedMailbox mailbox _ => some mailbox
  | _ => none

def Session.isReadOnly (session : Session) : Bool :=
  match session.state with
  | .selectedMailbox _ readOnly => readOnly
  | _ => false

structure Reply where
  lines : List String
  session : Session
deriving DecidableEq, Repr

def ok (tag text : String) : String := tag ++ " OK " ++ text

def bad (tag text : String) : String := tag ++ " BAD " ++ text

def no (tag code text : String) : String := tag ++ " NO [" ++ code ++ "] " ++ text

def flagsContainDeleted (flags : List String) : Bool :=
  flags.any (eqIgnoreAsciiCase · "\\Deleted")

def expungeLine (sequence : Nat) : String := "* " ++ toString sequence ++ " EXPUNGE"

/-! ## The messages a command names -/

/-- The rows with their sequence numbers, from 1 on. -/
def numbered (messages : List (Row MailboxMessage)) : List (Nat × Row MailboxMessage) :=
  messages.zipIdx.map fun entry => (entry.2 + 1, entry.1)

def resolveSequenceTargets (mailboxId : Int) (set : String) :
    Action (List (Nat × Row MailboxMessage)) := do
  let messages ← await (.listMailboxMessages mailboxId)
  let sequences ← numberSet set messages.length
  pure (sequences.filterMap fun sequence =>
    messages[(sequence - 1).toNat]?.map fun message => (sequence.toNat, message))

/-- The UIDs of a set; `*` is the largest UID, 0 in an empty mailbox. -/
def uidTargets (messages : List (Row MailboxMessage)) (set : String) : Action (List Int) :=
  numberSet set ((messages.map (·.data.localUid)).max?.getD 0)

def resolveUidTargets (mailboxId : Int) (set : String) : Action (List (Row MailboxMessage)) := do
  let messages ← await (.listMailboxMessages mailboxId)
  let uids ← uidTargets messages set
  pure (messages.filter fun message => uids.contains message.data.localUid)

/-! ## APPEND -/

/-- What a command needs besides its arguments: its tag, the session, the libraries, whether the
server was started with a mutation engine and with a search index, and the number of the upstream connection that it opens
if it has to. -/
structure Context where
  lib : Libraries
  mutationEngine : Bool
  search : Bool
  tag : String
  session : Session
  connection : Nat

def Context.reply (context : Context) (lines : List String) : Action Reply :=
  pure ⟨lines, context.session⟩

/-- What APPEND does once its arguments are read. -/
def appendMessage (context : Context) (accountId : Int) (mailbox : Row Mailbox)
    (mailboxName : String) (flags : List String) (internalDate : Option Int) (raw : Bytes) :
    Action Reply := do
  let ingested ← Ingest.ingestRawMessage context.lib
    { accountId, mailboxId := mailbox.id, mailboxName, localUid := 0, upstreamUid := none
      internalDate, flags, indexed := context.search } raw
  refreshMailboxCounts mailbox.id
  onlyIf context.mutationEngine do
    let _ ← Mutations.queueAppend context.lib accountId mailbox.id mailboxName
      (some ingested.localUid) raw flags internalDate
    pure ()
  let text := if context.mutationEngine then "APPEND queued" else "APPEND completed"
  context.reply [context.tag ++ " OK [APPENDUID " ++ toString (mailbox.data.uidvalidity.getD 1) ++
    " " ++ toString ingested.localUid ++ "] " ++ text]

def append (context : Context) (args : List String) (literal : Option Bytes) : Action Reply := do
  let some accountId := context.session.accountId
    | context.reply [no context.tag "BADSTATE" "APPEND requires an authenticated account"]
  let some mailboxName := args.head?
    | context.reply [bad context.tag "APPEND requires a mailbox"]
  let some mailbox ← await (.findMailbox accountId mailboxName)
    | context.reply [no context.tag "NONEXISTENT" "selected mailbox not found"]
  let bodyIndex := (args.zipIdx.reverse.find? fun arg => arg.1.toList.head? == some '\x7b').map (·.2)
    |>.getD (args.length - 1)
  match parseAppendMetadata context.lib args bodyIndex with
  | .error err => context.reply [bad context.tag err.text]
  | .ok (flags, internalDate) =>
      let some raw := literal.or (if bodyIndex > 0 then
          some ((args[bodyIndex]?.map Mutations.utf8).getD []) else none)
        | context.reply [bad context.tag "APPEND requires a literal"]
      appendMessage context accountId mailbox mailboxName flags internalDate raw

/-! ## COPY and MOVE -/

/-- The source and the destination of a command, and what it has done so far. -/
structure Transferred where
  copied : List (Int × Int)
  lines : List String
deriving DecidableEq, Repr

/-- The mutation that a copied row is queued with. -/
def queueTransferred (context : Context) (move : Bool) (accountId : Int)
    (source destination : Row Mailbox) (message copiedMessage : Row MailboxMessage) :
    Action Unit := do
  let transfer : Mutations.Transfer :=
    { sourceMailboxId := source.id, destinationMailboxId := destination.id
      sourceMailbox := source.data.name, destinationMailbox := destination.data.name
      localUid := message.data.localUid, destinationLocalUid := copiedMessage.data.localUid
      flags := message.data.flags }
  let queue := if move then Mutations.queueMoveMessage else Mutations.queueCopyMessage
  let _ ← queue context.lib accountId transfer
  pure ()

/-- The pair of UIDs that a copied row adds to the answer. -/
def copiedUids (message : Row MailboxMessage) (copiedMessage : Option (Row MailboxMessage)) :
    List (Int × Int) :=
  copiedMessage.toList.map fun copied => (message.data.localUid, copied.data.localUid)

/-- One round of the loop of COPY and MOVE; the sequence number is there when a MOVE announces
the removal. A MOVE removes the source row whether or not there was a row to copy. -/
def transferMessage (context : Context) (move : Bool) (accountId : Int)
    (source destination : Row Mailbox) (progress : Transferred)
    (target : Option Nat × Row MailboxMessage) : Action Transferred := do
  let message := target.2
  let copiedMessage ← copyMailboxMessage source.id destination.id message.data.localUid
  forEach copiedMessage.toList fun copiedMessage =>
    onlyIf context.mutationEngine
      (queueTransferred context move accountId source destination message copiedMessage)
  let copied := progress.copied ++ copiedUids message copiedMessage
  if move then
    let _ ← deleteMailboxMessage source.id message.data.localUid
    pure ⟨copied, progress.lines ++ (target.1.map expungeLine).toList⟩
  else
    pure ⟨copied, progress.lines⟩

/-- What COPY and MOVE do once their arguments are read. -/
def transferMessages (context : Context) (name : String) (move : Bool) (accountId : Int)
    (source destination : Row Mailbox) (targets : List (Option Nat × Row MailboxMessage)) :
    Action Reply := do
  let done ← targets.foldlM (transferMessage context move accountId source destination) ⟨[], []⟩
  refreshMailboxCounts source.id
  refreshMailboxCounts destination.id
  let uids (uids : List Int) : String := ",".intercalate (uids.map toString)
  let completion := if done.copied.isEmpty then ok context.tag (name ++ " completed")
    else context.tag ++ " OK [COPYUID " ++ toString (destination.data.uidvalidity.getD 1) ++ " " ++
      uids (done.copied.map (·.1)) ++ " " ++ uids (done.copied.map (·.2)) ++ "] " ++ name ++
      " completed"
  context.reply (done.lines ++ [completion])

def transferName (move : Bool) : String := if move then "MOVE" else "COPY"

/-- COPY and MOVE of sequence numbers. -/
def transfer (context : Context) (move : Bool) (args : List String) : Action Reply := do
  let name := transferName move
  let some accountId := context.session.accountId
    | context.reply [no context.tag "BADSTATE" (name ++ " requires an authenticated account")]
  let some selectedMailbox := context.session.selectedMailboxName
    | context.reply [no context.tag "BADSTATE" (name ++ " requires a selected mailbox")]
  let some sourceMailbox ← await (.findMailbox accountId selectedMailbox)
    | context.reply [no context.tag "NONEXISTENT" "selected mailbox not found"]
  let some set := args[0]? | context.reply [bad context.tag (name ++ " requires a message set")]
  let some destinationName := args[1]?
    | context.reply [bad context.tag (name ++ " requires a destination mailbox")]
  let some destinationMailbox ← await (.findMailbox accountId destinationName)
    | context.reply [no context.tag "NONEXISTENT" "destination mailbox not found"]
  if move && context.session.isReadOnly then
    context.reply [no context.tag "READ-ONLY" "MOVE is not permitted in a read-only mailbox"]
  else do
    let targets ← resolveSequenceTargets sourceMailbox.id set
    transferMessages context name move accountId sourceMailbox destinationMailbox
      (targets.map fun target => (some target.1, target.2))

/-- The mailbox of a UID command, or the reply when there is none. -/
def withUidMailbox (context : Context) (body : Int → Row Mailbox → Action Reply) : Action Reply := do
  let some accountId := context.session.accountId
    | context.reply [no context.tag "BADSTATE" "UID requires an authenticated account"]
  let some selectedMailbox := context.session.selectedMailboxName
    | context.reply [no context.tag "BADSTATE" "UID requires a selected mailbox"]
  let some sourceMailbox ← await (.findMailbox accountId selectedMailbox)
    | context.reply [no context.tag "NONEXISTENT" "selected mailbox not found"]
  body accountId sourceMailbox

/-- UID COPY and UID MOVE; `args` follow the subcommand. -/
def uidTransfer (context : Context) (move : Bool) (args : List String) : Action Reply :=
  withUidMailbox context fun accountId sourceMailbox => do
    let name := "UID " ++ transferName move
    if move && context.session.isReadOnly then
      context.reply [no context.tag "READ-ONLY" "MOVE is not permitted in a read-only mailbox"]
    else do
      let some set := args[0]? | context.reply [bad context.tag (name ++ " requires a UID set")]
      let some destinationName := args[1]?
        | context.reply [bad context.tag (name ++ " requires a destination mailbox")]
      let some destinationMailbox ← await (.findMailbox accountId destinationName)
        | context.reply [no context.tag "NONEXISTENT" "destination mailbox not found"]
      let targets ← resolveUidTargets sourceMailbox.id set
      transferMessages context name move accountId sourceMailbox destinationMailbox
        (targets.map fun target => (none, target))

/-! ## EXPUNGE and CLOSE -/

/-- Delete the targets from the last to the first and announce each. -/
def expungeTargets (mailboxId : Int) (targets : List (Nat × Row MailboxMessage)) :
    Action (List String) :=
  (targets.insertionSort fun a b => a.1 ≤ b.1).reverse.foldlM (fun lines target => do
    let _ ← deleteMailboxMessage mailboxId target.2.data.localUid
    pure (lines ++ [expungeLine target.1])) []

/-- What EXPUNGE removes: the messages marked as deleted or, given a message set, those of the
set. -/
def expungeSet (mailboxId : Int) (set : Option String) : Action (List (Nat × Row MailboxMessage)) :=
  match set with
  | some set => resolveSequenceTargets mailboxId set
  | none => do
      let messages ← await (.listMailboxMessages mailboxId)
      pure ((numbered messages).filter fun target => flagsContainDeleted target.2.data.flags)

def expunge (context : Context) (args : List String) : Action Reply := do
  let some accountId := context.session.accountId
    | context.reply [no context.tag "BADSTATE" "EXPUNGE requires an authenticated account"]
  let some selectedMailbox := context.session.selectedMailboxName
    | context.reply [no context.tag "BADSTATE" "EXPUNGE requires a selected mailbox"]
  let some mailbox ← await (.findMailbox accountId selectedMailbox)
    | context.reply [no context.tag "NONEXISTENT" "selected mailbox not found"]
  if context.session.isReadOnly then
    context.reply [no context.tag "READ-ONLY" "EXPUNGE is not permitted in a read-only mailbox"]
  else do
    let targets ← expungeSet mailbox.id args.head?
    let lines ← expungeTargets mailbox.id targets
    refreshMailboxCounts mailbox.id
    context.reply (lines ++ [ok context.tag "EXPUNGE completed"])

def uidExpunge (context : Context) (args : List String) : Action Reply :=
  withUidMailbox context fun _ mailbox => do
    if context.session.isReadOnly then
      context.reply
        [no context.tag "READ-ONLY" "UID EXPUNGE is not permitted in a read-only mailbox"]
    else do
      let some uidSet := args[0]? | context.reply [bad context.tag "UID EXPUNGE requires a UID set"]
      let messages ← await (.listMailboxMessages mailbox.id)
      let uids ← uidTargets messages uidSet
      let lines ← expungeTargets mailbox.id ((numbered messages).filter fun target =>
        uids.contains target.2.data.localUid && flagsContainDeleted target.2.data.flags)
      refreshMailboxCounts mailbox.id
      context.reply (lines ++ [ok context.tag "UID EXPUNGE completed"])

def closeMailbox (mailboxId : Int) : Action Unit := do
  let messages ← await (.listMailboxMessages mailboxId)
  forEach (messages.filter fun message => flagsContainDeleted message.data.flags) fun message => do
    let _ ← deleteMailboxMessage mailboxId message.data.localUid
    pure ()
  refreshMailboxCounts mailboxId

/-- CLOSE works on the mailbox of the snapshot, without announcing what it deletes. -/
def close (context : Context) : Action Reply := do
  let some _ := context.session.selectedMailboxName
    | context.reply [no context.tag "BADSTATE" "CLOSE requires a selected mailbox"]
  let snapshot := context.session.snapshotMailboxId.filter fun mailboxId =>
    mailboxId > 0 && !context.session.isReadOnly
  forEach snapshot.toList closeMailbox
  pure ⟨[ok context.tag "CLOSE completed"],
    { context.session with state := .authenticated, snapshotMailboxId := none }⟩

end ImapCache.Commands
