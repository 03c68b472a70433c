import Mathlib.Algebra.GroupWithZero.Nat
import Mathlib.Algebra.Ring.Int.Defs
import ImapCache.Lib.System
import ImapCache.Model.Ingest

/-!
# Concurrent ingestion

Ingestions and deletions of messages as the processes of a system over one world. What an ingestion
accounts for, and the messages that the ingestions of a run have accounted for.
-/

namespace ImapCache.Ingest
open Lib System

inductive MessageTask where
  | ingest (target : Target) (raw : Bytes) (parsed : ParsedMessage)
  | delete (mailboxId localUid : Int)

inductive MessageOutcome where
  | ingested (message : IngestedMessage)
  | deleted (count : Nat)

def MessageTask.code (lib : Libraries) : MessageTask → Action MessageOutcome
  | ingest target raw parsed =>
      (ingestParsedMessage lib target raw parsed).bind fun message => .ret (.ingested message)
  | delete mailboxId localUid =>
      (Repository.deleteMailboxMessage mailboxId localUid).bind fun count => .ret (.deleted count)

@[reducible] def messageSystem (lib : Libraries) : System cacheSignature World where
  handler := cacheHandler lib
  Task := MessageTask
  Out := MessageOutcome
  code _ := MessageTask.code lib
  Env := Time
  disturb elapsed world := { world with now := world.now + elapsed }

/-- The bytes of a message and its parts. -/
def messageBytes (raw : Bytes) (parsed : ParsedMessage) : Int :=
  raw.length + ((parsed.mimeParts.map fun part => (part.rawBytes.length : Int)).sum)

/-- The id and the bytes of the message that a call completes the ingestion of, for one account. -/
def completed {lib : Libraries} (accountId : Int) (t : Transition (messageSystem lib)) : Option (Int × Int) :=
  match t.event with
  | .call pid (.ingest target raw parsed) _ _ =>
      match t.after.procs pid with
      | some (_, .ret (.ingested message)) =>
          if target.accountId = accountId then some (message.messageId, messageBytes raw parsed) else none
      | _ => none
  | _ => none

def ingested {lib : Libraries} (accountId : Int) (trace : List (Transition (messageSystem lib))) :
    List (Int × Int) := trace.filterMap (completed accountId)

/-- A mailbox has the message. -/
def present (db : Db) (messageId : Int) : Bool :=
  db.mailboxMessages.rows.any (·.data.messageId == messageId)

/-- The bytes of those messages that have not been deleted. -/
def presentBytes (db : Db) (messages : List (Int × Int)) : Int :=
  ((messages.filter fun message => present db message.1).map (·.2)).sum

end ImapCache.Ingest
