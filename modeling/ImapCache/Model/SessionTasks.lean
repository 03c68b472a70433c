import ImapCache.Lib.System
import ImapCache.Model.Connection
import ImapCache.Model.Tasks

/-!
# Commands of many sessions

The rounds of all connections as the processes of a system over one world: each serves a command in the
session that the one before it left to its client, or sees that the client has gone. The mailbox a session
has selected is the one in the snapshot of its SELECT.
-/

namespace ImapCache

/-- The mailboxes whose messages an operation reads or changes, or queues a change for. -/
def Op.messageMailboxes : Op → List Int
  | listMailboxMessages mailboxId | listMailboxMessageViews mailboxId
  | refreshMailboxCounts mailboxId => [mailboxId]
  | updateMailboxMessageFlags mailboxId .. | deleteMailboxMessage mailboxId ..
  | setMailboxMessageUpstreamUid mailboxId .. | upsertUidMapping mailboxId ..
  | messageUpstreamUid mailboxId .. | mappedUpstreamUid mailboxId .. => [mailboxId]
  | insertMailboxMessage input => [input.mailboxId]
  | copyMailboxMessage source destination _ => [source, destination]
  | enqueueMutation input => [input.mailboxId]
  | _ => []

namespace Session
open Lib System

/-- A round of a connection: a command, or the end of what the client sends. -/
structure SessionTask where
  connection : Connection
  input : Option Input

namespace SessionTask

/-- The id that SELECT has put into the snapshot. -/
def selectedId (task : SessionTask) : Option Int :=
  task.connection.session.selectedMailboxSnapshot.map (·.mailboxId)

/-- FETCH, STORE, SEARCH, EXPUNGE and CLOSE, and those of them that UID has. -/
def onMessages (task : SessionTask) : Bool :=
  task.input.any fun input =>
    ["FETCH", "STORE", "SEARCH", "EXPUNGE", "CLOSE"].contains input.name ||
      input.name == "UID" && input.command.args.head?.any fun subcommand =>
        ["FETCH", "STORE", "SEARCH", "EXPUNGE"].contains (toAsciiUppercase subcommand)

end SessionTask

@[reducible] def sessionSystem (server : Server) : System cacheSignature World where
  handler := cacheHandler server.lib
  Task := SessionTask
  Out := Served
  code pid task := serveRound { server with connection := pid } task.connection task.input
  Env := Environment
  disturb := Environment.disturb

variable {server : Server}

/-- A command on messages touches those of the mailbox that its session has selected. -/
def actsOnSelected (t : Transition (sessionSystem server)) : Bool :=
  match t.event with
  | .call _ task op _ =>
      !task.onMessages || op.messageMailboxes.all fun mailboxId => task.selectedId == some mailboxId
  | _ => true

/-- When a command on messages looks up a name, the name is still that of the selected mailbox, or of
none. -/
def findsSelected (t : Transition (sessionSystem server)) : Bool :=
  match t.event with
  | .call _ task (.findMailbox accountId mailboxName) _ =>
      !task.onMessages || (t.before.state.db.findMailbox accountId mailboxName).all fun mailbox =>
        task.selectedId == some mailbox.id
  | _ => true

end Session
end ImapCache
