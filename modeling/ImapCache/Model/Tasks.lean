import ImapCache.Lib.System
import ImapCache.Model.RawFetch
import ImapCache.Model.SyncEngine

/-!
# The cache as a concurrent system

The processes of a running cache: client commands, enqueues, flushes of an account's queue and
syncs of an account or a mailbox, any number of each, over one world. A flush and a sync talk to
the upstream server over a connection of their own, numbered as the process is. Beside the
processes, time passes and the upstream server changes.
-/

namespace ImapCache
open Lib

inductive Command where
  | append (args : List String) (literal : Option Bytes)
  | copy (args : List String)
  | move (args : List String)
  | uidCopy (args : List String)
  | uidMove (args : List String)
  | expunge (args : List String)
  | uidExpunge (args : List String)
  | close
  | store (args : List String)
  | uidStore (args : List String)
  /-- A FETCH or UID command on the path that answers with raw bytes. -/
  | rawFetch (name : String) (args : List String)
deriving DecidableEq, Repr

def Command.code (context : Commands.Context) : Command → Action Commands.Reply
  | append args literal => Commands.append context args literal
  | copy args => Commands.transfer context false args
  | move args => Commands.transfer context true args
  | uidCopy args => Commands.uidTransfer context false args
  | uidMove args => Commands.uidTransfer context true args
  | expunge args => Commands.expunge context args
  | uidExpunge args => Commands.uidExpunge context args
  | close => Commands.close context
  | store args => Commands.store context args
  | uidStore args => Commands.uidStore context args
  | rawFetch name args => do
      let written ← RawFetch.writeRawFetchResponse context ⟨context.tag, name, args⟩
      context.reply (written.toList.map fun _ => Commands.ok context.tag "FETCH completed")

inductive Task where
  | command (tag : String) (session : Commands.Session) (request : Command)
  | queueFlagUpdate (accountId mailboxId : Int) (messageId : Option Int) (localUid : Int)
      (flags : List String)
  | flush (accountId : Int)
  | syncAccount (accountId : Int)
  | syncMailbox (accountId : Int) (mailboxName : String)
deriving DecidableEq, Repr

inductive Outcome where
  | replied (reply : Commands.Reply)
  | queued (mutationId : Int)
  | flushed (count : Nat)
  | synced (report : Sync.SyncRunReport)
  | syncedMailbox (count : Nat)
deriving DecidableEq, Repr

/-- How the services were started. -/
structure Services where
  mutationEngine : Bool
  lockManager : Bool
deriving DecidableEq, Repr

def Task.code (lib : Libraries) (services : Services) (pid : Nat) : Task → Action Outcome
  | command tag session request =>
      (request.code ⟨lib, services.mutationEngine, true, tag, session, pid⟩).bind fun reply =>
        .ret (.replied reply)
  | queueFlagUpdate accountId mailboxId messageId localUid flags =>
      (Mutations.queueFlagUpdate lib accountId mailboxId messageId localUid flags).bind fun row =>
        .ret (.queued row.id)
  | flush accountId =>
      (Mutations.flushPendingMutations lib accountId pid).bind fun count => .ret (.flushed count)
  | syncAccount accountId =>
      (Sync.syncAccount lib services.lockManager accountId pid).bind fun report =>
        .ret (.synced report)
  | syncMailbox accountId mailboxName =>
      (Sync.syncMailbox lib accountId mailboxName pid).bind fun count => .ret (.syncedMailbox count)

inductive Environment where
  | tick (elapsed : Time)
  /-- Other clients of the upstream server change it. -/
  | upstream (server : Upstream)
  /-- A lock whose holder is gone expires. -/
  | unlock (key : String)

def Environment.disturb : Environment → World → World
  | tick elapsed, world => { world with now := world.now + elapsed }
  | upstream server, world => { world with upstream := server }
  | unlock key, world => { world with locks := world.locks.filter (· != key) }

@[reducible] def cacheSystem (lib : Libraries) (services : Services) : System cacheSignature World where
  handler := cacheHandler lib
  Task := Task
  Out := Outcome
  code := Task.code lib services
  Env := Environment
  disturb := Environment.disturb

end ImapCache
