import Mathlib.Algebra.GroupWithZero.Nat
import Mathlib.Algebra.Ring.Int.Defs
import ImapCache.Model.Admin
import ImapCache.Model.RawFetch
import ImapCache.Model.Tasks

/-!
# References to cached objects

The operations that count the references to cached objects, one after the other, and what the counts
stand for: the uses of an object by the messages that an account's mailboxes currently have.
-/

namespace ImapCache
open Lib Prog

namespace Db

/-- The rows of the mailboxes of an account. -/
def currentMessages (db : Db) (accountId : Int) : List (Row MailboxMessage) :=
  db.mailboxMessages.rows.filter fun row =>
    !row.data.isExpunged && (db.mailbox row.data.mailboxId).any (·.data.accountId == accountId)

/-- How often a message of the account uses an object. -/
def uses (db : Db) (accountId messageId : Int) (blobKey : String) : Nat :=
  ((db.listMessageCacheObjects accountId messageId).map (·.blobKey)).count blobKey

def liveReferences (db : Db) (accountId : Int) (blobKey : String) : Nat :=
  ((db.currentMessages accountId).map fun row => db.uses accountId row.data.messageId blobKey).sum

/-- The references that the cache objects of an account count for a key. -/
def countedReferences (db : Db) (accountId : Int) (blobKey : String) : Int :=
  ((db.cacheObjects.rows.filter fun row =>
    row.data.accountId == some accountId && row.data.blobKey == blobKey).map (·.data.refCount)).sum

end Db

inductive CacheCommand where
  | ingest (target : Ingest.Target) (raw : Bytes)
  | copy (sourceMailboxId destinationMailboxId localUid : Int)
  | deleteMessage (mailboxId localUid : Int)
  | deleteMailbox (accountId : Int) (mailboxName : String)
  /-- A section of a message is loaded, which restores objects that are missing. -/
  | load (connection : Nat) (mailboxId localUid : Int) (bodySection : Protocol.RawFetchSection)
      (range : Option (Nat × Option Nat))
  | prune (accountId : Int) (keepLatestObjects : Nat)
  | environment (change : Environment)

namespace CacheCommand

/-- The message of a mailbox that a section is loaded of. -/
def source (lib : Libraries) (world : World) (connection : Nat) (mailboxId localUid : Int) :
    Option RawFetch.Source :=
  (world.db.mailbox mailboxId).bind fun mailbox =>
    ((world.db.listMailboxMessageViews lib.createdAt mailboxId).find? (·.localUid == localUid)).map
      fun view => ⟨lib, connection, mailbox.data.accountId, mailbox.data.name, view⟩

/-- The world after the command has run to its end; cache objects were created at the given times. -/
def apply (lib : Libraries) (createdAt : Int → Time) (world : World) : CacheCommand → World
  | ingest target raw => ((Ingest.ingestRawMessage lib target raw).eval (cacheHandler lib) world).2
  | copy source destination localUid =>
      ((Repository.copyMailboxMessage source destination localUid).eval (cacheHandler lib) world).2
  | deleteMessage mailboxId localUid =>
      ((Repository.deleteMailboxMessage mailboxId localUid).eval (cacheHandler lib) world).2
  | deleteMailbox accountId mailboxName =>
      ((Repository.deleteMailbox accountId mailboxName).eval (cacheHandler lib) world).2
  | load connection mailboxId localUid bodySection range =>
      match source lib world connection mailboxId localUid with
      | some loaded =>
          ((RawFetch.loadRawFetchBytes loaded bodySection range).eval (cacheHandler lib) world).2
      | none => world
  | prune accountId keepLatestObjects =>
      ((Admin.pruneCacheObjectsForAccount accountId keepLatestObjects).eval
        (Admin.adminHandler createdAt) world).2
  | environment change => change.disturb world

def run (lib : Libraries) (createdAt : Int → Time) (world : World) (commands : List CacheCommand) : World :=
  commands.foldl (fun world command => command.apply lib createdAt world) world

/-- A blob is given up although a current message of the account uses it. -/
def GivesUpUsed (db : Db) (now : Time) (accountId : Int) (blobKey : String) : Prop :=
  (db.deleteCacheObjectForAccount now accountId blobKey).map (·.1) = .ok true ∧
    db.liveReferences accountId blobKey ≠ 0

/-- No call of the command gives up a blob that is used. -/
def GivesUpSafely (lib : Libraries) (createdAt : Int → Time) (world : World) : CacheCommand → Prop
  | ingest target raw => (Ingest.ingestRawMessage lib target raw).Avoids (cacheHandler lib) bad world
  | copy source destination localUid =>
      (Repository.copyMailboxMessage source destination localUid).Avoids (cacheHandler lib) bad world
  | deleteMessage mailboxId localUid =>
      (Repository.deleteMailboxMessage mailboxId localUid).Avoids (cacheHandler lib) bad world
  | deleteMailbox accountId mailboxName =>
      (Repository.deleteMailbox accountId mailboxName).Avoids (cacheHandler lib) bad world
  | load connection mailboxId localUid bodySection range =>
      ∀ loaded, source lib world connection mailboxId localUid = some loaded →
        (RawFetch.loadRawFetchBytes loaded bodySection range).Avoids (cacheHandler lib) bad world
  | prune accountId keepLatestObjects =>
      (Admin.pruneCacheObjectsForAccount accountId keepLatestObjects).Avoids (Admin.adminHandler createdAt)
        badPrune world
  | environment _ => True
where
  bad : Op → World → Prop
    | .deleteCacheObjectForAccount accountId blobKey, world =>
        GivesUpUsed world.db world.now accountId blobKey
    | _, _ => False
  badPrune : Admin.AdminOp → World → Prop
    | .deleteCacheObjectForAccount accountId blobKey, world =>
        GivesUpUsed world.db world.now accountId blobKey
    | _, _ => False

end CacheCommand
end ImapCache
