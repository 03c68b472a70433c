import ImapCache.Model.Protocol

/-!
# STORE

STORE and UID STORE read the rows of a mailbox, compute the flags in memory and write each list
back in a transaction of its own. UID STORE queues its mutations after all of its writes.
-/

namespace ImapCache.Commands
open Lib Prog Repository Protocol

/-- Append the flags that are not there yet, whatever their case. -/
def addFlags (flags : List String) (added : List String) : List String :=
  added.foldl (fun out flag =>
    if out.any (eqIgnoreAsciiCase · flag) then out else out ++ [flag]) flags

def dedupeFlags (flags : List String) : List String := addFlags [] flags

def applyStoreFlags (current : List String) (mode : StoreMode) (requested : List String) :
    List String :=
  match mode with
  | .replace => dedupeFlags requested
  | .add => addFlags current requested
  | .remove => current.filter fun existing => !requested.any (eqIgnoreAsciiCase existing ·)

def storedFlags (request : StoreRequest) (message : Row MailboxMessage) : List String :=
  applyStoreFlags message.data.flags request.mode request.flags

def fetchFlagsLine (sequence : Nat) (flags : List String) : String :=
  "* " ++ toString sequence ++ " FETCH (FLAGS (" ++ Responses.join flags ++ "))"

def queueFlags (context : Context) (accountId mailboxId localUid : Int) (flags : List String) :
    Action Unit :=
  onlyIf context.mutationEngine do
    let _ ← Mutations.queueFlagUpdate context.lib accountId mailboxId none localUid flags
    pure ()

def storeTarget (context : Context) (accountId mailboxId : Int) (request : StoreRequest)
    (lines : List String) (target : Nat × Row MailboxMessage) : Action (List String) := do
  let flags := storedFlags request target.2
  let _ ← updateMailboxMessageFlags mailboxId target.2.data.localUid flags
  queueFlags context accountId mailboxId target.2.data.localUid flags
  pure (if request.silent then lines else lines ++ [fetchFlagsLine target.1 flags])

def storeText (context : Context) (name : String) : String :=
  ok context.tag (name ++ if context.mutationEngine then " queued" else " completed")

def store (context : Context) (args : List String) : Action Reply := do
  let some accountId := context.session.accountId
    | context.reply [no context.tag "BADSTATE" "STORE requires an authenticated account"]
  let some selectedMailbox := context.session.selectedMailboxName
    | context.reply [no context.tag "BADSTATE" "STORE requires a selected mailbox"]
  let some mailbox ← await (.findMailbox accountId selectedMailbox)
    | context.reply [no context.tag "NONEXISTENT" "selected mailbox not found"]
  if context.session.isReadOnly then
    context.reply [no context.tag "READ-ONLY" "STORE is not permitted in a read-only mailbox"]
  else do
    let request ← ofExcept (parseStoreRequest args)
    let targets ← resolveSequenceTargets mailbox.id request.set
    let lines ← targets.foldlM (storeTarget context accountId mailbox.id request) []
    refreshMailboxCounts mailbox.id
    context.reply (lines ++ [storeText context "STORE"])

def sequenceNumberForLocalUid (mailboxId localUid : Int) : Action (Option Nat) := do
  let messages ← await (.listMailboxMessages mailboxId)
  pure ((messages.findIdx? (·.data.localUid == localUid)).map (· + 1))

/-- One round of the first loop of UID STORE; a row that is gone is not announced. -/
def uidStoreTarget (mailboxId : Int) (request : StoreRequest) (lines : List String)
    (message : Row MailboxMessage) : Action (List String) := do
  let flags := storedFlags request message
  let _ ← updateMailboxMessageFlags mailboxId message.data.localUid flags
  if request.silent then pure lines
  else do
    let sequence ← sequenceNumberForLocalUid mailboxId message.data.localUid
    pure (lines ++ (sequence.map (fetchFlagsLine · flags)).toList)

def uidStore (context : Context) (args : List String) : Action Reply :=
  withUidMailbox context fun accountId mailbox => do
    if context.session.isReadOnly then
      context.reply
        [no context.tag "READ-ONLY" "UID STORE is not permitted in a read-only mailbox"]
    else do
      let request ← ofExcept (parseStoreRequest args)
      let targets ← resolveUidTargets mailbox.id request.set
      let lines ← targets.foldlM (uidStoreTarget mailbox.id request) []
      refreshMailboxCounts mailbox.id
      forEach targets fun message =>
        queueFlags context accountId mailbox.id message.data.localUid (storedFlags request message)
      context.reply (lines ++ [storeText context "UID STORE"])

end ImapCache.Commands
