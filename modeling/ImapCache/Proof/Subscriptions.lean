import ImapCache.Lib.System
import ImapCache.Model.Sample
import ImapCache.Model.Session
import ImapCache.Proof.Footprints
import ImapCache.Proof.MailboxRows

/-!
# Subscriptions and syncs

Any number of SUBSCRIBE and UNSUBSCRIBE commands and of syncs run at once. A sync writes every column
of the mailbox row before it starts, the subscription among them, so what a client has set survives
as long as no sync writes the row of an unsubscribed mailbox.
-/

namespace ImapCache.Subscriptions
open Lib Prog System

inductive SubscriptionTask where
  | subscribe (session : Session.ImapSession) (tag : String) (args : List String)
  | unsubscribe (session : Session.ImapSession) (tag : String) (args : List String)
  | syncAccount (accountId : Int)
  | syncMailbox (accountId : Int) (mailboxName : String)

structure Deployment where
  lib : Libraries
  services : Session.AppServices
  lockManager : Bool

def Deployment.request (deployment : Deployment) (pid : Nat) (session : Session.ImapSession)
    (tag name : String) (args : List String) : Session.Request :=
  ⟨deployment.lib, deployment.services, pid, session, tag, name, args, none⟩

def SubscriptionTask.code (deployment : Deployment) (pid : Nat) : SubscriptionTask → Action Unit
  | subscribe session tag args =>
      (Session.subscribe (deployment.request pid session tag "SUBSCRIBE" args)).bind fun _ => .ret ()
  | unsubscribe session tag args =>
      (Session.subscribe (deployment.request pid session tag "UNSUBSCRIBE" args)).bind fun _ => .ret ()
  | syncAccount accountId =>
      (Sync.syncAccount deployment.lib deployment.lockManager accountId pid).bind fun _ => .ret ()
  | syncMailbox accountId mailboxName =>
      (Sync.syncMailbox deployment.lib accountId mailboxName pid).bind fun _ => .ret ()

def subscriptionSystem (deployment : Deployment) : System cacheSignature World where
  handler := cacheHandler deployment.lib
  Task := SubscriptionTask
  Out := Unit
  code := SubscriptionTask.code deployment
  Env := Environment
  disturb := Environment.disturb

variable {deployment : Deployment}

/-- The subscription that a client sets for a mailbox with a step. -/
def subscriptionSet (mailboxId : Int) (t : Transition (subscriptionSystem deployment)) : Option Bool :=
  match t.event with
  | .call _ _ (.setMailboxSubscribed accountId mailboxName subscribed) fault =>
      if fault.reaches &&
          (t.before.state.db.mailbox mailboxId).any (Db.namedMailbox accountId mailboxName) then
        some subscribed
      else none
  | _ => none

/-- What a client has set last for a mailbox, since it was created. -/
def lastSubscription (mailboxId : Int) : List (Transition (subscriptionSystem deployment)) → Option Bool
  | [] => none
  | t :: older =>
      if (t.after.state.db.mailbox mailboxId).isNone then none
      else (subscriptionSet mailboxId t).or (lastSubscription mailboxId older)

/-- The step is the first write of a sync, on a mailbox whose subscription is another one. -/
def overwritesSubscription (t : Transition (subscriptionSystem deployment)) : Bool :=
  match t.event with
  | .call _ _ (.upsertMailbox input) fault =>
      fault.reaches && t.before.state.db.mailboxes.rows.any fun row =>
        row.data.accountId == input.accountId && row.data.canonicalName == input.canonicalName &&
          row.data.subscribed != input.subscribed
  | _ => false

/-! ## The operations of the tasks -/

def SubscriptionOp : Op → Prop
  | .setMailboxSubscribed .. => True
  | op => op.syncing = true

theorem subscriptionOp_of_syncing (op : Op) (syncing : op.syncing = true) : SubscriptionOp op := by
  cases op <;> first | exact syncing | trivial

theorem subscribe_uses (request : Session.Request) : (Session.subscribe request).Uses SubscriptionOp := by
  unfold Session.subscribe Session.onMailbox Session.Request.withAccount
  split
  · split
    · trivial
    · split
      · trivial
      · refine Uses.bind ?_ fun updated => ?_
        · refine (Uses.ask (by trivial)).bind fun updated => ?_
          exact (Uses.forEach fun _ _ => Uses.tell (by rfl)).bind fun _ => trivial
        · split <;> trivial
  · trivial

theorem code_uses (pid : Nat) (task : SubscriptionTask) :
    (task.code deployment pid).Uses SubscriptionOp := by
  cases task with
  | subscribe session tag args => exact (subscribe_uses _).bind fun _ => trivial
  | unsubscribe session tag args => exact (subscribe_uses _).bind fun _ => trivial
  | syncAccount accountId =>
      exact ((Sync.syncAccount_uses ..).mono subscriptionOp_of_syncing).bind fun _ => trivial
  | syncMailbox accountId mailboxName =>
      exact ((Sync.syncMailbox_uses ..).mono subscriptionOp_of_syncing).bind fun _ => trivial

/-! ## Steps -/

variable {c c' : Config (subscriptionSystem deployment)} {event : Event (subscriptionSystem deployment)}
  {mailboxId : Int}

theorem subscribed_of_set {subscribed : Bool} (step : Step c event c')
    (set : subscriptionSet mailboxId ⟨c, event, c'⟩ = some subscribed) :
    ∃ row, c'.state.db.mailbox mailboxId = some row ∧ row.data.subscribed = subscribed := by
  unfold subscriptionSet at set
  split at set
  · rename_i pid task accountId mailboxName value fault same
    dsimp only at same
    subst same
    split at set
    · rename_i applies
      cases set
      rw [Bool.and_eq_true, Option.any_eq_true] at applies
      obtain ⟨reaches, row, found, named⟩ := applies
      obtain ⟨-, rfl⟩ := Db.mailbox_some.mp found
      cases step with
      | call fault here =>
          refine ⟨⟨row.id, { row.data with subscribed }⟩, ?_, rfl⟩
          have after : ((cacheHandler deployment.lib).answer fault
              (.setMailboxSubscribed accountId mailboxName subscribed) c.state).2 = _ :=
            Handler.answer_reaches _ _ reaches
          exact (congrArg (·.db.mailbox row.id) after).trans (Db.setMailboxSubscribed_mailbox found named)
    · cases set
  · cases set

/-- A step that is neither a client's nor the first write of a sync on another subscription keeps the
subscription of every mailbox. -/
theorem subscribed_of_kept {row' : Row Mailbox} (step : Step c event c')
    (unset : subscriptionSet mailboxId ⟨c, event, c'⟩ = none)
    (spared : overwritesSubscription ⟨c, event, c'⟩ = false)
    (after : c'.state.db.mailbox mailboxId = some row') :
    c.state.db.mailbox mailboxId = none ∨
      ∃ row, c.state.db.mailbox mailboxId = some row ∧ row.data.subscribed = row'.data.subscribed := by
  cases step with
  | @call pid task op next fault here =>
      obtain ⟨effect, lost⟩ := World.answer_mailbox deployment.lib fault op c.state mailboxId
      change ((cacheHandler deployment.lib).answer fault op c.state).2.db.mailbox mailboxId = _ at after
      rw [after] at effect lost
      cases before : c.state.db.mailbox mailboxId with
      | none => exact Or.inl rfl
      | some row =>
          refine Or.inr ⟨row, rfl, ?_⟩
          obtain ⟨member, -⟩ := Db.mailbox_some.mp before
          rw [before] at effect lost
          cases reaches : fault.reaches with
          | false => rw [Option.some.inj (lost reaches)]
          | true =>
              cases effect with
              | same => rfl
              | overwritten upsert account name =>
                  subst upsert
                  simp only [overwritesSubscription, reaches, Bool.true_and, List.any_eq_false,
                    Bool.and_eq_true, beq_iff_eq, bne_iff_ne, not_and, not_not] at spared
                  exact spared row member ⟨account, name⟩
              | subscribed subscribe named =>
                  subst subscribe
                  simp [subscriptionSet, reaches, before, named] at unset
              | renamed | selected | counted | sequenced => rfl
  | spawn free | returned here | failed here | crash here => exact Or.inr ⟨row', after, rfl⟩
  | disturb change =>
      refine Or.inr ⟨row', ?_, rfl⟩
      cases change <;> exact after

/-! ## Runs -/

theorem lastSubscription_none {start : Config (subscriptionSystem deployment)}
    {trace : List (Transition (subscriptionSystem deployment))} (run : Run start trace c)
    (missing : c.state.db.mailbox mailboxId = none) : lastSubscription mailboxId trace = none := by
  cases run with
  | start => rfl
  | step run step => simp [lastSubscription, missing]

def AsSet (mailboxId : Int) (trace : List (Transition (subscriptionSystem deployment)))
    (c : Config (subscriptionSystem deployment)) : Prop :=
  ∀ row, c.state.db.mailbox mailboxId = some row →
    ∀ subscribed, lastSubscription mailboxId trace = some subscribed → row.data.subscribed = subscribed

/-- In every run in which no sync writes the row of a mailbox with another subscription, every mailbox
has the subscription that a client has set for it last. -/
theorem subscribed_as_set {world : World} {trace : List (Transition (subscriptionSystem deployment))}
    (run : Run (idle (subscriptionSystem deployment) world) trace c)
    (spared : Always (fun _ t => overwritesSubscription t = false) trace) (mailboxId : Int)
    (row : Row Mailbox) (found : c.state.db.mailbox mailboxId = some row) (subscribed : Bool)
    (set : lastSubscription mailboxId trace = some subscribed) : row.data.subscribed = subscribed := by
  suffices asSet : AsSet mailboxId trace c from asSet row found subscribed set
  refine run.invariant (fun _ _ _ none => nomatch none) ?_ spared
  intro older c event c' run step spared kept row after subscribed set
  simp only [lastSubscription, after, Option.isNone_some, Bool.false_eq_true, if_false] at set
  cases now : subscriptionSet mailboxId ⟨c, event, c'⟩ with
  | some value =>
      rw [now] at set
      cases set
      obtain ⟨row', found, eq⟩ := subscribed_of_set step now
      rw [after] at found
      cases found
      exact eq
  | none =>
      rw [now, Option.none_or] at set
      rcases subscribed_of_kept step now spared after with missing | ⟨old, before, same⟩
      · rw [lastSubscription_none run missing] at set
        cases set
      · exact same.symm.trans (kept old before subscribed set)

/-! ## Two runs on a subscribed INBOX -/

def sampleDeployment : Deployment :=
  ⟨Sample.libraries, ⟨.static "a" "b", ⟨5, 60000000000⟩, true, true, true⟩, false⟩

def inbox : Config (subscriptionSystem sampleDeployment) :=
  idle _ (Sample.world (Sample.db [Sample.mailbox "INBOX" (some 7)] []) (Sample.emptyServer (some 7)))

def client : Session.ImapSession := ⟨.authenticated, some ⟨1, some 1, "a"⟩, 1, none, true, none, true, false⟩

/-- The subscription of the INBOX, what the client has set last, and whether no sync has overwritten
a subscription. -/
def observed (run : List (Transition (subscriptionSystem sampleDeployment)) ×
    Config (subscriptionSystem sampleDeployment)) : Option Bool × Option Bool × Bool :=
  ((run.2.state.db.mailbox 1).map (·.data.subscribed), lastSubscription 1 run.1,
    decide (Always (fun _ t => overwritesSubscription t = false) run.1))

theorem subscribed_as_set_subscribe : ∃ trace c row, Run inbox trace c ∧
    c.state.db.mailbox 1 = some row ∧ lastSubscription 1 trace = some true ∧
      row.data.subscribed = true := by
  have evaluated : (schedule [] inbox (whole 0 (SubscriptionTask.unsubscribe client "a" ["INBOX"]) 2 ++
      whole 0 (SubscriptionTask.subscribe client "b" ["INBOX"]) 2 ++
      whole 0 (SubscriptionTask.syncMailbox 1 "INBOX") 13)).map observed =
        some (some true, some true, true) := by
    decide +kernel
  obtain ⟨⟨trace, c⟩, followed, result⟩ := Option.map_eq_some_iff.mp evaluated
  simp only [observed, Prod.mk.injEq, Option.map_eq_some_iff, decide_eq_true_eq] at result
  obtain ⟨⟨row, found, -⟩, set, spared⟩ := result
  have run := schedule_run .start followed
  exact ⟨trace, c, row, run, found, set, subscribed_as_set run spared 1 row found true set⟩

/-- A sync subscribes a mailbox again that its client has unsubscribed from. -/
theorem subscribed_despite_unsubscribe : ∃ trace c row, Run inbox trace c ∧ c.procs 0 = none ∧
    c.state.upstream.mailboxes.map (·.name) = ["INBOX"] ∧ c.state.db.mailbox 1 = some row ∧
      lastSubscription 1 trace = some false ∧ ¬ row.data.subscribed = false := by
  have evaluated : (schedule [] inbox (whole 0 (SubscriptionTask.unsubscribe client "a" ["INBOX"]) 2 ++
      whole 0 (SubscriptionTask.syncMailbox 1 "INBOX") 13)).map (fun run => (observed run,
        (run.2.procs 0).isNone,
        run.2.state.upstream.mailboxes.map (·.name))) =
          some ((some true, some false, false), true, ["INBOX"]) := by
    decide +kernel
  obtain ⟨⟨trace, c⟩, followed, result⟩ := Option.map_eq_some_iff.mp evaluated
  simp only [observed, Prod.mk.injEq, Option.map_eq_some_iff, Option.isNone_iff_eq_none] at result
  obtain ⟨⟨⟨row, found, subscribed⟩, set, -⟩, finished, listed⟩ := result
  exact ⟨trace, c, row, schedule_run .start followed, finished, listed, found, set, by simp [subscribed]⟩

end ImapCache.Subscriptions
