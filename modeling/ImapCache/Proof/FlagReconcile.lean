import ImapCache.Model.Sample
import ImapCache.Proof.QueueProtocol

/-!
# Syncs and undelivered changes of flags

A sync lists the rows of a mailbox, fetches the flags of each message and writes them where they
differ from the listed ones; a message beyond the checkpoint is written together with its flags.
The queue is not consulted: a change of flags that waits there is kept only if no sync is on its way
from the fetch to the write.
-/

namespace ImapCache.Reconcile
open Lib Prog System

/-! ## How a sync comes to write flags -/

inductive Stage where
  | away
  | selected (selection : SelectedMailboxInfo)
  | loaded (lastUid : Int)
  | listed (lastUid mailboxId : Int) (rows : List (Row MailboxMessage))
  /-- The flags of a message have been fetched; `reconciled` if those of its row were written. -/
  | fetched (lastUid mailboxId : Int) (rows : List (Row MailboxMessage)) (uid : Nat)
      (flags : List String) (reconciled : Bool)

/-- The row of that upstream UID, if its flags are not the fetched ones. -/
def differing (rows : List (Row MailboxMessage)) (uid : Nat) (flags : List String) :
    Option (Row MailboxMessage) :=
  (Sync.localByUpstreamUid rows uid).filter fun row =>
    normalizeFlags row.data.flags != normalizeFlags flags

/-- The sync is on its way to write the flags of the row with that UID. -/
def Stage.due (mailboxId localUid : Int) : Stage → Bool
  | fetched lastUid mailboxId' rows uid flags reconciled =>
      mailboxId' == mailboxId &&
        ((!reconciled && (differing rows uid flags).any (·.data.localUid == localUid)) ||
          (decide (lastUid < uid) && (uid : Int) == localUid))
  | _ => false

def free : Op → Bool
  | .updateMailboxMessageFlags .. | .insertMailboxMessage .. => false
  | op => op.syncing

def Stage.Allows (stage : Stage) (op : Op) : Prop :=
  free op = true ∨
  (∃ (lastUid mailboxId : Int) (rows : List (Row MailboxMessage)) (uid : Nat) (flags : List String)
      (row : Row MailboxMessage),
    stage = fetched lastUid mailboxId rows uid flags false ∧ differing rows uid flags = some row ∧
      op = .updateMailboxMessageFlags mailboxId row.data.localUid (normalizeFlags flags)) ∨
  ∃ (lastUid mailboxId : Int) (rows : List (Row MailboxMessage)) (uid : Nat) (flags : List String)
      (reconciled : Bool) (input : MailboxMessage),
    stage = fetched lastUid mailboxId rows uid flags reconciled ∧ lastUid < uid ∧
      input.mailboxId = mailboxId ∧ input.localUid = uid ∧ input.isExpunged = false ∧
      op = .insertMailboxMessage input

def Stage.next : Stage → (op : Op) → Except Error op.Ret → Stage
  | _, .selectMailbox .., .ok selection => selected selection
  | selected selection, .loadSyncState .., .ok checkpoint =>
      loaded (Sync.effectiveLastUid selection checkpoint)
  | loaded lastUid, .listMailboxMessages mailboxId, .ok rows => listed lastUid mailboxId rows
  | listed lastUid _ _, .listMailboxMessages mailboxId, .ok rows => listed lastUid mailboxId rows
  | fetched lastUid _ _ _ _ _, .listMailboxMessages mailboxId, .ok rows =>
      listed lastUid mailboxId rows
  | listed lastUid mailboxId rows, .uidFetchFlags _ uid, .ok flags =>
      fetched lastUid mailboxId rows uid flags false
  | fetched lastUid mailboxId rows _ _ _, .uidFetchFlags _ uid, .ok flags =>
      fetched lastUid mailboxId rows uid flags false
  | fetched lastUid mailboxId rows uid flags _, .updateMailboxMessageFlags .., _ =>
      fetched lastUid mailboxId rows uid flags true
  | fetched lastUid mailboxId rows _ _ _, .insertMailboxMessage _, _ => listed lastUid mailboxId rows
  | stage, _, _ => stage

/-- The stage of a sync; a process that is no sync has none. -/
def reconcileProtocol : Protocol cacheSignature (Option Stage) where
  allows stage op := ∀ s ∈ stage, s.Allows op
  next stage op answer := stage.map fun s => s.next op answer
  expects _ _ := True

theorem reconcileProtocol_sound (lib : Libraries) : reconcileProtocol.Sound (cacheHandler lib) :=
  fun _ _ _ _ => trivial

def isSync : Task → Bool
  | .syncAccount _ | .syncMailbox .. => true
  | _ => false

def begin (task : Task) : Option Stage := if isSync task then some .away else none

/-! ## Every sync follows the stages -/

/-- A sync that has come to its end is still a sync. -/
abbrev anyEnd {α : Type} : Except Error α → Option Stage → Prop := fun _ stage => stage.isSome = true

theorem free_follows {α : Type} {p : Action α} (uses : p.Uses (free · = true)) (stage : Stage) :
    p.Follows reconcileProtocol anyEnd (some stage) := by
  induction p generalizing stage with
  | ret value => rfl
  | throw failure => rfl
  | call op next ih => exact ⟨fun s _ => Or.inl uses.1, fun answer _ => ih answer (uses.2 answer) _⟩

theorem follows_then {α β : Type} {p : Action α} {f : α → Action β} {stage : Option Stage}
    (first : p.Follows reconcileProtocol anyEnd stage)
    (rest : ∀ value stage', (f value).Follows reconcileProtocol anyEnd (some stage')) :
    (p.bind f).Follows reconcileProtocol anyEnd stage := by
  refine follows_bind (first.mono fun outcome stage' reached => ?_)
  obtain ⟨s, rfl⟩ := Option.isSome_iff_exists.mp reached
  cases outcome with
  | ok value => exact rest value s
  | error failure => rfl

def neutral : Op → Bool
  | .selectMailbox .. | .loadSyncState .. | .listMailboxMessages .. | .uidFetchFlags .. => false
  | op => free op

theorem neutral_next {op : Op} (holds : neutral op = true) (stage : Stage)
    (answer : Except Error op.Ret) : stage.next op answer = stage := by
  cases op <;> first | (cases stage <;> rfl) | cases holds

theorem neutral_free {op : Op} (holds : neutral op = true) : free op = true := by
  cases op <;> first | exact holds | cases holds

theorem neutral_of_bookkeeping (op : Op) (bookkeeping : op.bookkeeping = true) :
    neutral op = true := by
  cases op <;> first | rfl | cases bookkeeping

theorem neutral_follows {α : Type} {p : Action α} (uses : p.Uses (neutral · = true)) (stage : Stage) :
    p.Follows reconcileProtocol (fun _ stage' => stage' = some stage) (some stage) := by
  refine uses.follows (fun op holds s _ => Or.inl (neutral_free holds)) fun op answer holds => ?_
  exact congrArg some (neutral_next holds stage answer)

theorem follows_neutral_bind {α β : Type} {p : Action α} {f : α → Action β} {stage : Stage}
    {post : Except Error β → Option Stage → Prop} (uses : p.Uses (neutral · = true))
    (rest : ∀ value, (f value).Follows reconcileProtocol post (some stage))
    (failed : ∀ failure, post (.error failure) (some stage)) :
    (p.bind f).Follows reconcileProtocol post (some stage) := by
  refine follows_bind ((neutral_follows uses stage).mono fun outcome stage' same => ?_)
  subst same
  cases outcome with
  | ok value => exact rest value
  | error failure => exact failed failure

/-- The rows of a mailbox have been listed, and possibly flags have been fetched since. -/
def Listing (lastUid mailboxId : Int) (rows : List (Row MailboxMessage)) (stage : Option Stage) :
    Prop :=
  stage = some (.listed lastUid mailboxId rows) ∨
    ∃ uid flags reconciled, stage = some (.fetched lastUid mailboxId rows uid flags reconciled)

section Mailbox
variable {lastUid mailboxId : Int} {rows : List (Row MailboxMessage)}

/-- After a round of the loop over the upstream UIDs. -/
def RoundEnd (lastUid mailboxId : Int) (rows : List (Row MailboxMessage)) {α : Type}
    (outcome : Except Error α) (stage : Option Stage) : Prop :=
  match outcome with
  | .ok _ => Listing lastUid mailboxId rows stage
  | .error _ => stage.isSome = true

theorem Listing.isSome {stage : Option Stage} (listing : Listing lastUid mailboxId rows stage) :
    stage.isSome = true := by
  rcases listing with rfl | ⟨_, _, _, rfl⟩
  · rfl
  · rfl

theorem next_isSome {stage : Option Stage} {op : Op} {answer : Except Error op.Ret}
    (started : stage.isSome = true) : (reconcileProtocol.next stage op answer).isSome = true := by
  obtain ⟨s, rfl⟩ := Option.isSome_iff_exists.mp started
  rfl

theorem reconcileFlags_follows {context : Sync.SyncContext} {uid : Nat} {flags : List String} :
    (Sync.reconcileFlags context uid (normalizeFlags flags)).Follows reconcileProtocol
      (fun outcome stage => match outcome with
        | .ok _ => ∃ reconciled, stage = some (.fetched lastUid context.mailboxId
            context.localMessages uid flags reconciled)
        | .error _ => stage.isSome = true)
      (some (.fetched lastUid context.mailboxId context.localMessages uid flags false)) := by
  unfold Sync.reconcileFlags
  split
  · rename_i row found
    split
    · rename_i different
      have differs : differing context.localMessages uid flags = some row := by
        simpa [differing, found] using different
      refine follows_bind ?_
      refine follows_ask_bind ?_ (fun updated _ => ?_) fun _ _ => rfl
      · rintro s ⟨⟩
        exact Or.inr (Or.inl ⟨_, _, _, _, _, row, rfl, differs, rfl⟩)
      · have written : reconcileProtocol.next (some (.fetched lastUid context.mailboxId
            context.localMessages uid flags false)) (.updateMailboxMessageFlags context.mailboxId
              row.data.localUid (normalizeFlags flags)) (.ok updated) =
            some (.fetched lastUid context.mailboxId context.localMessages uid flags true) := rfl
        rw [written]
        cases updated with
        | none => exact ⟨true, rfl⟩
        | some updated =>
            refine follows_neutral_bind (Uses.ask (by rfl)) (fun accountId => ?_) fun _ => rfl
            refine follows_neutral_bind (Uses.tell (by rfl)) (fun _ => ?_) fun _ => rfl
            exact ⟨true, rfl⟩
    · exact ⟨false, rfl⟩
  · exact ⟨false, rfl⟩

theorem ingestRawMessage_follows (lib : Libraries) {target : Ingest.Target} (raw : Bytes) {uid : Nat}
    {flags : List String} {reconciled : Bool} (beyond : lastUid < uid)
    (mailbox : target.mailboxId = mailboxId) (localUid : target.localUid = uid) :
    (Ingest.ingestRawMessage lib target raw).Follows reconcileProtocol
      (RoundEnd lastUid mailboxId rows)
      (some (.fetched lastUid mailboxId rows uid flags reconciled)) := by
  have bookkeeping := neutral_of_bookkeeping
  refine follows_ofExcept_bind (fun parsed _ => ?_) fun _ _ => rfl
  refine follows_ofExcept_bind (fun bytes _ => ?_) fun _ _ => rfl
  refine follows_neutral_bind (Ingest.checkQuota_uses bookkeeping ..) (fun _ => ?_) fun _ => rfl
  refine follows_neutral_bind (Ingest.recordMessage_uses bookkeeping ..) (fun recorded => ?_)
    fun _ => rfl
  refine follows_bind ?_
  obtain ⟨rest, eq, uses⟩ := Repository.upsertMailboxMessage_leads bookkeeping
    (Ingest.newMailboxMessage target recorded.2.1.id) fun _ _ _ _ => rfl
  rw [eq]
  refine follows_ask_bind ?_ (fun inserted _ => ?_) fun _ _ => rfl
  · rintro s ⟨⟩
    exact Or.inr (Or.inr ⟨_, _, _, _, _, _, _, rfl, beyond, mailbox, localUid, rfl, rfl⟩)
  · have written : reconcileProtocol.next (some (.fetched lastUid mailboxId rows uid flags reconciled))
        (.insertMailboxMessage (Ingest.newMailboxMessage target recorded.2.1.id)) (.ok inserted) =
        some (.listed lastUid mailboxId rows) := rfl
    rw [written]
    refine (neutral_follows (uses inserted) _).mono ?_
    rintro outcome stage rfl
    cases outcome with
    | error failure => rfl
    | ok row =>
        refine follows_neutral_bind (Ingest.accountMessage_uses bookkeeping ..) (fun _ => ?_)
          fun _ => rfl
        exact Or.inl rfl

theorem syncUid_follows (lib : Libraries) (context : Sync.SyncContext) (progress : Nat × Option Int)
    (uid : Nat) {stage : Option Stage}
    (listing : Listing context.lastUid context.mailboxId context.localMessages stage) :
    (Sync.syncUid lib context progress uid).Follows reconcileProtocol
      (RoundEnd context.lastUid context.mailboxId context.localMessages) stage := by
  refine follows_orThrow_bind (fun uidI64 converted => ?_) fun _ => listing.isSome
  have same : uidI64 = uid := by
    unfold i64OfU64 at converted
    split at converted
    · exact (Option.some.inj converted).symm
    · cases converted
  subst same
  refine follows_ask_bind (fun s _ => Or.inl rfl) (fun flags _ => ?_) fun _ _ => next_isSome listing.isSome
  have fetched : reconcileProtocol.next stage (.uidFetchFlags context.connection uid) (.ok flags) =
      some (.fetched context.lastUid context.mailboxId context.localMessages uid flags false) := by
    rcases listing with rfl | ⟨_, _, _, rfl⟩
    · rfl
    · rfl
  rw [fetched]
  refine follows_bind (reconcileFlags_follows.mono fun outcome stage' reached => ?_)
  cases outcome with
  | error failure => exact reached
  | ok done =>
      obtain ⟨reconciled, rfl⟩ := reached
      dsimp only
      split
      · exact Or.inr ⟨uid, flags, reconciled, rfl⟩
      · rename_i beyond
        refine follows_neutral_bind (Uses.ask (by rfl)) (fun raw => ?_) fun _ => rfl
        have ingested : (Ingest.ingestRawMessage lib
            (Sync.syncTarget context uid (normalizeFlags flags)) raw).Follows reconcileProtocol
            (RoundEnd context.lastUid context.mailboxId context.localMessages)
            (some (.fetched context.lastUid context.mailboxId context.localMessages uid flags
              reconciled)) :=
          ingestRawMessage_follows lib raw (by simpa using beyond) rfl rfl
        refine follows_bind (ingested.mono fun outcome stage' ended => ?_)
        cases outcome with
        | ok ingested => exact ended
        | error failure => exact ended

/-- The last UID is known, and possibly rows have been listed since. -/
def Loaded (lastUid : Int) (stage : Option Stage) : Prop :=
  stage = some (.loaded lastUid) ∨
    ∃ mailboxId rows, stage = some (.listed lastUid mailboxId rows)

theorem next_listing {stage : Option Stage} (loaded : Loaded lastUid stage) :
    reconcileProtocol.next stage (.listMailboxMessages mailboxId) (.ok rows) =
      some (.listed lastUid mailboxId rows) := by
  rcases loaded with rfl | ⟨_, _, rfl⟩
  · rfl
  · rfl

theorem deleteRows_neutral (mailboxId : Int) (messages : List (Row MailboxMessage)) :
    (forEach messages fun message => do
      let _ ← Repository.deleteMailboxMessage mailboxId message.data.localUid
      pure () : Action Unit).Uses (neutral · = true) := by
  refine Uses.forEach fun message _ => Uses.bind ?_ fun _ => trivial
  exact (Repository.deleteMailboxMessage_leads neutral_of_bookkeeping _ _).uses (by rfl)

theorem clearSyncedMailboxMessages_follows (changed : Bool) (mailboxId : Int) :
    (onlyIf changed (Sync.clearSyncedMailboxMessages mailboxId)).Follows reconcileProtocol
      (fun outcome stage => match outcome with
        | .ok _ => Loaded lastUid stage
        | .error _ => stage.isSome = true) (some (.loaded lastUid)) := by
  unfold onlyIf
  split
  · refine follows_ask_bind (fun s _ => Or.inl rfl) (fun rows _ => ?_) fun _ _ => rfl
    rw [next_listing (Or.inl rfl)]
    refine (neutral_follows (deleteRows_neutral _ _) _).mono ?_
    rintro outcome stage rfl
    cases outcome with
    | ok _ => exact Or.inr ⟨_, _, rfl⟩
    | error failure => rfl
  · exact Or.inl rfl

theorem syncUids_follows (lib : Libraries) (context : Sync.SyncContext) (uids : List Nat) :
    (uids.foldlM (Sync.syncUid lib context) (0, none)).Follows reconcileProtocol anyEnd
      (some (.listed context.lastUid context.mailboxId context.localMessages)) := by
  refine follows_foldlM (fun _ => Listing context.lastUid context.mailboxId context.localMessages)
    (Or.inl rfl) ?_ fun _ _ listing => listing.isSome
  intro uid rest progress stage listing
  refine (syncUid_follows lib context progress uid listing).mono fun outcome stage' ended => ?_
  cases outcome with
  | ok _ => exact ended
  | error failure => exact ended

theorem syncMailboxInner_follows (lib : Libraries) (accountId : Int) (mailboxName : String)
    (mailbox : Row Mailbox) (connection : Nat) (stage : Stage) :
    (Sync.syncMailboxInner lib accountId mailboxName mailbox connection).Follows reconcileProtocol
      anyEnd (some stage) := by
  refine follows_ask_bind (fun s _ => Or.inl rfl) (fun selection _ => ?_) fun _ _ => rfl
  rw [show reconcileProtocol.next (some stage) _ (.ok selection) = some (.selected selection) by
    cases stage <;> rfl]
  refine follows_ask_bind (fun s _ => Or.inl rfl) (fun checkpoint _ => ?_) fun _ _ => rfl
  rw [show reconcileProtocol.next (some (.selected selection)) _ (.ok checkpoint) =
    some (.loaded (Sync.effectiveLastUid selection checkpoint)) from rfl]
  refine follows_bind ((clearSyncedMailboxMessages_follows _ _).mono fun outcome stage loaded => ?_)
  cases outcome with
  | error failure => exact loaded
  | ok _ =>
      obtain ⟨s, rfl⟩ : ∃ s, stage = some s := by
        rcases loaded with rfl | ⟨_, _, rfl⟩
        · exact ⟨_, rfl⟩
        · exact ⟨_, rfl⟩
      refine follows_neutral_bind (Uses.ask (by rfl)) (fun uids => ?_) fun _ => rfl
      refine follows_ask_bind (fun s _ => Or.inl rfl) (fun rows _ => ?_) fun _ _ => rfl
      rw [next_listing loaded]
      refine follows_then (syncUids_follows lib ⟨accountId, mailboxName, mailbox.id, connection,
        Sync.effectiveLastUid selection checkpoint, rows⟩ uids) fun synced stage => free_follows ?_ _
      refine (Uses.ofExcept _).bind fun _ => ?_
      refine (Uses.ask (by rfl)).bind fun _ => ?_
      refine (Uses.ask (by rfl)).bind fun _ => ?_
      refine Uses.bind ?_ fun _ => ?_
      · refine (Uses.ask (by rfl)).bind fun messages => ?_
        exact (deleteRows_neutral _ _).mono fun _ => neutral_free
      · refine Uses.bind ?_ fun _ => trivial
        exact Repository.refreshMailboxCounts_uses
          (fun op bookkeeping => neutral_free (neutral_of_bookkeeping op bookkeeping)) (by rfl)

theorem syncMailbox_follows (lib : Libraries) (accountId : Int) (mailboxName : String)
    (connection : Nat) (stage : Stage) :
    (Sync.syncMailbox lib accountId mailboxName connection).Follows reconcileProtocol anyEnd
      (some stage) := by
  refine follows_neutral_bind ?_ (fun mailbox => ?_) fun _ => rfl
  · refine (Uses.ask (beq_self_eq_true (Sync.syncedMailbox accountId mailboxName))).bind fun mailbox => ?_
    exact Uses.bind (Uses.tell (by rfl)) fun _ => trivial
  · exact syncMailboxInner_follows lib accountId mailboxName mailbox connection stage

theorem syncMailboxes_follows (lib : Libraries) (accountId : Int) (connection : Nat) (stage : Stage) :
    (Sync.syncMailboxes lib accountId connection).Follows reconcileProtocol anyEnd (some stage) := by
  refine follows_neutral_bind (Uses.ask (by rfl)) (fun names => ?_) fun _ => rfl
  refine follows_then ?_ fun report stage => ?_
  · refine follows_foldlM (fun _ stage => stage.isSome = true) rfl ?_ fun _ _ => id
    intro name rest report stage started
    obtain ⟨s, rfl⟩ := Option.isSome_iff_exists.mp started
    refine follows_bind ((syncMailbox_follows lib accountId name connection s).mono ?_)
    intro outcome stage' reached
    cases outcome with
    | ok _ => exact reached
    | error failure => exact reached
  · refine follows_then (free_follows ?_ stage) fun _ _ => rfl
    refine (Uses.ask (by rfl)).bind fun mailboxes => Uses.forEach fun mailbox _ => ?_
    refine (Uses.ask (by rfl)).bind fun messages => ?_
    refine ((deleteRows_neutral _ _).mono fun _ => neutral_free).bind fun _ => ?_
    refine Uses.bind ?_ fun _ => trivial
    refine (Uses.ask (by rfl)).bind fun rows => ?_
    exact (Uses.onlyIf fun _ => Uses.tell (by rfl)).bind fun _ => trivial

theorem syncAccount_follows (lib : Libraries) (lockManager : Bool) (accountId : Int)
    (connection : Nat) (stage : Stage) :
    (Sync.syncAccount lib lockManager accountId connection).Follows reconcileProtocol anyEnd
      (some stage) := by
  refine follows_neutral_bind (Uses.ask (by rfl)) (fun account => ?_) fun _ => rfl
  cases account with
  | none => rfl
  | some account =>
      refine follows_then (follows_attempt ?_) fun outcome stage => ?_
      · dsimp only
        split
        · rfl
        · split
          · refine follows_neutral_bind (Uses.ask (by rfl)) (fun acquired => ?_) fun _ => rfl
            split
            · refine follows_then (follows_attempt (syncMailboxes_follows lib accountId connection _))
                fun outcome stage => free_follows ?_ stage
              exact (Uses.tell (by rfl)).bind fun _ => Uses.ofExcept _
            · rfl
          · exact syncMailboxes_follows lib accountId connection _
      · refine free_follows ?_ stage
        exact (Uses.tell (by rfl)).bind fun _ => Uses.ofExcept _

end Mailbox

theorem task_follows (lib : Libraries) (services : Services) (pid : Nat) (task : Task) :
    (task.code lib services pid).Follows reconcileProtocol (fun _ _ => True) (begin task) := by
  have plain {p : Action Outcome} : p.Follows reconcileProtocol (fun _ _ => True) none := by
    induction p with
    | ret value => trivial
    | throw failure => trivial
    | call op next ih => exact ⟨fun _ away => absurd away (by simp), fun answer _ => ih answer⟩
  cases task with
  | syncAccount accountId =>
      refine (follows_then (syncAccount_follows lib services.lockManager accountId pid .away)
        fun _ _ => ?_).mono fun _ _ _ => trivial
      rfl
  | syncMailbox accountId mailboxName =>
      refine (follows_then (syncMailbox_follows lib accountId mailboxName pid .away)
        fun _ _ => ?_).mono fun _ _ _ => trivial
      rfl
  | _ => exact plain

/-! ## Undelivered changes along a run -/

variable {lib : Libraries} {services : Services}

def flagUid (mutation : PendingMutation) : Option (Int × Int) :=
  if mutation.mutationType = .storeFlags then
    ((mutation.payloadJson.get "local_uid").bind Json.asI64).map fun uid => (mutation.mailboxId, uid)
  else none

/-- A change of the flags of that row waits for its delivery. -/
def awaits (mailboxId localUid : Int) (mutation : PendingMutation) : Bool :=
  flagUid mutation == some (mailboxId, localUid) &&
    (mutation.status == .pending || mutation.status == .failed)

def undelivered (db : Db) (mailboxId localUid : Int) : Bool :=
  db.pendingMutations.rows.any fun row => awaits mailboxId localUid row.data

def stageOf (trace : List (Transition (cacheSystem lib services))) (pid : Nat) : Option Stage :=
  (progress reconcileProtocol begin trace pid).join

/-- A sync is on its way to write the row that a change of flags is for. -/
def Stage.endangers (stage : Stage) (mutation : PendingMutation) : Bool :=
  (flagUid mutation).any fun row => stage.due row.1 row.2

/-- No running sync is on its way to write the row that a change of flags is for. -/
def unendangered (trace : List (Transition (cacheSystem lib services))) (mutation : PendingMutation) :
    Bool :=
  (spawned trace).all fun pid => !(stageOf trace pid).any (·.endangers mutation)

/-- A sync that goes on to write the flags it has fetched meets no change of them that waits for its
delivery, and none is queued or fails before it has written them. -/
def sparesUndelivered (older : List (Transition (cacheSystem lib services)))
    (t : Transition (cacheSystem lib services)) : Bool :=
  match t.event with
  | .call pid _ (.uidFetchFlags ..) _ =>
      t.before.state.db.pendingMutations.rows.all fun row =>
        !((row.data.status == .pending || row.data.status == .failed) &&
          (stageOf (t :: older) pid).any (·.endangers row.data))
  | .call _ _ (.enqueueMutation input) fault => !fault.reaches || unendangered older input
  | .call _ _ (.updatePendingMutation id status _ _) fault =>
      !(fault.reaches && (status == .pending || status == .failed)) ||
        t.before.state.db.pendingMutations.rows.all fun row =>
          row.id != id || unendangered older row.data
  | _ => true

/-- No sync is on its way to write a row with an undelivered change. -/
def Unendangered (trace : List (Transition (cacheSystem lib services)))
    (rows : List (Row PendingMutation)) : Prop :=
  ∀ pid stage, stageOf trace pid = some stage → ∀ row ∈ rows,
    (row.data.status = .pending ∨ row.data.status = .failed) → stage.endangers row.data = false

theorem due_next {stage : Stage} {op : Op} {answer : Except Error op.Ret} {mailboxId localUid : Int}
    (other : ∀ connection uid, op ≠ .uidFetchFlags connection uid)
    (due : (stage.next op answer).due mailboxId localUid = true) :
    stage.due mailboxId localUid = true := by
  unfold Stage.next at due
  split at due
  all_goals try cases due
  · exact absurd rfl (other _ _)
  · exact absurd rfl (other _ _)
  · simp only [Stage.due, Bool.not_true, Bool.false_and, Bool.false_or] at due
    simp only [Stage.due]
    rw [Bool.and_eq_true] at due ⊢
    exact ⟨due.1, by rw [due.2, Bool.or_true]⟩
  · exact due

theorem endangers_next {stage : Stage} {op : Op} {answer : Except Error op.Ret}
    {mutation : PendingMutation} (other : ∀ connection uid, op ≠ .uidFetchFlags connection uid)
    (safe : stage.endangers mutation = false) : (stage.next op answer).endangers mutation = false := by
  by_contra endangered
  simp only [Bool.not_eq_false] at endangered
  unfold Stage.endangers at safe endangered
  cases row : flagUid mutation with
  | none => simp [row] at endangered
  | some row' =>
      simp only [row, Option.any_some] at safe endangered
      rw [due_next other endangered] at safe
      cases safe

theorem stageOf_eq_some {trace : List (Transition (cacheSystem lib services))} {pid : Nat}
    {stage : Stage} : stageOf trace pid = some stage ↔
      progress reconcileProtocol begin trace pid = some (some stage) := by
  rw [stageOf, Option.join_eq_some_iff]

theorem stageOf_other {older : List (Transition (cacheSystem lib services))}
    {t : Transition (cacheSystem lib services)} {pid : Nat} (other : t.event.actor ≠ some pid) :
    stageOf (t :: older) pid = stageOf older pid := by
  rw [stageOf, stageOf, progress_other other]

theorem stageOf_call {older : List (Transition (cacheSystem lib services))}
    {c c' : Config (cacheSystem lib services)} {pid : Nat} {task : Task} {op : Op}
    {fault : Fault Error} :
    stageOf (⟨c, .call pid task op fault, c'⟩ :: older) pid =
      (stageOf older pid).map fun stage =>
        stage.next op ((cacheHandler lib).answer fault op c.state).1 := by
  unfold stageOf
  simp only [progress, if_true]
  cases progress reconcileProtocol begin older pid with
  | none => rfl
  | some stage => rfl

theorem safe_of_unendangered {trace : List (Transition (cacheSystem lib services))}
    {mutation : PendingMutation} (safe : unendangered trace mutation = true) {pid : Nat}
    {stage : Stage} (reached : stageOf trace pid = some stage) : stage.endangers mutation = false := by
  have running := mem_spawned (stageOf_eq_some.mp reached)
  have here := List.all_eq_true.mp safe pid running
  simpa [reached] using here

/-- The rows of the queue after a call that is not a fetch of flags: no sync before it was on its
way to a row with an undelivered change. -/
theorem queue_safe {older : List (Transition (cacheSystem lib services))}
    {c c' : Config (cacheSystem lib services)} {caller : Nat} {task : Task} {op : Op}
    {fault : Fault Error}
    (spares : sparesUndelivered older ⟨c, .call caller task op fault, c'⟩ = true)
    (before : Unendangered older c.state.db.pendingMutations.rows) :
    Unendangered older ((cacheHandler lib).answer fault op c.state).2.db.pendingMutations.rows := by
  intro pid stage reached row member waiting
  cases Queue.queueEffect lib fault op c.state with
  | same rows _ => exact before pid stage reached row (rows ▸ member) waiting
  | dropped keep rows =>
      rw [rows] at member
      exact before pid stage reached row (List.mem_of_mem_filter member) waiting
  | @updated id status attempts nextAttemptAt reaches rows found =>
      rw [rows] at member
      obtain ⟨old, oldMember, rfl⟩ := List.mem_map.mp member
      by_cases marked : old.id = id
      · have changed : Table.modified (·.id == id) (fun m : PendingMutation =>
            { m with status, attempts, nextAttemptAt }) old =
            ⟨old.id, { old.data with status, attempts, nextAttemptAt }⟩ := by
          simp [Table.modified, marked]
        rw [changed] at waiting ⊢
        have waits : (status == .pending || status == .failed) = true := by
          simpa using waiting
        simp only [sparesUndelivered, reaches, waits, Bool.and_self, Bool.not_true, Bool.false_or,
          List.all_eq_true, Bool.or_eq_true, bne_iff_ne] at spares
        have safe := (spares old oldMember).resolve_left fun ne => ne marked
        exact safe_of_unendangered safe reached
      · have kept : Table.modified (·.id == id) (fun m : PendingMutation =>
            { m with status, attempts, nextAttemptAt }) old = old := by
          simp [Table.modified, marked]
        rw [kept] at waiting ⊢
        exact before pid stage reached old oldMember waiting
  | @enqueued input rows =>
      have reaches : fault.reaches = true := by
        by_contra lost
        rw [Handler.answer_lost c.state rfl (by simpa using lost)] at rows
        exact absurd (congrArg List.length rows) (by simp)
      simp only [sparesUndelivered, reaches, Bool.not_true, Bool.false_or] at spares
      rw [rows] at member
      rcases List.mem_append.mp member with old | new
      · exact before pid stage reached row old waiting
      · rw [List.mem_singleton.mp new]
        exact safe_of_unendangered spares reached

theorem unendangered_step {older : List (Transition (cacheSystem lib services))}
    {c c' : Config (cacheSystem lib services)} {event : Event (cacheSystem lib services)}
    (step : Step c event c')
    (spares : sparesUndelivered older ⟨c, event, c'⟩ = true)
    (before : Unendangered older c.state.db.pendingMutations.rows) :
    Unendangered (⟨c, event, c'⟩ :: older) c'.state.db.pendingMutations.rows := by
  intro pid stage reached row member waiting
  by_cases own : event.actor = some pid
  · cases step with
    | @call _ task op next fault here =>
        cases own
        by_cases fetch : ∃ connection uid, op = .uidFetchFlags connection uid
        · obtain ⟨connection, uid, rfl⟩ := fetch
          have rows : ((cacheHandler lib).answer fault (.uidFetchFlags connection uid) c.state).2.db.pendingMutations =
              c.state.db.pendingMutations :=
            World.answer_frame lib fault _ c.state .pendingMutations (by simp [Op.writes])
          have inQueue : row ∈ c.state.db.pendingMutations.rows := rows ▸ member
          have safe := List.all_eq_true.mp spares row inQueue
          have waits : (row.data.status == .pending || row.data.status == .failed) = true := by
            simpa using waiting
          simpa [waits, reached] using safe
        · push Not at fetch
          rw [stageOf_call, Option.map_eq_some_iff] at reached
          obtain ⟨stage', reached', rfl⟩ := reached
          exact endangers_next fetch (queue_safe spares before pid stage' reached' row member waiting)
    | spawn free =>
        cases own
        rw [stageOf_eq_some] at reached
        simp only [progress, if_true, Option.some.injEq] at reached
        unfold begin at reached
        split at reached
        · cases reached
          unfold Stage.endangers
          cases flagUid row.data <;> rfl
        · cases reached
    | returned here =>
        cases own
        simp [stageOf, progress] at reached
    | failed here =>
        cases own
        simp [stageOf, progress] at reached
    | crash here =>
        cases own
        simp [stageOf, progress] at reached
    | disturb change => cases own
  · have reached' : stageOf older pid = some stage := (stageOf_other own).symm.trans reached
    cases step with
    | call fault here => exact queue_safe spares before pid stage reached' row member waiting
    | disturb change =>
        refine before pid stage reached' row ?_ waiting
        cases change <;> exact member
    | _ => exact before pid stage reached' row member waiting

theorem unendangered_run {world : World} {trace : List (Transition (cacheSystem lib services))}
    {c : Config (cacheSystem lib services)} (run : Run (idle _ world) trace c)
    (spares : Always (fun older t => sparesUndelivered older t = true) trace) :
    Unendangered trace c.state.db.pendingMutations.rows := by
  induction run with
  | start =>
      intro pid stage reached
      simp [stageOf, progress] at reached
  | step run step ih => exact unendangered_step step spares.1 (ih spares.2)

/-! ## A sync writes no flags of such a row -/

theorem flagsAt_free {op : Op} (harmless : free op = true) (fault : Fault Error) (world : World)
    {mailboxId localUid : Int} {new : List String}
    (after : ((cacheHandler lib).answer fault op world).2.db.flagsAt mailboxId localUid = some new) :
    world.db.flagsAt mailboxId localUid = some new := by
  by_cases writes : Component.mailboxMessages ∈ op.writes
  · rcases (cacheHandler lib).answer_state fault op world with same | executed
    · rwa [same] at after
    · rw [executed, cacheHandler_exec] at after
      cases op with
      | deleteMailbox accountId name =>
          obtain ⟨row, found, rfl⟩ := Option.map_eq_some_iff.mp after
          obtain ⟨member, live⟩ := Db.rowAt_eq_some.mp found
          have kept := (Table.mem_remove.mp member).1
          exact Option.map_eq_some_iff.mpr ⟨row, Db.rowAt_eq_some.mpr ⟨kept, live⟩, rfl⟩
      | deleteMailboxMessage deletedMailbox deletedUid =>
          rw [World.perform] at after
          cases result : world.db.deleteMailboxMessage deletedMailbox deletedUid with
          | error failure =>
              rw [World.commit_of_error result] at after
              exact after
          | ok deleted =>
              rw [World.commit_of_ok result] at after
              rcases Db.deleteMailboxMessage_ok result with ⟨-, same, -⟩ | ⟨_, _, _, _, drop⟩
              · rw [same] at after
                exact after
              · unfold Db.flagsAt at after
                rw [drop.rowAt] at after
                split at after
                · cases after
                · exact after
      | _ => first | (simp [Op.writes] at writes; done) | cases harmless
  · rwa [World.flagsAt_frame lib writes] at after

theorem sync_writes {stage : Stage} {op : Op} (allowed : stage.Allows op) (fault : Fault Error)
    (world : World) {mailboxId localUid : Int} (safe : stage.due mailboxId localUid = false)
    {old new : List String} (before : world.db.flagsAt mailboxId localUid = some old)
    (after : ((cacheHandler lib).answer fault op world).2.db.flagsAt mailboxId localUid = some new) :
    new = old := by
  rcases allowed with harmless | ⟨lastUid, written, rows, uid, flags, row, rfl, differs, rfl⟩ |
    ⟨lastUid, written, rows, uid, flags, reconciled, input, rfl, beyond, rfl, inputUid, live, rfl⟩
  · rw [flagsAt_free harmless fault world after] at before
    exact Option.some.inj before
  · have elsewhere : ¬ (written = mailboxId ∧ row.data.localUid = localUid) := by
      rintro ⟨rfl, rfl⟩
      simp [Stage.due, differs] at safe
    rcases (cacheHandler lib).answer_state fault (.updateMailboxMessageFlags written row.data.localUid
      (normalizeFlags flags)) world with same | executed
    · rw [same, before] at after
      exact (Option.some.inj after).symm
    · rw [executed, cacheHandler_exec, World.perform] at after
      cases result : world.db.updateMailboxMessageFlags written row.data.localUid
          (normalizeFlags flags) with
      | error failure =>
          rw [World.commit_of_error result, before] at after
          exact (Option.some.inj after).symm
      | ok updated =>
          rw [World.commit_of_ok result] at after
          dsimp only at after
          rw [Db.flagsAt_updateMailboxMessageFlags result, if_neg elsewhere, before] at after
          exact (Option.some.inj after).symm
  · rcases (cacheHandler lib).answer_state fault (.insertMailboxMessage input) world with
      same | executed
    · rw [same, before] at after
      exact (Option.some.inj after).symm
    · rw [executed, cacheHandler_exec, World.perform] at after
      cases result : world.db.insertMailboxMessage input with
      | error failure =>
          rw [World.commit_of_error result, before] at after
          exact (Option.some.inj after).symm
      | ok inserted =>
          obtain ⟨⟨row, position⟩, db'⟩ := inserted
          obtain ⟨put, ⟨modseq, data⟩, given, assigned⟩ := Db.insertMailboxMessage_ok result
          rw [World.commit_of_ok result] at after
          have rowMailbox : row.data.mailboxId = input.mailboxId := by rw [data]
          have rowLive : row.data.isExpunged = false := by
            rw [data]
            exact live
          have elsewhere : ¬ (row.data.mailboxId = mailboxId ∧ row.data.localUid = localUid) := by
            rintro ⟨mailbox, rfl⟩
            by_cases zero : input.localUid = 0
            · -- a UID that was assigned is above those of all live rows
              obtain ⟨oldRow, found, -⟩ := Option.map_eq_some_iff.mp before
              obtain ⟨member, there⟩ := Db.rowAt_eq_some.mp found
              obtain ⟨oldMailbox, oldUid, oldLive⟩ := Db.isLiveAt_iff.mp there
              have below := Db.assignMailboxLocalUid_ok (assigned zero) oldRow
                (Db.mem_liveMessages.mpr ⟨member, oldMailbox.trans (mailbox.symm.trans rowMailbox), oldLive⟩)
              omega
            · have uidEq := given zero
              rw [inputUid] at uidEq
              simp [Stage.due, ← mailbox, rowMailbox, uidEq, beyond] at safe
          have kept : db'.flagsAt mailboxId localUid = world.db.flagsAt mailboxId localUid := by
            unfold Db.flagsAt
            rw [put.rowAt rowLive, if_neg elsewhere]
          change db'.flagsAt mailboxId localUid = some new at after
          rw [kept, before] at after
          exact (Option.some.inj after).symm

def StageOfTask (task : Task) (stage : Option Stage) : Prop := stage.isSome = isSync task

theorem begin_stageOfTask (task : Task) : StageOfTask task (begin task) := by
  unfold StageOfTask begin
  cases isSync task <;> rfl

theorem stage_of_sync {world : World} {trace : List (Transition (cacheSystem lib services))}
    {c : Config (cacheSystem lib services)} (run : Run (idle _ world) trace c) {pid : Nat}
    {task : Task} {program : Action Outcome} (here : c.procs pid = some (task, program))
    (syncs : isSync task = true) :
    ∃ stage, progress reconcileProtocol begin trace pid = some (some stage) := by
  have keeps (task : Task) (stage : Option Stage) (op : Op) (answer : Except Error op.Ret)
      (same : StageOfTask task stage) : StageOfTask task (reconcileProtocol.next stage op answer) :=
    Option.isSome_map.trans same
  obtain ⟨stage, reached, same⟩ := run.progress_task begin_stageOfTask keeps here
  obtain ⟨stage, rfl⟩ := Option.isSome_iff_exists.mp (same.trans syncs)
  exact ⟨stage, reached⟩

theorem sync_step {world : World} {older : List (Transition (cacheSystem lib services))}
    {c c' : Config (cacheSystem lib services)} (run : Run (idle _ world) older c) {pid : Nat}
    {task : Task} {op : Op} {fault : Fault Error} (step : Step c (.call pid task op fault) c')
    (syncs : isSync task = true) (safe : Unendangered older c.state.db.pendingMutations.rows)
    {mailboxId localUid : Int} (waiting : undelivered c.state.db mailboxId localUid = true)
    {old new : List String} (before : c.state.db.flagsAt mailboxId localUid = some old)
    (after : c'.state.db.flagsAt mailboxId localUid = some new) : new = old := by
  obtain ⟨q, reached, allowed⟩ :=
    run.allowed (reconcileProtocol_sound lib) (task_follows lib services) step
  cases step with
  | call fault here =>
      obtain ⟨stage, reached'⟩ := stage_of_sync run here syncs
      rw [reached'] at reached
      cases reached
      obtain ⟨row, member, awaited⟩ := List.any_eq_true.mp waiting
      simp only [awaits, Bool.and_eq_true, beq_iff_eq, Bool.or_eq_true] at awaited
      have unendangered := safe pid stage (stageOf_eq_some.mpr reached') row member awaited.2
      have undue : stage.due mailboxId localUid = false := by
        simpa [Stage.endangers, awaited.1] using unendangered
      exact sync_writes (allowed stage rfl) fault c.state undue before after

/-- No step of a sync changes the flags of a message while a change of them waits for its delivery,
in a run in which no sync is on its way to write them while such a change waits, is queued or
fails. -/
theorem sync_keeps_undelivered {world : World}
    {trace : List (Transition (cacheSystem lib services))} {c : Config (cacheSystem lib services)}
    (run : Run (idle _ world) trace c)
    (spares : Always (fun older t => sparesUndelivered older t = true) trace)
    {t : Transition (cacheSystem lib services)} (member : t ∈ trace) {pid : Nat} {task : Task}
    {op : Op} {fault : Fault Error} (event : t.event = .call pid task op fault)
    (syncs : isSync task = true) {mailboxId localUid : Int}
    (waiting : undelivered t.before.state.db mailboxId localUid = true) {old new : List String}
    (before : t.before.state.db.flagsAt mailboxId localUid = some old)
    (after : t.after.state.db.flagsAt mailboxId localUid = some new) : new = old := by
  obtain ⟨newer, older, rfl⟩ := List.append_of_mem member
  obtain ⟨earlier, step⟩ := run.split
  have safe := unendangered_run earlier spares.split.2
  exact sync_step earlier (event ▸ step) syncs safe waiting before after

/-- INBOX with one message that has been synced; upstream it has the given flags. -/
def syncedInbox (flags : List String) : Config (cacheSystem Sample.libraries ⟨true, false⟩) :=
  idle _ (Sample.world { Sample.db [Sample.mailbox "INBOX" (some 7)] [Sample.row 1 1 (some 1) []] with
      syncStates := .ofList [⟨1, some 1, Sync.checkpointJson "INBOX" (Sample.selection (some 7)) 1⟩] }
    { mailboxes := [(Sample.upstreamMailbox "INBOX" (some 7)).deliver flags none Sample.hiMessage]
      uidplus := true, distinct := List.pairwise_singleton _ _ })

/-- A client marks the message as seen; then INBOX is synced, as far as the given step. -/
def storedAndSynced (steps : Nat) : List (Label (cacheSystem Sample.libraries ⟨true, false⟩)) :=
  Label.spawn 0 (Task.command "a" ⟨some 1, .selectedMailbox "INBOX" false, some 1⟩
      (.store ["1", "+FLAGS", "(\\Seen)"])) :: List.replicate 10 (Label.step 0 .none) ++
    Label.finish 0 :: Label.spawn 1 (Task.syncMailbox 1 "INBOX") :: List.replicate steps (Label.step 1 .none)

/-- A step of a sync while a change of the flags of message 1 waits. -/
def syncsWaiting (before after : List String)
    (t : Transition (cacheSystem Sample.libraries ⟨true, false⟩)) : Bool :=
  undelivered t.before.state.db 1 1 && t.before.state.db.flagsAt 1 1 == some before &&
    t.after.state.db.flagsAt 1 1 == some after &&
    match t.event with
    | .call _ task _ _ => isSync task
    | _ => false

theorem sync_keeps_undelivered_syncedInbox :
    ∃ trace c t old new, Run (syncedInbox ["\\Seen"]) trace c ∧ t ∈ trace ∧
      syncsWaiting old new t = true ∧ new = old := by
  have evaluated : (schedule [] (syncedInbox ["\\Seen"]) (storedAndSynced 9)).map (fun run =>
      decide (Always (fun older t => sparesUndelivered older t = true) run.1) &&
        run.1.any (syncsWaiting ["\\Seen"] ["\\Seen"])) = some true := by
    decide +kernel
  obtain ⟨⟨trace, c⟩, followed, result⟩ := Option.map_eq_some_iff.mp evaluated
  rw [Bool.and_eq_true, decide_eq_true_eq, List.any_eq_true] at result
  obtain ⟨spares, t, member, waits⟩ := result
  have run := schedule_run .start followed
  refine ⟨trace, c, t, ["\\Seen"], ["\\Seen"], run, member, waits, ?_⟩
  simp only [syncsWaiting, Bool.and_eq_true, beq_iff_eq] at waits
  obtain ⟨⟨⟨waiting, before⟩, after⟩, called⟩ := waits
  split at called
  · rename_i event
    exact sync_keeps_undelivered run spares member event called waiting before after
  · cases called

/-- The sync takes the flags from upstream while the client's change still waits. -/
theorem undelivered_overwritten :
    ∃ trace c t, Run (syncedInbox []) trace c ∧ t ∈ trace ∧ syncsWaiting ["\\Seen"] [] t = true := by
  have evaluated : (schedule [] (syncedInbox []) (storedAndSynced 8)).map (fun run =>
      run.1.any (syncsWaiting ["\\Seen"] [])) = some true := by
    decide +kernel
  obtain ⟨⟨trace, c⟩, followed, result⟩ := Option.map_eq_some_iff.mp evaluated
  obtain ⟨t, member, waits⟩ := List.any_eq_true.mp result
  exact ⟨trace, c, t, schedule_run .start followed, member, waits⟩

end ImapCache.Reconcile
