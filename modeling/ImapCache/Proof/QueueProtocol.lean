import ImapCache.Lib.System
import ImapCache.Proof.Footprints

/-!
# How a flush goes about the queue

A flush lists the due mutations and takes them one by one: it marks a mutation as in flight,
carries it out, and records the result. The protocol below says this of the calls of one process;
no other task touches the queue except to add pending mutations to it.
-/

namespace ImapCache.Queue
open Lib Prog System

/-- How far the attempt at a mutation has come: the command that carries it out has not been
answered yet, it has been answered and nothing has failed since, or something has failed. -/
inductive Stage where
  | started
  | executed
  | failed
deriving DecidableEq, Repr

inductive FlushState where
  | listing
  | between (rest : List (Row PendingMutation))
  | working (mutation : Row PendingMutation) (stage : Stage) (rest : List (Row PendingMutation))
  | done

inductive Progress where
  | other
  | flush (accountId : Int) (state : FlushState)

/-- The upstream command that carries out a mutation. -/
def carriesOut (mutation : PendingMutation) : Op → Bool
  | .append .. => mutation.mutationType == .append
  | .uidCopyMessage .. =>
      mutation.mutationType == .copyMessage || mutation.mutationType == .moveMessage
  | .uidStoreFlags _ uid flags =>
      mutation.mutationType == .storeFlags &&
        (mutation.payloadJson.get "local_uid").bind Json.asU64 == some uid &&
        Json.stringItems (mutation.payloadJson.get "flags") == flags
  | _ => false

/-- The calls of an attempt that come before that command, and the clock. -/
def preparatory : Op → Bool
  | .getObject .. | .mailboxUidvalidity .. | .messageUpstreamUid .. | .mappedUpstreamUid ..
  | .selectMailbox .. | .publishEvent .. | .clock => true
  | _ => false

/-- The calls of an attempt that come after that command. -/
def subsequent (mutation : PendingMutation) : Op → Bool
  | .setMailboxMessageUpstreamUid .. | .mailboxUidvalidity .. | .upsertUidMapping ..
  | .publishEvent .. => true
  | .uidStoreFlags .. | .expungeSelected .. => mutation.mutationType == .moveMessage
  | _ => false

def Records (mutation : Row PendingMutation) (status : MutationStatus) (op : Op) : Prop :=
  ∃ nextAttemptAt, op = .updatePendingMutation mutation.id status (mutation.data.attempts + 1) nextAttemptAt

def Bystanding : Op → Prop
  | .listDuePendingMutations .. | .updatePendingMutation .. | .append .. | .uidCopyMessage ..
  | .uidStoreFlags .. | .expungeSelected .. | .setMailboxMessageUpstreamUid .. => False
  | .enqueueMutation input => input.status = .pending ∧ input.nextAttemptAt = none
  | _ => True

def FlushState.Allows (accountId : Int) : FlushState → Op → Prop
  | listing, op => op = .listDuePendingMutations accountId
  | between rest, op => (∃ event, op = .publishEvent event) ∨
      ∃ mutation rest', rest = mutation :: rest' ∧
        op = .updatePendingMutation mutation.id .inFlight (mutation.data.attempts + 1) none
  | working mutation .started _, op =>
      preparatory op = true ∨ carriesOut mutation.data op = true ∨ Records mutation .failed op
  | working mutation .executed _, op =>
      subsequent mutation.data op = true ∨ Records mutation .succeeded op
  | working mutation .failed _, op =>
      op = .clock ∨ (∃ event, op = .publishEvent event) ∨ Records mutation .failed op
  | done, op => ∃ event, op = .publishEvent event

def Progress.Allows : Progress → Op → Prop
  | other, op => Bystanding op
  | flush accountId state, op => state.Allows accountId op

def FlushState.next : FlushState → (op : Op) → Except Error op.Ret → FlushState
  | listing, .listDuePendingMutations _, .ok rows => between rows
  | listing, _, _ => done
  | between (mutation :: rest), .updatePendingMutation .., .ok _ => working mutation .started rest
  | between rest, .publishEvent _, _ => between rest
  | between _, _, _ => done
  | working _ _ rest, .updatePendingMutation _ .succeeded _ _, .ok _ => between rest
  | working _ _ _, .updatePendingMutation .., _ => done
  | working mutation stage rest, .publishEvent _, _ => working mutation stage rest
  | working mutation _ rest, _, .error _ => working mutation .failed rest
  | working mutation stage rest, op, .ok _ =>
      working mutation (if carriesOut mutation.data op then .executed else stage) rest
  | done, _, _ => done

def Progress.next : Progress → (op : Op) → Except Error op.Ret → Progress
  | other, _, _ => other
  | flush accountId state, op, answer => flush accountId (state.next op answer)

def queueProtocol : Protocol cacheSignature Progress where
  allows := Progress.Allows
  next := Progress.next
  expects := Op.Answers

theorem queueProtocol_sound (lib : Libraries) : queueProtocol.Sound (cacheHandler lib) :=
  fun op world value ok => World.perform_answers lib world op value ok

def begin : Task → Progress
  | .flush accountId => .flush accountId .listing
  | _ => .other

def FlushState.Active : FlushState → Prop
  | listing => True
  | between rest => rest ≠ []
  | working .. => True
  | done => False

def Progress.Idle : Progress → Prop
  | flush _ state => ¬ state.Active
  | other => True

/-! ## A flush follows the protocol -/

section Flush
variable {accountId : Int} {mutation : Row PendingMutation} {rest : List (Row PendingMutation)}

theorem next_between_publish (rest : List (Row PendingMutation)) (event : MutationEvent)
    (answer : Except Error Unit) :
    FlushState.next (.between rest) (.publishEvent event) answer = .between rest := by
  cases rest <;> rfl

theorem next_carriesOut {op : Op} (carries : carriesOut mutation.data op = true) (stage : Stage)
    (value : op.Ret) :
    FlushState.next (.working mutation stage rest) op (.ok value) =
      .working mutation .executed rest := by
  cases op <;> first | cases carries | simp only [FlushState.next, carries, if_true]

theorem next_carriesOut_error {op : Op} (carries : carriesOut mutation.data op = true) (stage : Stage)
    (failure : Error) :
    FlushState.next (.working mutation stage rest) op (.error failure) =
      .working mutation .failed rest := by
  cases op <;> first | cases carries | simp only [FlushState.next]

/-- What an attempt leaves: the mutation has been carried out, or something has failed before or
after that. -/
def Attempted (accountId : Int) (mutation : Row PendingMutation) (rest : List (Row PendingMutation))
    {α : Type} (outcome : Except Error α) (q : Progress) : Prop :=
  match outcome with
  | .ok _ => q = .flush accountId (.working mutation .executed rest)
  | .error _ => q = .flush accountId (.working mutation .started rest) ∨
      q = .flush accountId (.working mutation .failed rest)

theorem setMailboxMessageUpstreamUid_follows (mailboxId localUid upstreamUid : Int) :
    (Repository.setMailboxMessageUpstreamUid mailboxId localUid upstreamUid).Follows queueProtocol
      (Attempted accountId mutation rest) (.flush accountId (.working mutation .executed rest)) := by
  refine follows_ask_bind (Or.inl rfl) (fun row _ => ?_) fun _ _ => Or.inr rfl
  cases row with
  | none => exact rfl
  | some row =>
      refine follows_bind ?_
      refine follows_ask_bind (Or.inl rfl) (fun uidvalidity _ => ?_) fun _ _ => Or.inr rfl
      refine follows_ask (Or.inl rfl) fun answer _ => ?_
      cases answer with
      | ok value => exact rfl
      | error failure => exact Or.inr rfl

theorem follows_carryOut {α : Type} {op : Op} {f : op.Ret → Action α}
    (carries : carriesOut mutation.data op = true)
    (rest' : ∀ value, (f value).Follows queueProtocol (Attempted accountId mutation rest)
      (.flush accountId (.working mutation .executed rest))) :
    ((await op).bind f).Follows queueProtocol (Attempted accountId mutation rest)
      (.flush accountId (.working mutation .started rest)) := by
  refine follows_ask_bind (Or.inr (Or.inl carries)) (fun value _ => ?_) fun failure _ => Or.inr ?_
  · have next : queueProtocol.next (.flush accountId (.working mutation .started rest)) op (.ok value)
        = .flush accountId (.working mutation .executed rest) :=
      congrArg (Progress.flush accountId) (next_carriesOut carries _ value)
    rw [next]
    exact rest' value
  · exact congrArg (Progress.flush accountId) (next_carriesOut_error carries _ failure)

theorem applyAppend_follows (lib : Libraries) (connection : Nat)
    (kind : mutation.data.mutationType = .append) (payload : Json) :
    (Mutations.applyAppend lib connection payload).Follows queueProtocol
      (Attempted accountId mutation rest) (.flush accountId (.working mutation .started rest)) := by
  refine follows_orThrow_bind (fun mailbox _ => ?_) fun _ => Or.inl rfl
  refine follows_orThrow_bind (fun mailboxId _ => ?_) fun _ => Or.inl rfl
  refine follows_orThrow_bind (fun blobKey _ => ?_) fun _ => Or.inl rfl
  refine follows_ofExcept_bind (fun internalDate _ => ?_) fun _ _ => Or.inl rfl
  refine follows_ask_bind (Or.inl rfl) (fun raw _ => ?_) fun _ _ => Or.inr rfl
  refine follows_orThrow_bind (fun raw _ => ?_) fun _ => Or.inl rfl
  refine follows_carryOut (by simp [carriesOut, kind]) fun appendUid => ?_
  split
  · refine follows_bind ((setMailboxMessageUpstreamUid_follows _ _ _).mono fun outcome q reached => ?_)
    cases outcome with
    | ok row => exact reached
    | error failure => exact reached
  · exact rfl

theorem applyFlagUpdate_follows (connection : Nat)
    (kind : mutation.data.mutationType = .storeFlags) :
    (Mutations.applyFlagUpdate connection mutation.data.payloadJson).Follows queueProtocol
      (Attempted accountId mutation rest) (.flush accountId (.working mutation .started rest)) := by
  refine follows_orThrow_bind (fun localUid payloadUid => ?_) fun _ => Or.inl rfl
  have carries : carriesOut mutation.data (.uidStoreFlags connection localUid
      (Json.stringItems (mutation.data.payloadJson.get "flags"))) = true := by
    simp [carriesOut, kind, payloadUid]
  refine follows_ask (Or.inr (Or.inl carries)) fun answer _ => ?_
  cases answer with
  | ok value => exact congrArg (Progress.flush accountId) (next_carriesOut carries _ value)
  | error failure =>
      exact Or.inr (congrArg (Progress.flush accountId) (next_carriesOut_error carries _ failure))

theorem readTransfer_follows (kind : String) (payload : Json) {α : Type}
    {f : Mutations.Transfer → Action α}
    (read : ∀ transfer, (f transfer).Follows queueProtocol (Attempted accountId mutation rest)
      (.flush accountId (.working mutation .started rest))) :
    ((Mutations.readTransfer kind payload).bind f).Follows queueProtocol
      (Attempted accountId mutation rest) (.flush accountId (.working mutation .started rest)) := by
  refine follows_bind ?_
  refine follows_orThrow_bind (fun _ _ => ?_) fun _ => Or.inl rfl
  refine follows_orThrow_bind (fun _ _ => ?_) fun _ => Or.inl rfl
  refine follows_orThrow_bind (fun _ _ => ?_) fun _ => Or.inl rfl
  refine follows_orThrow_bind (fun _ _ => ?_) fun _ => Or.inl rfl
  refine follows_orThrow_bind (fun _ _ => ?_) fun _ => Or.inl rfl
  refine follows_orThrow_bind (fun _ _ => ?_) fun _ => Or.inl rfl
  exact read _

theorem upstreamUidForMailboxMessage_follows (mailboxId localUid : Int) {α : Type}
    {f : Option Int → Action α}
    (found : ∀ uid, (f uid).Follows queueProtocol (Attempted accountId mutation rest)
      (.flush accountId (.working mutation .started rest))) :
    ((Repository.upstreamUidForMailboxMessage mailboxId localUid).bind f).Follows queueProtocol
      (Attempted accountId mutation rest) (.flush accountId (.working mutation .started rest)) := by
  refine follows_bind ?_
  refine follows_ask_bind (Or.inl rfl) (fun uidvalidity _ => ?_) fun _ _ => Or.inr rfl
  refine follows_ask_bind (Or.inl rfl) (fun upstreamUid _ => ?_) fun _ _ => Or.inr rfl
  split
  · exact found upstreamUid
  · refine follows_ask (Or.inl rfl) fun answer _ => ?_
    cases answer with
    | ok value => exact found value
    | error failure => exact Or.inr rfl

theorem copyUpstream_follows (name : String) (connection : Nat) (transfer : Mutations.Transfer)
    (kind : mutation.data.mutationType = .copyMessage ∨ mutation.data.mutationType = .moveMessage) :
    (Mutations.copyUpstream name connection transfer).Follows queueProtocol
      (Attempted accountId mutation rest) (.flush accountId (.working mutation .started rest)) := by
  refine upstreamUidForMailboxMessage_follows _ _ fun uid => ?_
  refine follows_orThrow_bind (fun sourceUpstreamUid _ => ?_) fun _ => Or.inl rfl
  refine follows_ask_bind (Or.inl rfl) (fun _ _ => ?_) fun _ _ => Or.inr rfl
  refine follows_carryOut (by rcases kind with kind | kind <;> simp [carriesOut, kind]) fun uid => ?_
  refine follows_bind ((setMailboxMessageUpstreamUid_follows _ _ _).mono fun outcome q reached => ?_)
  cases outcome with
  | ok row => exact reached
  | error failure => exact reached

theorem applyMutation_follows (lib : Libraries) (connection : Nat) :
    (Mutations.applyMutation lib connection mutation.data).Follows queueProtocol
      (Attempted accountId mutation rest) (.flush accountId (.working mutation .started rest)) := by
  unfold Mutations.applyMutation
  split
  · rename_i kind
    exact applyAppend_follows lib connection kind _
  · rename_i kind
    exact applyFlagUpdate_follows connection kind
  · rename_i kind
    refine readTransfer_follows _ _ fun transfer => ?_
    refine follows_bind ((copyUpstream_follows _ _ _ (Or.inl kind)).mono fun outcome q reached => ?_)
    cases outcome with
    | ok uid => exact reached
    | error failure => exact reached
  · rename_i kind
    refine readTransfer_follows _ _ fun transfer => ?_
    refine follows_bind ((copyUpstream_follows _ _ _ (Or.inr kind)).mono fun outcome q reached => ?_)
    cases outcome with
    | error failure => exact reached
    | ok uid =>
        cases reached
        have moving : (mutation.data.mutationType == .moveMessage) = true := by simp [kind]
        have quiet : carriesOut mutation.data (.uidStoreFlags connection (i64AsU64 uid)
            (Mutations.withDeleted transfer.flags)) = false := by simp [carriesOut, kind]
        refine follows_ask_bind (Or.inl moving) (fun _ _ => ?_) fun _ _ => Or.inr rfl
        have next : queueProtocol.next (.flush accountId (.working mutation .executed rest))
            (.uidStoreFlags connection (i64AsU64 uid) (Mutations.withDeleted transfer.flags)) (.ok ())
              = .flush accountId (.working mutation .executed rest) := by
          simp [queueProtocol, Progress.next, FlushState.next, quiet]
        rw [next]
        refine follows_ask (Or.inl moving) fun answer _ => ?_
        cases answer with
        | ok value => exact rfl
        | error failure => exact Or.inr rfl
  · exact Or.inl rfl

theorem updatePendingMutation_follows {id attempts : Int} {status : MutationStatus}
    {nextAttemptAt : Option Time} {q : Progress} {post : Except Error (Row PendingMutation) → Progress → Prop}
    (allowed : queueProtocol.allows q (.updatePendingMutation id status attempts nextAttemptAt))
    (recorded : ∀ row : Row PendingMutation, row.id = id → row.data.attempts = attempts →
      ∀ event answer,
        let q' := queueProtocol.next q (.updatePendingMutation id status attempts nextAttemptAt) (.ok row)
        queueProtocol.allows q' (.publishEvent event) ∧
          post (.ok row) (queueProtocol.next q' (.publishEvent event) answer))
    (failed : ∀ failure, post (.error failure)
      (queueProtocol.next q (.updatePendingMutation id status attempts nextAttemptAt) (.error failure))) :
    (Repository.updatePendingMutation id status attempts nextAttemptAt).Follows queueProtocol post q := by
  refine follows_ask_bind allowed (fun row answers => ?_) fun failure _ => failed failure
  have published := recorded row answers.1 answers.2
  exact follows_tell_bind (published _ (.ok ())).1 fun answer => (published _ answer).2

/-- A round of the flush ends between two mutations or ends the flush. -/
def RoundEnd (accountId : Int) (rest : List (Row PendingMutation)) {α : Type}
    (outcome : Except Error α) (q : Progress) : Prop :=
  match outcome with
  | .ok _ => q = .flush accountId (.between rest)
  | .error _ => q = .flush accountId .done

theorem flushMutation_follows (lib : Libraries) (connection applied : Nat) :
    (Mutations.flushMutation lib connection applied mutation).Follows queueProtocol
      (RoundEnd accountId rest) (.flush accountId (.between (mutation :: rest))) := by
  refine follows_bind (updatePendingMutation_follows (Or.inr ⟨mutation, rest, rfl, rfl⟩) ?_ ?_)
  · intro inFlight sameId sameAttempts event answer
    refine ⟨Or.inl rfl, ?_⟩
    refine follows_bind (follows_attempt ((applyMutation_follows lib connection).mono ?_))
    intro outcome q reached
    cases outcome with
    | ok value =>
        cases reached
        refine follows_bind (updatePendingMutation_follows (Or.inr ⟨none, ?_⟩) ?_ ?_)
        · rw [sameId, sameAttempts]
        · intro row _ _ event answer
          refine ⟨Or.inl ⟨event, rfl⟩, ?_⟩
          exact congrArg (Progress.flush accountId) (next_between_publish rest event answer)
        · exact fun _ => rfl
    | error failure =>
        refine follows_ask_bind ?_ (fun now _ => ?_) fun _ infallible => nomatch infallible
        · rcases reached with rfl | rfl
          · exact Or.inl rfl
          · exact Or.inl rfl
        · have reached' : ∃ stage, stage ≠ .executed ∧
              queueProtocol.next q .clock (.ok now) = .flush accountId (.working mutation stage rest) := by
            rcases reached with rfl | rfl
            · exact ⟨.started, by decide, rfl⟩
            · exact ⟨.failed, by decide, rfl⟩
          obtain ⟨stage, early, eq⟩ := reached'
          rw [eq]
          have allowed : ∀ nextAttemptAt, queueProtocol.allows (.flush accountId (.working mutation stage rest))
              (.updatePendingMutation inFlight.id .failed inFlight.data.attempts nextAttemptAt) := by
            intro nextAttemptAt
            rw [sameId, sameAttempts]
            cases stage with
            | started => exact Or.inr (Or.inr ⟨_, rfl⟩)
            | failed => exact Or.inr (Or.inr ⟨_, rfl⟩)
            | executed => exact absurd rfl early
          refine follows_bind (updatePendingMutation_follows (allowed _) ?_ ?_)
          · intro row _ _ event answer
            exact ⟨⟨event, rfl⟩, (rfl : RoundEnd accountId rest (.error failure : Except _ Nat) _)⟩
          · exact fun _ => rfl
  · exact fun _ => rfl

theorem flushPendingMutations_follows (lib : Libraries) (accountId : Int) (connection : Nat) :
    (Mutations.flushPendingMutations lib accountId connection).Follows queueProtocol
      (fun _ q => q.Idle) (.flush accountId .listing) := by
  refine follows_ask_bind rfl (fun pending _ => ?_) fun _ _ => id
  refine follows_foldlM (fun rest q => q = .flush accountId (.between rest)) rfl ?_ ?_
  · rintro mutation rest applied q rfl
    refine (flushMutation_follows lib connection applied).mono fun outcome q' ended => ?_
    cases outcome with
    | ok value => exact ended
    | error failure =>
        cases ended
        exact id
  · rintro value q' rfl
    exact fun left => left rfl

end Flush

/-! ## The other tasks leave the queue alone -/

theorem bystanding_of_auxiliary (op : Op) (auxiliary : op.auxiliary = true) : Bystanding op := by
  cases op <;> trivial

theorem newPendingMutation_bystanding (lib : Libraries) (accountId mailboxId : Int)
    (messageId : Option Int) (mutationType : MutationType) (payload : Json) :
    Bystanding (.enqueueMutation
      (Mutations.newPendingMutation lib accountId mailboxId messageId mutationType payload)) :=
  ⟨rfl, rfl⟩

theorem bystanding_of_syncing (op : Op) (syncing : op.syncing = true) : Bystanding op := by
  cases op <;> trivial

theorem command_bystanding (context : Commands.Context) (request : Command) :
    (request.code context).Uses Bystanding := by
  have use : CommandUse context.lib context.session Bystanding :=
    { auxiliary := bystanding_of_auxiliary
      enqueue := newPendingMutation_bystanding context.lib
      insert := fun _ => trivial
      mapping := fun _ _ _ _ => trivial
      copy := fun _ _ _ => trivial
      update := fun _ _ _ _ => trivial
      delete := fun _ _ _ => trivial }
  exact command_uses use (fun _ _ => trivial) (fun _ _ _ => trivial) request

/-! ## Every task follows the protocol -/

theorem bystanding_follows {p : Action Outcome} (uses : p.Uses Bystanding) :
    p.Follows queueProtocol (fun _ q => q.Idle) .other :=
  (uses.follows (fun _ allowed => allowed) fun _ _ _ => rfl).mono fun _ q eq => by
    rw [eq]
    trivial

theorem task_follows (lib : Libraries) (services : Services) (pid : Nat) (task : Task) :
    (task.code lib services pid).Follows queueProtocol (fun _ q => q.Idle) (begin task) := by
  cases task with
  | command tag session request =>
      exact bystanding_follows ((command_bystanding _ request).bind fun _ => trivial)
  | queueFlagUpdate accountId mailboxId messageId localUid flags =>
      refine bystanding_follows (Uses.bind ?_ fun _ => trivial)
      exact Repository.enqueueMutation_uses
        (fun op bookkeeping => bystanding_of_auxiliary op (Op.auxiliary_of_bookkeeping bookkeeping))
        (newPendingMutation_bystanding ..)
  | flush accountId =>
      refine follows_bind ((flushPendingMutations_follows lib accountId pid).mono ?_)
      intro outcome q idle
      cases outcome with
      | ok count => exact idle
      | error failure => exact idle
  | syncAccount accountId =>
      exact bystanding_follows (((Sync.syncAccount_uses ..).mono bystanding_of_syncing).bind
        fun _ => trivial)
  | syncMailbox accountId mailboxName =>
      exact bystanding_follows (((Sync.syncMailbox_uses ..).mono bystanding_of_syncing).bind
        fun _ => trivial)

/-! ## What a run has done with the queue -/

variable {lib : Libraries} {services : Services}

/-- The state of a process in its dealings with the queue. -/
def progressOf (trace : List (Transition (cacheSystem lib services))) (pid : Nat) : Option Progress :=
  progress queueProtocol begin trace pid

/-- The mutation that a process works on, from the mark to the record. -/
def workingOn (trace : List (Transition (cacheSystem lib services))) (pid : Nat) :
    Option (Row PendingMutation) :=
  match progressOf trace pid with
  | some (.flush _ (.working mutation _ _)) => some mutation
  | _ => none

def processed (trace : List (Transition (cacheSystem lib services))) : List Int :=
  (spawned trace).filterMap fun pid => (workingOn trace pid).map (·.id)

theorem workingOn_eq_some {trace : List (Transition (cacheSystem lib services))} {pid : Nat}
    {mutation : Row PendingMutation} : workingOn trace pid = some mutation ↔
      ∃ accountId stage rest,
        progressOf trace pid = some (.flush accountId (.working mutation stage rest)) := by
  unfold workingOn
  split
  · rename_i accountId mutation' stage rest reached
    simp [reached]
  · rename_i idle
    simp only [reduceCtorEq, false_iff, not_exists]
    exact fun accountId stage rest reached => idle accountId mutation stage rest reached

theorem mem_processed {trace : List (Transition (cacheSystem lib services))} {id : Int} :
    id ∈ processed trace ↔ ∃ pid mutation, workingOn trace pid = some mutation ∧ mutation.id = id := by
  simp only [processed, List.mem_filterMap, Option.map_eq_some_iff]
  constructor
  · rintro ⟨pid, -, working⟩
    exact ⟨pid, working⟩
  · rintro ⟨pid, mutation, working, rfl⟩
    obtain ⟨accountId, stage, rest, reached⟩ := workingOn_eq_some.mp working
    exact ⟨pid, mem_spawned reached, mutation, working, rfl⟩

theorem next_working (mutation : Row PendingMutation) (stage : Stage)
    (rest : List (Row PendingMutation)) {op : Op} (answer : Except Error op.Ret)
    (other : ∀ id status attempts nextAttemptAt,
      op ≠ .updatePendingMutation id status attempts nextAttemptAt) :
    ∃ stage', FlushState.next (.working mutation stage rest) op answer =
      .working mutation stage' rest := by
  cases op <;> first
    | exact absurd rfl (other _ _ _ _)
    | cases answer <;> exact ⟨_, rfl⟩

theorem record_of_allows {accountId : Int} {mutation : Row PendingMutation} {stage : Stage}
    {rest : List (Row PendingMutation)} {id attempts : Int} {status : MutationStatus}
    {nextAttemptAt : Option Time}
    (allowed : FlushState.Allows accountId (.working mutation stage rest)
      (.updatePendingMutation id status attempts nextAttemptAt)) :
    id = mutation.id ∧ (status = .succeeded ∧ stage = .executed ∨
      status = .failed ∧ stage ≠ .executed) := by
  cases stage with
  | started =>
      rcases allowed with prep | carries | ⟨next, record⟩
      · cases prep
      · cases carries
      · cases record
        exact ⟨rfl, Or.inr ⟨rfl, by decide⟩⟩
  | executed =>
      rcases allowed with sub | ⟨next, record⟩
      · cases sub
      · cases record
        exact ⟨rfl, Or.inl ⟨rfl, rfl⟩⟩
  | failed =>
      rcases allowed with clock | ⟨event, publish⟩ | ⟨next, record⟩
      · cases clock
      · cases publish
      · cases record
        exact ⟨rfl, Or.inr ⟨rfl, by decide⟩⟩

/-- A process updates the queue with the mark of the next mutation or the record of the one it
works on. -/
theorem allows_update {q : Progress} {id attempts : Int} {status : MutationStatus}
    {nextAttemptAt : Option Time}
    (allowed : q.Allows (.updatePendingMutation id status attempts nextAttemptAt)) :
    (∃ accountId mutation rest, q = .flush accountId (.between (mutation :: rest)) ∧
      id = mutation.id ∧ status = .inFlight) ∨
    ∃ accountId mutation stage rest, q = .flush accountId (.working mutation stage rest) ∧
      id = mutation.id ∧ (status = .succeeded ∧ stage = .executed ∨
        status = .failed ∧ stage ≠ .executed) := by
  cases q with
  | other => exact allowed.elim
  | flush accountId state =>
      cases state with
      | listing => cases allowed
      | done =>
          obtain ⟨event, publish⟩ := allowed
          cases publish
      | between rest =>
          rcases allowed with ⟨event, publish⟩ | ⟨mutation, rest', rfl, mark⟩
          · cases publish
          · cases mark
            exact Or.inl ⟨accountId, mutation, rest', rfl, rfl, rfl⟩
      | working mutation stage rest =>
          exact Or.inr ⟨accountId, mutation, stage, rest, rfl, record_of_allows allowed⟩

theorem allows_enqueue {q : Progress} {input : PendingMutation}
    (allowed : q.Allows (.enqueueMutation input)) : q = .other ∧ input.status = .pending := by
  cases q with
  | other => exact ⟨rfl, allowed.1⟩
  | flush accountId state =>
      cases state with
      | working mutation stage rest =>
          cases stage <;> simp [Progress.Allows, FlushState.Allows, preparatory, carriesOut, subsequent,
            Records] at allowed
      | _ => simp [Progress.Allows, FlushState.Allows] at allowed

theorem progressOf_call {trace : List (Transition (cacheSystem lib services))}
    {c c' : Config (cacheSystem lib services)} {pid : Nat} {task : Task} {op : Op}
    {fault : Fault Error} :
    progressOf (⟨c, .call pid task op fault, c'⟩ :: trace) pid =
      (progressOf trace pid).map fun q =>
        q.next op ((cacheHandler lib).answer fault op c.state).1 := by
  simp [progressOf, progress, queueProtocol]

theorem allows_of_call {world : World} {trace : List (Transition (cacheSystem lib services))}
    {c c' : Config (cacheSystem lib services)} {pid : Nat} {task : Task} {op : Op}
    {fault : Fault Error} (run : Run (idle _ world) trace c)
    (step : Step c (.call pid task op fault) c') :
    ∃ q, progressOf trace pid = some q ∧ q.Allows op :=
  run.allowed (queueProtocol_sound lib) (task_follows lib services) step

theorem workingOn_step {world : World} {older : List (Transition (cacheSystem lib services))}
    {c c' : Config (cacheSystem lib services)} {event : Event (cacheSystem lib services)}
    (run : Run (idle _ world) older c) (step : Step c event c') {pid : Nat}
    {mutation : Row PendingMutation} (working : workingOn older pid = some mutation) :
    workingOn (⟨c, event, c'⟩ :: older) pid = some mutation ∨
    (∃ task, event = .crash pid task) ∨
    ∃ task status attempts nextAttemptAt fault, status ≠ .inFlight ∧ event =
      .call pid task (.updatePendingMutation mutation.id status attempts nextAttemptAt) fault := by
  obtain ⟨accountId, stage, rest, reached⟩ := workingOn_eq_some.mp working
  by_cases own : event.actor = some pid
  · have follows := run.follows (queueProtocol_sound lib) (task_follows lib services) pid
    have ended : ∀ q, progressOf older pid = some q → ¬ q.Idle := by
      intro q reached' idle
      rw [reached] at reached'
      cases reached'
      exact idle trivial
    cases step with
    | spawn free =>
        cases own
        simp only [free] at follows
        rw [progressOf, follows] at reached
        cases reached
    | @call _ task op next fault here =>
        cases own
        obtain ⟨q, reached', allowed⟩ := allows_of_call run (.call fault here)
        rw [reached] at reached'
        cases reached'
        by_cases update : ∃ id status attempts nextAttemptAt,
            op = .updatePendingMutation id status attempts nextAttemptAt
        · obtain ⟨id, status, attempts, nextAttemptAt, rfl⟩ := update
          obtain ⟨rfl, ended⟩ := record_of_allows allowed
          refine Or.inr (Or.inr ⟨task, status, attempts, nextAttemptAt, fault, ?_, rfl⟩)
          rcases ended with ⟨rfl, -⟩ | ⟨rfl, -⟩ <;> decide
        · push Not at update
          obtain ⟨stage', next⟩ :=
            next_working mutation stage rest ((cacheHandler lib).answer fault op c.state).1 update
          refine Or.inl (workingOn_eq_some.mpr ⟨accountId, stage', rest, ?_⟩)
          rw [progressOf_call, reached, Option.map_some, Progress.next, next]
    | returned here =>
        cases own
        simp only [here] at follows
        obtain ⟨q, reached', idle⟩ := follows
        exact absurd idle (ended q reached')
    | failed here =>
        cases own
        simp only [here] at follows
        obtain ⟨q, reached', idle⟩ := follows
        exact absurd idle (ended q reached')
    | crash here =>
        cases own
        exact Or.inr (Or.inl ⟨_, rfl⟩)
    | disturb change => cases own
  · refine Or.inl (workingOn_eq_some.mpr ⟨accountId, stage, rest, ?_⟩)
    exact (progress_other own).trans reached

/-- What a call does to the rows of the queue. -/
inductive QueueEffect (world world' : World) (fault : Fault Error) : Op → Prop where
  | same {op} (rows : world'.db.pendingMutations.rows = world.db.pendingMutations.rows)
      (noUpdate : ∀ id status attempts nextAttemptAt,
        op = .updatePendingMutation id status attempts nextAttemptAt →
          fault.reaches = false ∨ ∀ row ∈ world.db.pendingMutations.rows, row.id ≠ id) :
      QueueEffect world world' fault op
  | updated {id status attempts nextAttemptAt} (reaches : fault.reaches = true)
      (rows : world'.db.pendingMutations.rows = world.db.pendingMutations.rows.map
        (Table.modified (·.id == id) fun m => { m with status, attempts, nextAttemptAt }))
      (found : ∃ row ∈ world.db.pendingMutations.rows, row.id = id) :
      QueueEffect world world' fault (.updatePendingMutation id status attempts nextAttemptAt)
  | enqueued {input} (rows : world'.db.pendingMutations.rows = world.db.pendingMutations.rows ++
        [⟨world.db.pendingMutations.nextId, { input with createdAt := world.now }⟩]) :
      QueueEffect world world' fault (.enqueueMutation input)
  | dropped {accountId name} (keep : Row PendingMutation → Bool)
      (rows : world'.db.pendingMutations.rows = world.db.pendingMutations.rows.filter keep) :
      QueueEffect world world' fault (.deleteMailbox accountId name)

theorem queueEffect (lib : Libraries) (fault : Fault Error) (op : Op) (world : World) :
    QueueEffect world ((cacheHandler lib).answer fault op world).2 fault op := by
  by_cases writes : Component.pendingMutations ∈ op.writes
  · cases reaches : fault.reaches with
    | false =>
        have fallible : cacheSignature.fallible op = true := by
          cases op <;> first | rfl | simp [Op.writes] at writes
        exact .same (by rw [Handler.answer_lost world fallible reaches]) fun _ _ _ _ _ => Or.inl reaches
    | true =>
        rw [Handler.answer_reaches _ _ reaches, cacheHandler_exec]
        cases op with
        | deleteMailbox accountId name => exact .dropped _ rfl
        | enqueueMutation input =>
            cases result : world.db.enqueueMutation { input with createdAt := world.now } with
            | error failure =>
                refine .same (by rw [World.perform, World.commit_of_error result]) ?_
                intro _ _ _ _ eq
                cases eq
            | ok written =>
                obtain ⟨row, db'⟩ := written
                obtain ⟨pendingMutations, rfl, rfl, rows, -⟩ := Db.enqueueMutation_ok result
                exact .enqueued (by rw [World.perform, World.commit_of_ok result]; exact rows)
        | updatePendingMutation id status attempts nextAttemptAt =>
            cases result : world.db.updatePendingMutation id status attempts nextAttemptAt with
            | error failure =>
                refine .same (by rw [World.perform, World.commit_of_error result]) ?_
                intro _ _ _ _ eq
                cases eq
                exact Or.inr (Db.updatePendingMutation_error result)
            | ok written =>
                obtain ⟨row, db'⟩ := written
                obtain ⟨pendingMutations, rfl, rows, -, old, member, same, -⟩ :=
                  Db.updatePendingMutation_ok result
                refine .updated reaches ?_ ⟨old, member, same⟩
                rw [World.perform, World.commit_of_ok result]
                exact rows
        | _ => simp [Op.writes] at writes
  · refine .same (congrArg Table.rows
      (World.answer_frame lib fault op world .pendingMutations writes)) ?_
    rintro _ _ _ _ rfl
    simp [Op.writes] at writes

theorem queue_nextId (lib : Libraries) (fault : Fault Error) (op : Op) (world : World) :
    world.db.pendingMutations.nextId ≤
      ((cacheHandler lib).answer fault op world).2.db.pendingMutations.nextId := by
  rcases (cacheHandler lib).answer_state fault op world with same | executed
  · rw [same]
  · rw [executed, cacheHandler_exec]
    by_cases writes : Component.pendingMutations ∈ op.writes
    · cases op with
      | deleteMailbox accountId name => exact le_rfl
      | enqueueMutation input =>
          cases result : world.db.enqueueMutation { input with createdAt := world.now } with
          | error failure => rw [World.perform, World.commit_of_error result]
          | ok written =>
              obtain ⟨pendingMutations, eq, -, -, next⟩ := Db.enqueueMutation_ok result
              rw [World.perform, World.commit_of_ok result]
              simp only [eq, next]
              omega
      | updatePendingMutation id status attempts nextAttemptAt =>
          cases result : world.db.updatePendingMutation id status attempts nextAttemptAt with
          | error failure => rw [World.perform, World.commit_of_error result]
          | ok written =>
              obtain ⟨pendingMutations, eq, -, next, -⟩ := Db.updatePendingMutation_ok result
              rw [World.perform, World.commit_of_ok result]
              simp only [eq, next]
              exact le_rfl
      | _ => simp [Op.writes] at writes
    · exact (congrArg Table.nextId
        (World.perform_frame lib world op .pendingMutations writes)).ge

end ImapCache.Queue
