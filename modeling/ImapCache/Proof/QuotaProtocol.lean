import ImapCache.Model.MessageTasks
import ImapCache.Proof.IngestAtomicity

/-!
# Ingestions and the quota

An ingestion checks the quota with its first call and adjusts the usage with its last. In between, it
records the message and its parts.
-/

namespace ImapCache.Ingest
open Lib Prog System

/-! ## How an ingestion goes about the quota -/

/-- What an ingestion has seen and done. -/
structure Phase where
  accountId : Int
  bytes : Int
  /-- The quota that the check was answered with. -/
  seen : Option (Option (Row Quota))
  message : Option Int
  placed : Bool
  charged : Bool

inductive Progress where
  | deleting
  | ingesting (phase : Phase)

/-- The operations that neither read a quota nor write quotas, messages or rows. -/
def Quiet : Op → Prop
  | .getAccountQuota _ => False
  | op => .quotas ∉ op.writes ∧ .messages ∉ op.writes ∧ .mailboxMessages ∉ op.writes

def Phase.Fits (phase : Phase) : Prop :=
  ∃ answer, phase.seen = some answer ∧
    ∀ quota, answer = some quota → quota.data.usedBytes + phase.bytes ≤ quota.data.maxBytes

def Phase.Allows (phase : Phase) (op : Op) : Prop :=
  phase.charged = false ∧
    match op with
    | .getAccountQuota accountId => accountId = phase.accountId ∧ phase.seen = none
    | .upsertMessage _ => phase.message = none
    | .insertMailboxMessage input => phase.message = some input.messageId
    | .adjustAccountQuotaUsage accountId bytes =>
        accountId = phase.accountId ∧ bytes = phase.bytes ∧ phase.placed = true ∧ phase.Fits
    | op => Quiet op

def Progress.Allows : Progress → Op → Prop
  | deleting, op => (∃ mailboxId localUid, op = .deleteMailboxMessage mailboxId localUid) ∨ Quiet op
  | ingesting phase, op => phase.Allows op

def Phase.next (phase : Phase) : (op : Op) → Except Error op.Ret → Phase
  | .getAccountQuota _, .ok quota => { phase with seen := some quota }
  | .upsertMessage _, .ok row => { phase with message := some row.id }
  | .insertMailboxMessage _, .ok _ => { phase with placed := true }
  | .adjustAccountQuotaUsage _ _, .ok _ => { phase with charged := true }
  | _, _ => phase

def Progress.next : Progress → (op : Op) → Except Error op.Ret → Progress
  | deleting, _, _ => deleting
  | ingesting phase, op, answer => ingesting (phase.next op answer)

/-- An object is accounted for with the bytes that were put. -/
def Expected : (op : Op) → op.Ret → Prop
  | .putObject _ bytes, metadata => metadata.sizeOctets = bytes.length
  | _, _ => True

def quotaProtocol : Protocol cacheSignature Progress where
  allows := Progress.Allows
  next := Progress.next
  expects := Expected

theorem quotaProtocol_sound (lib : Libraries) : quotaProtocol.Sound (cacheHandler lib) := by
  intro op world value ok
  cases op with
  | putObject key bytes =>
      simp only [cacheHandler_exec, World.perform, World.putObject] at ok
      split at ok
      · cases ok
      · cases ok
        rfl
  | _ => trivial

def begin : MessageTask → Progress
  | .ingest target raw parsed =>
      .ingesting ⟨target.accountId, messageBytes raw parsed, none, none, false, false⟩
  | .delete _ _ => .deleting

/-- An ingestion returns exactly when it has charged the account for its message. -/
def Ended (outcome : Except Error MessageOutcome) (q : Progress) : Prop :=
  ∀ phase, q = .ingesting phase →
    match outcome with
    | .ok (.ingested message) => phase.charged = true ∧ phase.message = some message.messageId
    | .ok (.deleted _) => False
    | .error _ => phase.charged = false

theorem Phase.next_quiet (phase : Phase) {op : Op} (quiet : Quiet op) (answer : Except Error op.Ret) :
    phase.next op answer = phase := by
  cases op with
  | getAccountQuota accountId => exact quiet.elim
  | upsertMessage input => simp [Quiet, Op.writes] at quiet
  | insertMailboxMessage input => simp [Quiet, Op.writes] at quiet
  | adjustAccountQuotaUsage accountId bytes => simp [Quiet, Op.writes] at quiet
  | _ => rfl

theorem Phase.allows_quiet {phase : Phase} (pending : phase.charged = false) {op : Op} (quiet : Quiet op) :
    phase.Allows op := by
  refine ⟨pending, ?_⟩
  cases op with
  | getAccountQuota accountId => exact quiet.elim
  | upsertMessage input => simp [Quiet, Op.writes] at quiet
  | insertMailboxMessage input => simp [Quiet, Op.writes] at quiet
  | adjustAccountQuotaUsage accountId bytes => simp [Quiet, Op.writes] at quiet
  | _ => exact quiet


section
variable {α : Type} {phase : Phase} {post : Except Error α → Progress → Prop}

theorem follows_quiet {p : Action α} (uses : p.Uses Quiet) (pending : phase.charged = false) :
    p.Follows quotaProtocol (fun _ q => q = .ingesting phase) (.ingesting phase) := by
  refine uses.follows (fun op quiet => Phase.allows_quiet pending quiet) fun op answer quiet => ?_
  exact congrArg Progress.ingesting (phase.next_quiet quiet answer)

theorem follows_quiet_bind {p : Action α} {β : Type} {f : α → Action β} {post : Except Error β → Progress → Prop}
    (uses : p.Uses Quiet) (pending : phase.charged = false)
    (rest : ∀ value, (f value).Follows quotaProtocol post (.ingesting phase))
    (error : ∀ failure, post (.error failure) (.ingesting phase)) :
    (p.bind f).Follows quotaProtocol post (.ingesting phase) := by
  refine follows_bind ((follows_quiet uses pending).mono fun outcome q same => ?_)
  subst same
  cases outcome with
  | ok value => exact rest value
  | error failure => exact error failure

theorem follows_call_bind {op : Op} {f : op.Ret → Action α} (allowed : phase.Allows op)
    (failed : ∀ failure, phase.next op (.error failure) = phase)
    (ok : ∀ value, Expected op value → (f value).Follows quotaProtocol post (.ingesting (phase.next op (.ok value))))
    (error : ∀ failure, post (.error failure) (.ingesting phase)) :
    ((await op).bind f).Follows quotaProtocol post (.ingesting phase) := by
  refine follows_ask_bind allowed ok fun failure _ => ?_
  change post (.error failure) (.ingesting (phase.next op (.error failure)))
  rw [failed]
  exact error failure

end

/-! ## Ingestions follow the protocol -/

theorem estimateMessageBytes_eq {raw : Bytes} {parsed : ParsedMessage} {bytes : Int}
    (estimated : estimateMessageBytes raw parsed = .ok bytes) : bytes = messageBytes raw parsed := by
  have added {total result : Int} {size : Nat} {large : String}
      (ok : (if (size : Int) > i64Max then (.error (.storage large) : Except Error Int)
        else if total + size > i64Max then .error (.storage "message size calculation overflowed")
        else .ok (total + size)) = .ok result) : result = total + size := by
    split at ok
    · cases ok
    · split at ok
      · cases ok
      · cases ok
        rfl
  have parts (records : List MimePartRecord) (total result : Int) (ok : records.foldlM
      (fun total part => if (part.rawBytes.length : Int) > i64Max
        then (.error (.storage "mime part size does not fit in i64") : Except Error Int)
        else if total + part.rawBytes.length > i64Max
        then .error (.storage "message size calculation overflowed")
        else .ok (total + part.rawBytes.length)) total = .ok result) :
      result = total + (records.map fun part => (part.rawBytes.length : Int)).sum := by
    induction records generalizing total with
    | nil =>
        cases ok
        simp
    | cons part records ih =>
        rw [List.foldlM_cons] at ok
        simp only [Bind.bind, Except.bind] at ok
        split at ok
        · cases ok
        · rename_i sum first
          rw [ih sum ok, added first, List.map_cons, List.sum_cons, Int.add_assoc]
  unfold estimateMessageBytes at estimated
  simp only [Bind.bindLeft, Bind.bind, Except.bind] at estimated
  split at estimated
  · cases estimated
  · rename_i total first
    rw [parts _ total bytes estimated, added first, Int.zero_add]
    rfl

theorem ingestPart_follows {phase : Phase} (pending : phase.charged = false) (accountId messageId total : Int)
    (part : MimePartRecord) :
    (ingestPart accountId messageId total part).Follows quotaProtocol
      (fun outcome q => q = .ingesting phase ∧
        ∀ value, outcome = .ok value → value = total + part.rawBytes.length) (.ingesting phase) := by
  unfold ingestPart
  simp only [bind_eq]
  refine follows_call_bind (Phase.allows_quiet pending (by simp [Quiet, Op.writes])) (fun _ => rfl) ?_
    (fun _ => ⟨rfl, nofun⟩)
  intro metadata size
  change metadata.sizeOctets = part.rawBytes.length at size
  refine follows_quiet_bind (Uses.ask (by simp [Quiet, Op.writes])) pending (fun _ => ?_) fun _ => ⟨rfl, nofun⟩
  refine follows_quiet_bind (Uses.ask (by simp [Quiet, Op.writes])) pending (fun _ => ?_) fun _ => ⟨rfl, nofun⟩
  refine ⟨rfl, fun value eq => ?_⟩
  cases eq
  rw [size]

theorem ingestParts_follows {phase : Phase} (pending : phase.charged = false) (accountId messageId : Int)
    (parts : List MimePartRecord) (total : Int) :
    (parts.foldlM (ingestPart accountId messageId) total).Follows quotaProtocol
      (fun outcome q => q = .ingesting phase ∧ ∀ value, outcome = .ok value →
        value = total + (parts.map fun part => (part.rawBytes.length : Int)).sum) (.ingesting phase) := by
  induction parts generalizing total with
  | nil =>
      refine ⟨rfl, fun value eq => ?_⟩
      cases eq
      simp
  | cons part parts ih =>
      rw [List.foldlM_cons, bind_eq]
      refine follows_bind ((ingestPart_follows pending accountId messageId total part).mono
        fun outcome q holds => ?_)
      obtain ⟨rfl, value⟩ := holds
      cases outcome with
      | error failure => exact ⟨rfl, nofun⟩
      | ok sum =>
          refine (ih sum).mono fun outcome q holds => ⟨holds.1, fun final eq => ?_⟩
          rw [holds.2 final eq, value sum rfl, List.map_cons, List.sum_cons, Int.add_assoc]

theorem recordRowMapping_quiet (row : Row MailboxMessage) : (Repository.recordRowMapping row).Uses Quiet := by
  unfold Repository.recordRowMapping
  split
  · exact (Uses.ask (by simp [Quiet, Op.writes])).bind fun uidvalidity => Uses.ask (by simp [Quiet, Op.writes])
  · trivial

theorem afterRecord_follows {target : Target} (raw : Bytes) {parsed : ParsedMessage} {metadata : ObjectMetadata}
    {message : Row Message} {phase : Phase} (pending : phase.charged = false)
    (account : phase.accountId = target.accountId) (bytes : phase.bytes = messageBytes raw parsed)
    (recorded : phase.message = some message.id) (fits : phase.Fits)
    (stored : metadata.sizeOctets = raw.length) :
    (afterRecord target parsed metadata message).Follows quotaProtocol
      (fun outcome => Ended (outcome.map .ingested)) (.ingesting phase) := by
  have failing {phase : Phase} (pending : phase.charged = false) (failure : Error) :
      Ended ((Except.error failure : Except Error IngestedMessage).map .ingested) (.ingesting phase) := by
    rintro _ ⟨⟩
    exact pending
  unfold afterRecord
  simp only [bind_eq]
  refine follows_quiet_bind (Uses.tell (by simp [Quiet, Op.writes])) pending (fun _ => ?_) (failing pending)
  refine follows_quiet_bind (Uses.onlyIf fun _ => Uses.ask (by simp [Quiet, Op.writes])) pending (fun _ => ?_)
    (failing pending)
  refine follows_bind ((ingestParts_follows pending target.accountId message.id parsed.mimeParts _).mono
    fun outcome q holds => ?_)
  obtain ⟨rfl, sum⟩ := holds
  cases outcome with
  | error failure => exact failing pending failure
  | ok accountedBytes =>
      have accounted : accountedBytes = phase.bytes := by
        rw [sum accountedBytes rfl, stored, bytes]
        rfl
      dsimp only
      unfold Repository.upsertMailboxMessage
      simp only [bind_eq, bind_assoc]
      refine follows_call_bind ⟨pending, recorded⟩ (fun _ => rfl) (fun inserted _ => ?_) (failing pending)
      obtain ⟨row, position⟩ := inserted
      have placing : ({ phase with placed := true } : Phase).charged = false := pending
      change Follows quotaProtocol _ (.ingesting { phase with placed := true }) _
      refine follows_quiet_bind (Uses.ask (by simp [Quiet, Op.writes])) placing (fun accountId => ?_)
        (failing placing)
      refine follows_quiet_bind (recordRowMapping_quiet row) placing (fun _ => ?_) (failing placing)
      refine follows_quiet_bind (Uses.tell (by simp [Quiet, Op.writes])) placing (fun _ => ?_) (failing placing)
      unfold accountMessage
      simp only [bind_eq, bind_assoc, pure_eq, ret_bind]
      refine follows_quiet_bind (Uses.ask (by simp [Quiet, Op.writes])) placing (fun _ => ?_) (failing placing)
      refine follows_quiet_bind (Uses.onlyIf fun _ => Uses.ask (by simp [Quiet, Op.writes])) placing (fun _ => ?_)
        (failing placing)
      refine follows_call_bind ⟨placing, account.symm, accounted, rfl, fits⟩ (fun _ => rfl) (fun _ _ => ?_)
        (failing placing)
      rintro _ ⟨⟩
      exact ⟨rfl, recorded⟩

theorem ingest_follows (lib : Libraries) (target : Target) (raw : Bytes) (parsed : ParsedMessage) :
    (MessageTask.code lib (.ingest target raw parsed)).Follows quotaProtocol Ended
      (begin (.ingest target raw parsed)) := by
  have failing {phase : Phase} (pending : phase.charged = false) (failure : Error) :
      Ended (.error failure) (.ingesting phase) := by
    rintro _ ⟨⟩
    exact pending
  change Follows quotaProtocol Ended _
    ((ingestParsedMessage lib target raw parsed).bind fun message => .ret (.ingested message))
  rw [ingestParsedMessage_eq]
  simp only [bind_assoc]
  refine follows_ofExcept_bind (fun incomingBytes estimated => ?_) fun failure _ => failing rfl failure
  have exact' := estimateMessageBytes_eq estimated
  unfold checkQuota
  simp only [bind_eq, bind_assoc]
  refine follows_call_bind ⟨rfl, rfl, rfl⟩ (fun _ => rfl) (fun quota _ => ?_) (failing rfl)
  have rest (fits : ∀ row, quota = some row → row.data.usedBytes + incomingBytes ≤ row.data.maxBytes) :
      ((await (.putObject (contentAddressedKey lib .rfc822 raw) raw)).bind fun metadata =>
        (await (.upsertMessage (recordedMessage target parsed metadata))).bind fun message =>
          (afterRecord target parsed metadata message).bind fun ingested =>
            .ret (.ingested ingested)).Follows quotaProtocol Ended
      (.ingesting ⟨target.accountId, messageBytes raw parsed, some quota, none, false, false⟩) := by
    refine follows_call_bind (Phase.allows_quiet rfl (by simp [Quiet, Op.writes])) (fun _ => rfl) ?_ (failing rfl)
    intro metadata stored
    refine follows_call_bind ⟨rfl, rfl⟩ (fun _ => rfl) (fun message _ => ?_) (failing rfl)
    refine follows_bind ((afterRecord_follows raw rfl rfl rfl rfl ?_ stored).mono fun outcome q ended => ?_)
    · exact ⟨quota, rfl, fun row eq => exact' ▸ fits row eq⟩
    · cases outcome with
      | ok message => exact ended
      | error failure => exact ended
  cases quota with
  | none =>
      refine rest fun row eq => ?_
      cases eq
  | some row =>
      dsimp only
      split
      · exact failing rfl _
      · split
        · exact failing rfl _
        · rename_i within
          refine rest fun row' eq => ?_
          cases eq
          exact not_lt.mp within

theorem delete_follows (lib : Libraries) (mailboxId localUid : Int) :
    (MessageTask.code lib (.delete mailboxId localUid)).Follows quotaProtocol Ended
      (begin (.delete mailboxId localUid)) := by
  have uses : (MessageTask.code lib (.delete mailboxId localUid)).Uses fun op : Op =>
      (∃ mailboxId localUid, op = .deleteMailboxMessage mailboxId localUid) ∨ Quiet op := by
    simp only [MessageTask.code, Repository.deleteMailboxMessage, bind_eq, bind_assoc]
    refine (Uses.ask (.inl ⟨_, _, rfl⟩)).bind fun deleted => ?_
    split
    · trivial
    · simp only [bind_assoc]
      refine (Uses.ask (.inr (by simp [Quiet, Op.writes]))).bind fun accountId => ?_
      refine (Uses.orThrow _ _).bind fun accountId => ?_
      refine (Uses.ask (.inr (by simp [Quiet, Op.writes]))).bind fun objects => ?_
      refine (Uses.forEach fun object _ => ?_).bind fun _ => ?_
      · exact (Uses.ask (.inr (by simp [Quiet, Op.writes]))).bind fun _ => trivial
      · exact (Uses.tell (.inr (by simp [Quiet, Op.writes]))).bind fun _ => trivial
  refine (uses.follows (fun op allowed => allowed) fun _ _ _ => rfl).mono fun outcome q same => ?_
  subst same
  rintro _ ⟨⟩

theorem code_follows (lib : Libraries) (task : MessageTask) :
    (task.code lib).Follows quotaProtocol Ended (begin task) := by
  cases task with
  | ingest target raw parsed => exact ingest_follows lib target raw parsed
  | delete mailboxId localUid => exact delete_follows lib mailboxId localUid

end ImapCache.Ingest
