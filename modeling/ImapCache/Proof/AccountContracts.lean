import ImapCache.Lib.Contracts
import ImapCache.Proof.Footprints

/-!
# What a session may touch

The commands of a session name the account of the session and the mailboxes and messages that they have
looked up in it. In a read-only mailbox they change no row that is there, except that a FETCH of raw bytes
marks it as seen.
-/

namespace ImapCache
open Lib Prog

/-! ## What an operation names -/

/-- The accounts that an operation names, in a row that it writes too. -/
def Op.accounts : Op → List Int
  | setMailAccountSyncStatus accountId _ | findAccountByIdAnyState accountId | findMailbox accountId _
  | listMailboxes accountId | renameMailbox accountId _ _ | setMailboxSubscribed accountId _ _
  | deleteMailbox accountId _ | loadSyncState accountId _ | findMimePartByMessageAndPath accountId _ _
  | findCacheObjectByAccountTypeAndBlobKey accountId _ _ | touchCacheObject accountId _
  | listMessageCacheObjects accountId _ | deleteCacheObjectForAccount accountId _ | getAccountQuota accountId
  | adjustAccountQuotaUsage accountId _ | listDuePendingMutations accountId => [accountId]
  | upsertMailbox input | createMailbox input => [input.accountId]
  | putSyncState input => [input.accountId]
  | upsertMessage input => [input.accountId]
  | upsertCacheObject input => input.accountId.toList
  | enqueueMutation input => [input.accountId]
  | publishEvent event => event.accountId.toList
  | createSession record => record.accountId.toList
  | recordAuditLog entry => entry.accountId.toList
  | _ => []

def Op.addresses : Op → List String
  | findAccountByEmailAddress emailAddress | findAccountByEmailAddressAnyState emailAddress => [emailAddress]
  | _ => []

/-- The upstream that a connection is opened to, with the credentials for it. -/
def Op.configs : Op → List UpstreamAccountConfig
  | connectUpstream _ config => [config]
  | _ => []

/-- The operation is about a user: its password, its accounts, and its records. -/
def Op.identifies : Op → Bool
  | findUserByUsername .. | listAccountsForUser .. | isBlocked .. | recordFailure .. | recordSuccess ..
  | recordAuditLog .. | createSession .. => true
  | _ => false

def Op.mailboxes : Op → List Int
  | updateMailboxSyncMetadata mailboxId _ | accountIdForMailbox mailboxId | mailboxUidvalidity mailboxId
  | listMailboxMessages mailboxId | listMailboxMessageViews mailboxId | refreshMailboxCounts mailboxId
  | setMailboxMessageUpstreamUid mailboxId _ _ | updateMailboxMessageFlags mailboxId _ _
  | deleteMailboxMessage mailboxId _ | upsertUidMapping mailboxId _ _ _ | messageUpstreamUid mailboxId _
  | mappedUpstreamUid mailboxId _ _ => [mailboxId]
  | insertMailboxMessage input => [input.mailboxId]
  | copyMailboxMessage source destination _ => [source, destination]
  | putSyncState input => input.mailboxId.toList
  | enqueueMutation input => [input.mailboxId]
  | _ => []

def Op.messages : Op → List Int
  | deleteMimePartsForMessage messageId => [messageId]
  | insertMimePart input => [input.messageId]
  | insertMailboxMessage input => [input.messageId]
  | _ => []

/-- The row that the operation changes is named by what it belongs to: not a queued mutation or a session, which
have a number only, nor a cache object of no account. -/
def Op.addressed : Op → Bool
  | updatePendingMutation .. | markSessionDisconnected .. => false
  | upsertCacheObject input => input.accountId.isSome
  | _ => true

/-- The flags of a message that a FETCH of raw bytes marks as seen. -/
def MarksSeen (flags : List String) : Prop :=
  ∃ before, RawFetch.hasSeen before = false ∧ flags = Commands.dedupeFlags (before ++ ["\\Seen"])

/-- The operation changes no row of a mailbox that is there: it inserts one under a new UID, or marks one as
seen. The rows of a mailbox that is deleted go with it. -/
def Op.Harmless : Op → Prop
  | deleteMailboxMessage .. | setMailboxMessageUpstreamUid .. => False
  | updateMailboxMessageFlags _ _ flags => MarksSeen flags
  | insertMailboxMessage input => input.localUid = 0
  | _ => True

/-! ## The contract of a session -/

/-- An account, its mailboxes and its messages, its address, and the rows of accounts with that address. -/
structure Holdings where
  lib : Libraries
  account : Int
  mailbox : Int → Prop
  message : Int → Prop
  address : String → Prop
  namesake : MailAccount → Prop

structure Op.Within (op : Op) (holdings : Holdings) : Prop where
  addressed : op.addressed = true
  accounts : ∀ accountId ∈ op.accounts, accountId = holdings.account
  mailboxes : ∀ mailboxId ∈ op.mailboxes, holdings.mailbox mailboxId
  messages : ∀ messageId ∈ op.messages, holdings.message messageId
  addresses : ∀ address ∈ op.addresses, holdings.address address
  configs : ∀ config ∈ op.configs, ∃ account, holdings.namesake account ∧
    upstreamAccountConfigFromAccount holdings.lib account = .ok config
  unidentified : op.identifies = false

/-- A session touches what its account holds, and nothing else may be what it finds there. -/
def sessionContract (holdings : Holdings) (readOnly : Bool) : Contract cacheSignature where
  permits op := op.Within holdings ∧ (readOnly = true → op.Harmless)
  expects op value := match op, value with
    | .findAccountByIdAnyState .., found => ∀ account ∈ found, holdings.address account.data.emailAddress
    | .findAccountByEmailAddressAnyState .., found => ∀ account ∈ found, holdings.namesake account.data
    | .findMailbox .., found => ∀ mailbox ∈ found, holdings.mailbox mailbox.id
    | .accountIdForMailbox .., found => ∀ accountId ∈ found, accountId = holdings.account
    | .createMailbox .., created => ∀ mailbox ∈ created, mailbox.data.accountId = holdings.account
    | .renameMailbox .., renamed => ∀ mailbox ∈ renamed, mailbox.data.accountId = holdings.account
    | .setMailboxSubscribed .., updated => ∀ mailbox ∈ updated, mailbox.data.accountId = holdings.account
    | .upsertMessage .., message => message.data.accountId = holdings.account ∧ holdings.message message.id
    | .enqueueMutation .., mutation => mutation.data.accountId = holdings.account
    | .insertMailboxMessage .., inserted => holdings.mailbox inserted.1.data.mailboxId
    | .updateMailboxMessageFlags .., updated => ∀ found ∈ updated, holdings.mailbox found.1.data.mailboxId
    | _, _ => True

variable {holdings : Holdings} {readOnly : Bool}

/-- The program touches only what its account holds, and returns what satisfies `post`. -/
def Licensed {α : Type} (holdings : Holdings) (readOnly : Bool) (post : α → Prop) (p : Action α) : Prop :=
  p.Honours (sessionContract holdings readOnly) post

theorem addressed_of_names {op : Op} (names : op.accounts ≠ [] ∨ op.mailboxes ≠ [] ∨ op.messages ≠ []) :
    op.addressed = true := by
  cases op with
  | updatePendingMutation | markSessionDisconnected => simp [Op.accounts, Op.mailboxes, Op.messages] at names
  | upsertCacheObject input =>
      change input.accountId.isSome = true
      cases is : input.accountId with
      | none => simp [Op.accounts, Op.mailboxes, Op.messages, is] at names
      | some accountId => rfl
  | _ => rfl

/-- The operation is about no user, looks up no address and reaches no upstream. -/
def Op.inward : Op → Bool
  | connectUpstream .. | findAccountByEmailAddress .. | findAccountByEmailAddressAnyState .. => false
  | op => !op.identifies

theorem Op.inward_spec {op : Op} (inward : op.inward = true) :
    op.addresses = [] ∧ op.configs = [] ∧ op.identifies = false := by
  cases op with
  | connectUpstream | findAccountByEmailAddress | findAccountByEmailAddressAnyState => cases inward
  | findUserByUsername | listAccountsForUser | isBlocked | recordFailure | recordSuccess | recordAuditLog
  | createSession => cases inward
  | _ => exact ⟨rfl, rfl, rfl⟩

section Permitted
variable {op : Op} (inward : op.inward = true)
include inward

theorem within_of_names (addressed : op.addressed = true)
    (accounts : ∀ accountId ∈ op.accounts, accountId = holdings.account)
    (mailboxes : ∀ mailboxId ∈ op.mailboxes, holdings.mailbox mailboxId)
    (messages : ∀ messageId ∈ op.messages, holdings.message messageId) : op.Within holdings := by
  obtain ⟨addresses, configs, unidentified⟩ := Op.inward_spec inward
  refine ⟨addressed, accounts, mailboxes, messages, ?_, ?_, unidentified⟩
  · simp [addresses]
  · simp [configs]

theorem permits_free (addressed : op.addressed = true) (accounts : op.accounts = [])
    (mailboxes : op.mailboxes = []) (messages : op.messages = []) (harmless : op.Harmless) :
    (sessionContract holdings readOnly).permits op := by
  refine ⟨within_of_names inward addressed ?_ ?_ ?_, fun _ => harmless⟩
  · simp [accounts]
  · simp [mailboxes]
  · simp [messages]

theorem permits_account (accounts : op.accounts = [holdings.account]) (mailboxes : op.mailboxes = [])
    (messages : op.messages = []) (harmless : op.Harmless) :
    (sessionContract holdings readOnly).permits op := by
  refine ⟨within_of_names inward (addressed_of_names ?_) ?_ ?_ ?_, fun _ => harmless⟩
  · simp [accounts]
  · simp [accounts]
  · simp [mailboxes]
  · simp [messages]

theorem permits_mailbox {mailboxId : Int} (own : holdings.mailbox mailboxId)
    (accounts : op.accounts = []) (mailboxes : op.mailboxes = [mailboxId]) (messages : op.messages = [])
    (harmless : readOnly = true → op.Harmless) : (sessionContract holdings readOnly).permits op := by
  refine ⟨within_of_names inward (addressed_of_names ?_) ?_ ?_ ?_, harmless⟩
  · simp [mailboxes]
  · simp [accounts]
  · simpa [mailboxes] using own
  · simp [messages]

theorem permits_message {messageId : Int} (own : holdings.message messageId)
    (accounts : op.accounts = []) (mailboxes : op.mailboxes = []) (messages : op.messages = [messageId])
    (harmless : op.Harmless) : (sessionContract holdings readOnly).permits op := by
  refine ⟨within_of_names inward (addressed_of_names ?_) ?_ ?_ ?_, fun _ => harmless⟩
  · simp [messages]
  · simp [accounts]
  · simp [mailboxes]
  · simpa [messages] using own

end Permitted

theorem licensed_panic {α : Type} (value : Except Panic α) :
    Licensed holdings readOnly (fun _ => True) (orPanic value) :=
  (RawFetch.orPanic_uses value fun _ => permits_free rfl rfl rfl rfl rfl trivial).honours

theorem await_licensed {op : Op} (permitted : (sessionContract holdings readOnly).permits op) :
    Licensed holdings readOnly (fun _ => True) (await op) :=
  (honours_ask permitted).mono fun _ _ => trivial

theorem asks_account {α : Type} {f : Option Int → Action α} {post : α → Prop} {mailboxId : Int}
    (own : holdings.mailbox mailboxId)
    (rest : ∀ found : Option Int, (∀ accountId ∈ found, accountId = holdings.account) →
      Licensed holdings readOnly post (f found)) :
    Licensed holdings readOnly post ((await (.accountIdForMailbox mailboxId)).bind f) :=
  honours_ask_bind (permits_mailbox rfl own rfl rfl rfl fun _ => trivial) rest

/-! ## The repository -/

namespace Repository

theorem publishEvent_licensed {event : MutationEvent}
    (own : ∀ accountId ∈ event.accountId, accountId = holdings.account) :
    Licensed holdings readOnly (fun _ => True) (publishEvent event) := by
  refine honours_tell ⟨within_of_names rfl rfl ?_ ?_ ?_, fun _ => trivial⟩
  · intro accountId member
    exact own accountId (Option.mem_toList.mp member)
  · simp [Op.mailboxes]
  · simp [Op.messages]

theorem announces_licensed {found : Option (Row Mailbox)} (detail : String)
    (own : ∀ mailbox ∈ found, mailbox.data.accountId = holdings.account) :
    Licensed holdings readOnly (fun _ => True) (forEach found.toList fun mailbox =>
      publishEvent (.mailboxChanged (some mailbox.data.accountId) (some mailbox.id) detail)) := by
  refine honours_forEach fun mailbox member => publishEvent_licensed ?_
  rintro _ ⟨⟩
  exact own mailbox (Option.mem_toList.mp member)

theorem createMailbox_licensed {input : Mailbox} (own : input.accountId = holdings.account) :
    Licensed holdings readOnly (fun _ => True) (createMailbox input) := by
  have permitted : (sessionContract holdings readOnly).permits (.createMailbox input) :=
    @permits_account holdings readOnly (.createMailbox input) rfl (congrArg (fun id => [id]) own) rfl rfl trivial
  refine honours_ask_bind permitted fun created own => ?_
  exact (announces_licensed _ own).bind fun _ _ => trivial

theorem renameMailbox_licensed (mailboxName newName : String) :
    Licensed holdings readOnly (fun _ => True) (renameMailbox holdings.account mailboxName newName) := by
  refine honours_ask_bind (permits_account rfl rfl rfl rfl trivial) fun taken _ => ?_
  split
  · trivial
  · refine honours_ask_bind (permits_account rfl rfl rfl rfl trivial) fun renamed own => ?_
    exact (announces_licensed _ own).bind fun _ _ => trivial

theorem setMailboxSubscribed_licensed (mailboxName : String) (subscribed : Bool) :
    Licensed holdings readOnly (fun _ => True)
      (setMailboxSubscribed holdings.account mailboxName subscribed) := by
  refine honours_ask_bind (permits_account rfl rfl rfl rfl trivial) fun updated own => ?_
  exact (announces_licensed _ own).bind fun _ _ => trivial

theorem deleteMailbox_licensed (mailboxName : String) :
    Licensed holdings readOnly (fun _ => True) (deleteMailbox holdings.account mailboxName) := by
  refine honours_ask_bind (permits_account rfl rfl rfl rfl trivial) fun rowsAffected _ => ?_
  refine honours_bind (honours_onlyIf fun _ => publishEvent_licensed ?_) fun _ => trivial
  rintro _ ⟨⟩
  rfl

theorem refreshMailboxCounts_licensed {mailboxId : Int} (own : holdings.mailbox mailboxId) :
    Licensed holdings readOnly (fun _ => True) (refreshMailboxCounts mailboxId) := by
  refine honours_ask_bind (permits_mailbox rfl own rfl rfl rfl fun _ => trivial) fun _ _ => ?_
  refine asks_account own fun accountId is => ?_
  exact publishEvent_licensed is

theorem upsertMessage_licensed {input : Message} (own : input.accountId = holdings.account) :
    Licensed holdings readOnly (fun row => holdings.message row.id) (upsertMessage input) := by
  have permitted : (sessionContract holdings readOnly).permits (.upsertMessage input) :=
    @permits_account holdings readOnly (.upsertMessage input) rfl (congrArg (fun id => [id]) own) rfl rfl trivial
  refine honours_ask_bind permitted fun row recorded => ?_
  refine (publishEvent_licensed ?_).bind fun _ _ => recorded.2
  rintro _ ⟨⟩
  exact recorded.1

theorem recordRowMapping_licensed {row : Row MailboxMessage} (own : holdings.mailbox row.data.mailboxId) :
    Licensed holdings readOnly (fun _ => True) (recordRowMapping row) := by
  unfold recordRowMapping
  split
  · refine honours_ask_bind (permits_mailbox rfl own rfl rfl rfl fun _ => trivial) fun uidvalidity _ => ?_
    exact await_licensed (permits_mailbox rfl own rfl rfl rfl fun _ => trivial)
  · trivial

theorem upsertMailboxMessage_licensed {input : MailboxMessage} (own : holdings.mailbox input.mailboxId)
    (message : holdings.message input.messageId) (new : input.localUid = 0) :
    Licensed holdings readOnly (fun _ => True) (upsertMailboxMessage input) := by
  have permitted : (sessionContract holdings readOnly).permits (.insertMailboxMessage input) := by
    refine ⟨within_of_names rfl rfl ?_ ?_ ?_, fun _ => new⟩
    · simp [Op.accounts]
    · simpa [Op.mailboxes] using own
    · simpa [Op.messages] using message
  refine honours_ask_bind permitted fun inserted here => ?_
  refine asks_account here fun accountId is => ?_
  refine (recordRowMapping_licensed here).bind fun _ _ => ?_
  exact (publishEvent_licensed is).bind fun _ _ => trivial

theorem updateMailboxMessageFlags_licensed {mailboxId localUid : Int} {flags : List String}
    (own : holdings.mailbox mailboxId) (marks : readOnly = true → MarksSeen flags) :
    Licensed holdings readOnly (fun _ => True) (updateMailboxMessageFlags mailboxId localUid flags) := by
  refine honours_ask_bind (permits_mailbox rfl own rfl rfl rfl marks) fun updated here => ?_
  cases updated with
  | none => trivial
  | some found =>
      refine asks_account (here found rfl) fun accountId is => ?_
      exact (publishEvent_licensed is).bind fun _ _ => trivial

theorem upsertCacheObject_licensed {input : CacheObject} (own : input.accountId = some holdings.account) :
    Licensed holdings readOnly (fun _ => True) (await (.upsertCacheObject input)) := by
  have accounts : Op.accounts (.upsertCacheObject input) = [holdings.account] := by
    change input.accountId.toList = _
    rw [own]
    rfl
  exact await_licensed (permits_account rfl accounts rfl rfl trivial)

theorem copyMailboxMessage_licensed {source destination : Int} (localUid : Int)
    (here : holdings.mailbox source) (there : holdings.mailbox destination) :
    Licensed holdings readOnly (fun _ => True) (copyMailboxMessage source destination localUid) := by
  have permitted : (sessionContract holdings readOnly).permits (.copyMailboxMessage source destination localUid) := by
    refine ⟨within_of_names rfl rfl ?_ ?_ ?_, fun _ => trivial⟩
    · simp [Op.accounts]
    · simpa [Op.mailboxes] using ⟨here, there⟩
    · simp [Op.messages]
  refine honours_ask_bind permitted fun copied _ => ?_
  cases copied with
  | none => trivial
  | some copied =>
      refine asks_account there fun found is => ?_
      refine (honours_orThrow found _).bind fun accountId some => ?_
      obtain rfl := is accountId some
      refine honours_ask_bind (permits_account rfl rfl rfl rfl trivial) fun objects _ => ?_
      refine honours_bind (honours_forEach fun object _ => upsertCacheObject_licensed rfl) fun _ => ?_
      refine honours_bind (publishEvent_licensed ?_) fun _ => trivial
      rintro _ ⟨⟩
      rfl

theorem deleteMailboxMessage_licensed {mailboxId localUid : Int} (own : holdings.mailbox mailboxId)
    (writable : readOnly = false) :
    Licensed holdings readOnly (fun _ => True) (deleteMailboxMessage mailboxId localUid) := by
  have permitted : (sessionContract holdings readOnly).permits (.deleteMailboxMessage mailboxId localUid) :=
    permits_mailbox rfl own rfl rfl rfl fun is => by rw [writable] at is; cases is
  refine honours_ask_bind permitted fun deleted _ => ?_
  cases deleted with
  | none => trivial
  | some deleted =>
      refine asks_account own fun found is => ?_
      refine (honours_orThrow found _).bind fun accountId some => ?_
      obtain rfl := is accountId some
      refine honours_ask_bind (permits_account rfl rfl rfl rfl trivial) fun objects _ => ?_
      refine honours_bind (honours_forEach fun object _ => ?_) fun _ => ?_
      · exact honours_ask_bind (permits_account rfl rfl rfl rfl trivial) fun _ _ => trivial
      · refine honours_bind (publishEvent_licensed ?_) fun _ => trivial
        rintro _ ⟨⟩
        rfl

theorem enqueueMutation_licensed {input : PendingMutation} (account : input.accountId = holdings.account)
    (own : holdings.mailbox input.mailboxId) :
    Licensed holdings readOnly (fun _ => True) (enqueueMutation input) := by
  have permitted : (sessionContract holdings readOnly).permits (.enqueueMutation input) := by
    refine ⟨within_of_names rfl rfl ?_ ?_ ?_, fun _ => trivial⟩
    · simpa [Op.accounts] using account
    · simpa [Op.mailboxes] using own
    · simp [Op.messages]
  refine honours_ask_bind permitted fun row is => ?_
  refine (publishEvent_licensed ?_).bind fun _ _ => trivial
  rintro _ ⟨⟩
  exact is

end Repository
end ImapCache
