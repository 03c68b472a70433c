import ImapCache.Model.Searching
import ImapCache.Proof.AccountContracts

/-!
# Commands within an account

The commands on messages, the loading of raw bytes and the searches touch only what the account of their
session holds. A command that removes a message or replaces its flags asks for a writable mailbox first.
-/

namespace ImapCache
open Lib Prog

variable {holdings : Holdings} {readOnly : Bool}

/-! ## Ingestion -/

namespace Ingest

theorem checkQuota_licensed (incomingBytes : Int) :
    Licensed holdings readOnly (fun _ => True) (checkQuota holdings.account incomingBytes) := by
  refine honours_ask_bind (permits_account rfl rfl rfl rfl trivial) fun quota _ => ?_
  split
  · trivial
  · split
    · trivial
    · split <;> trivial

theorem ingestPart_licensed {messageId : Int} (own : holdings.message messageId) (accountedBytes : Int)
    (part : MimePartRecord) :
    Licensed holdings readOnly (fun _ => True) (ingestPart holdings.account messageId accountedBytes part) := by
  refine honours_ask_bind (permits_free rfl rfl rfl rfl rfl trivial) fun metadata _ => ?_
  refine honours_ask_bind (permits_message rfl own rfl rfl rfl trivial) fun _ _ => ?_
  exact (Repository.upsertCacheObject_licensed rfl).bind fun _ _ => trivial

variable {target : Target} (own : target.accountId = holdings.account)
include own

theorem recordMessage_licensed (lib : Libraries) (raw : Bytes) (parsed : ParsedMessage) :
    Licensed holdings readOnly (fun recorded => holdings.message recorded.2.1.id)
      (recordMessage lib target raw parsed) := by
  refine honours_ask_bind (permits_free rfl rfl rfl rfl rfl trivial) fun metadata _ => ?_
  refine (Repository.upsertMessage_licensed own).bind fun message here => ?_
  refine honours_bind (honours_onlyIf fun _ => ?_) fun _ => ?_
  · exact await_licensed (permits_message rfl here rfl rfl rfl trivial)
  · refine honours_bind (honours_rounds fun bytes part _ => ?_) fun _ => here
    rw [own]
    exact ingestPart_licensed here bytes part

theorem accountMessage_licensed (parsed : ParsedMessage) (metadata : ObjectMetadata) (accountedBytes : Int) :
    Licensed holdings readOnly (fun _ => True) (accountMessage target parsed metadata accountedBytes) := by
  unfold accountMessage
  rw [own]
  refine (Repository.upsertCacheObject_licensed rfl).bind fun _ _ => ?_
  refine honours_bind (honours_onlyIf fun _ => ?_) fun _ => ?_
  · exact await_licensed (permits_free rfl rfl rfl rfl rfl trivial)
  · exact await_licensed (permits_account rfl rfl rfl rfl trivial)

theorem ingestRawMessage_licensed (mailbox : holdings.mailbox target.mailboxId) (new : target.localUid = 0)
    (lib : Libraries) (raw : Bytes) :
    Licensed holdings readOnly (fun _ => True) (ingestRawMessage lib target raw) := by
  refine (honours_ofExcept _).bind fun parsed _ => ?_
  refine (honours_ofExcept _).bind fun incomingBytes _ => ?_
  refine honours_bind ?_ fun _ => ?_
  · rw [own]
    exact checkQuota_licensed incomingBytes
  · refine (recordMessage_licensed own lib raw parsed).bind fun recorded here => ?_
    refine (Repository.upsertMailboxMessage_licensed mailbox here new).bind fun row _ => ?_
    exact (accountMessage_licensed own parsed _ _).bind fun _ _ => trivial

end Ingest

/-! ## Commands on messages -/

namespace Commands
open Repository

variable {context : Context}

theorem numberSet_licensed (set : String) (maxValue : Int) :
    Licensed holdings readOnly (fun _ => True) (numberSet set maxValue) :=
  (numberSet_panics set maxValue fun _ => permits_free rfl rfl rfl rfl rfl trivial).honours

theorem resolveSequenceTargets_licensed {mailboxId : Int} (own : holdings.mailbox mailboxId) (set : String) :
    Licensed holdings readOnly (fun _ => True) (resolveSequenceTargets mailboxId set) := by
  refine honours_ask_bind (permits_mailbox rfl own rfl rfl rfl fun _ => trivial) fun messages _ => ?_
  exact (numberSet_licensed set _).bind fun _ _ => trivial

theorem resolveUidTargets_licensed {mailboxId : Int} (own : holdings.mailbox mailboxId) (set : String) :
    Licensed holdings readOnly (fun _ => True) (resolveUidTargets mailboxId set) := by
  refine honours_ask_bind (permits_mailbox rfl own rfl rfl rfl fun _ => trivial) fun messages _ => ?_
  exact (numberSet_licensed set _).bind fun _ _ => trivial

theorem finds_mailbox {α : Type} {f : Option (Row Mailbox) → Action α} {post : α → Prop} (name : String)
    (none : Licensed holdings readOnly post (f none))
    (some : ∀ mailbox : Row Mailbox, holdings.mailbox mailbox.id →
      Licensed holdings readOnly post (f (some mailbox))) :
    Licensed holdings readOnly post ((await (.findMailbox holdings.account name)).bind f) := by
  refine honours_ask_bind (permits_account rfl rfl rfl rfl trivial) fun found own => ?_
  cases found with
  | none => exact none
  | some mailbox => exact some mailbox (own mailbox rfl)

/-! ### APPEND, COPY and MOVE -/

section Account
variable (account : context.session.accountId = some holdings.account)

theorem appendMessage_licensed {mailbox : Row Mailbox} (own : holdings.mailbox mailbox.id) (mailboxName : String)
    (flags : List String) (internalDate : Option Int) (raw : Bytes) :
    Licensed holdings readOnly (fun _ => True)
      (appendMessage context holdings.account mailbox mailboxName flags internalDate raw) := by
  refine (Ingest.ingestRawMessage_licensed rfl own rfl _ _).bind fun ingested _ => ?_
  refine (refreshMailboxCounts_licensed own).bind fun _ _ => ?_
  refine honours_bind (honours_onlyIf fun _ => honours_bind ?_ fun _ => trivial) fun _ => trivial
  refine honours_ask_bind (permits_free rfl rfl rfl rfl rfl trivial) fun metadata _ => ?_
  exact enqueueMutation_licensed rfl own

include account in
theorem append_licensed (args : List String) (literal : Option Bytes) :
    Licensed holdings readOnly (fun _ => True) (append context args literal) := by
  unfold append
  rw [account]
  dsimp only
  split
  · refine finds_mailbox _ trivial fun mailbox own => ?_
    dsimp only
    split
    · trivial
    · split
      · exact appendMessage_licensed own ..
      · trivial
  · trivial

theorem queueTransferred_licensed (move : Bool) {source destination : Row Mailbox}
    (own : holdings.mailbox source.id) (message copiedMessage : Row MailboxMessage) :
    Licensed holdings readOnly (fun _ => True)
      (queueTransferred context move holdings.account source destination message copiedMessage) := by
  refine honours_bind ?_ fun _ => trivial
  cases move with
  | true => exact enqueueMutation_licensed rfl own
  | false => exact enqueueMutation_licensed rfl own

theorem transferMessages_licensed (name : String) (move : Bool) {source destination : Row Mailbox}
    (here : holdings.mailbox source.id) (there : holdings.mailbox destination.id)
    (targets : List (Option Nat × Row MailboxMessage)) (writable : move = true → readOnly = false) :
    Licensed holdings readOnly (fun _ => True)
      (transferMessages context name move holdings.account source destination targets) := by
  refine honours_bind (honours_rounds fun progress target _ => ?_) fun done => ?_
  · refine (copyMailboxMessage_licensed _ here there).bind fun copied _ => ?_
    refine honours_bind (honours_forEach fun copied _ => honours_onlyIf fun _ => ?_) fun _ => ?_
    · exact queueTransferred_licensed move here ..
    · dsimp only
      split
      · rename_i moves
        exact (deleteMailboxMessage_licensed here (writable moves)).bind fun _ _ => trivial
      · trivial
  · refine (refreshMailboxCounts_licensed here).bind fun _ _ => ?_
    exact (refreshMailboxCounts_licensed there).bind fun _ _ => trivial

variable (mode : readOnly = context.session.isReadOnly)

include account mode in
theorem transfer_licensed (move : Bool) (args : List String) :
    Licensed holdings readOnly (fun _ => True) (transfer context move args) := by
  unfold transfer
  rw [account]
  dsimp only
  split
  · refine finds_mailbox _ trivial fun source here => ?_
    dsimp only
    split
    · split
      · refine finds_mailbox _ trivial fun destination there => ?_
        dsimp only
        split
        · trivial
        · rename_i writable
          refine (resolveSequenceTargets_licensed here _).bind fun targets _ => ?_
          exact transferMessages_licensed _ _ here there _ fun moves => by simpa [moves, mode] using writable
      · trivial
    · trivial
  · trivial

include account in
theorem withUidMailbox_licensed {body : Int → Row Mailbox → Action Reply}
    (licensed : ∀ mailbox : Row Mailbox, holdings.mailbox mailbox.id →
      Licensed holdings readOnly (fun _ => True) (body holdings.account mailbox)) :
    Licensed holdings readOnly (fun _ => True) (withUidMailbox context body) := by
  unfold withUidMailbox
  rw [account]
  dsimp only
  split
  · exact finds_mailbox _ trivial licensed
  · trivial

include account mode in
theorem uidTransfer_licensed (move : Bool) (args : List String) :
    Licensed holdings readOnly (fun _ => True) (uidTransfer context move args) := by
  refine withUidMailbox_licensed account fun source here => ?_
  dsimp only
  split
  · trivial
  · rename_i writable
    split
    · split
      · refine finds_mailbox _ trivial fun destination there => ?_
        refine (resolveUidTargets_licensed here _).bind fun targets _ => ?_
        exact transferMessages_licensed _ _ here there _ fun moves => by simpa [moves, mode] using writable
      · trivial
    · trivial

/-! ### EXPUNGE and CLOSE -/

theorem expungeTargets_licensed (writable : readOnly = false) {mailboxId : Int} (own : holdings.mailbox mailboxId)
    (targets : List (Nat × Row MailboxMessage)) :
    Licensed holdings readOnly (fun _ => True) (expungeTargets mailboxId targets) :=
  honours_rounds fun _ _ _ => (deleteMailboxMessage_licensed own writable).bind fun _ _ => trivial

include account mode in
theorem expunge_licensed (args : List String) :
    Licensed holdings readOnly (fun _ => True) (expunge context args) := by
  unfold expunge
  rw [account]
  dsimp only
  split
  · refine finds_mailbox _ trivial fun mailbox own => ?_
    dsimp only
    split
    · trivial
    · rename_i writable
      have writable : readOnly = false := by simpa [mode] using writable
      refine honours_bind ?_ fun targets => ?_
      · unfold expungeSet
        split
        · exact resolveSequenceTargets_licensed own _
        · exact honours_ask_bind (permits_mailbox rfl own rfl rfl rfl fun _ => trivial) fun _ _ => trivial
      · refine (expungeTargets_licensed writable own _).bind fun lines _ => ?_
        exact (refreshMailboxCounts_licensed own).bind fun _ _ => trivial
  · trivial

include account mode in
theorem uidExpunge_licensed (args : List String) :
    Licensed holdings readOnly (fun _ => True) (uidExpunge context args) := by
  refine withUidMailbox_licensed account fun mailbox own => ?_
  split
  · trivial
  · rename_i writable
    have writable : readOnly = false := by simpa [mode] using writable
    split
    · refine honours_ask_bind (permits_mailbox rfl own rfl rfl rfl fun _ => trivial) fun messages _ => ?_
      refine (numberSet_licensed _ _).bind fun uids _ => ?_
      refine (expungeTargets_licensed writable own _).bind fun lines _ => ?_
      exact (refreshMailboxCounts_licensed own).bind fun _ _ => trivial
    · trivial

theorem close_licensed (mode : readOnly = context.session.isReadOnly)
    (own : ∀ mailboxId ∈ context.session.snapshotMailboxId, holdings.mailbox mailboxId) :
    Licensed holdings readOnly (fun _ => True) (close context) := by
  unfold close
  split
  · refine honours_bind (honours_forEach fun mailboxId member => ?_) fun _ => trivial
    obtain ⟨snapshot, open'⟩ := Option.filter_eq_some_iff.mp (Option.mem_toList.mp member)
    simp only [Bool.and_eq_true, Bool.not_eq_true'] at open'
    have own := own mailboxId snapshot
    refine honours_ask_bind (permits_mailbox rfl own rfl rfl rfl fun _ => trivial) fun messages _ => ?_
    refine honours_bind (honours_forEach fun _ _ => ?_) fun _ => refreshMailboxCounts_licensed own
    exact (deleteMailboxMessage_licensed own (mode.trans open'.2)).bind fun _ _ => trivial
  · trivial

/-! ### STORE -/

theorem queueFlags_licensed {mailboxId : Int} (own : holdings.mailbox mailboxId) (localUid : Int)
    (flags : List String) :
    Licensed holdings readOnly (fun _ => True) (queueFlags context holdings.account mailboxId localUid flags) :=
  honours_onlyIf fun _ => (enqueueMutation_licensed rfl own).bind fun _ _ => trivial

theorem storesFlags_licensed (writable : readOnly = false) {mailboxId : Int} (own : holdings.mailbox mailboxId)
    (localUid : Int) (flags : List String) :
    Licensed holdings readOnly (fun _ => True) (updateMailboxMessageFlags mailboxId localUid flags) :=
  updateMailboxMessageFlags_licensed own fun is => by rw [writable] at is; cases is

include account mode in
theorem store_licensed (args : List String) : Licensed holdings readOnly (fun _ => True) (store context args) := by
  unfold store
  rw [account]
  dsimp only
  split
  · refine finds_mailbox _ trivial fun mailbox own => ?_
    dsimp only
    split
    · trivial
    · rename_i writable
      have writable : readOnly = false := by simpa [mode] using writable
      refine (honours_ofExcept _).bind fun request _ => ?_
      refine (resolveSequenceTargets_licensed own _).bind fun targets _ => ?_
      refine honours_bind (honours_rounds fun lines target _ => ?_) fun lines => ?_
      · refine (storesFlags_licensed writable own _ _).bind fun _ _ => ?_
        exact (queueFlags_licensed own _ _).bind fun _ _ => trivial
      · exact (refreshMailboxCounts_licensed own).bind fun _ _ => trivial
  · trivial

include account mode in
theorem uidStore_licensed (args : List String) :
    Licensed holdings readOnly (fun _ => True) (uidStore context args) := by
  refine withUidMailbox_licensed account fun mailbox own => ?_
  split
  · trivial
  · rename_i writable
    have writable : readOnly = false := by simpa [mode] using writable
    refine (honours_ofExcept _).bind fun request _ => ?_
    refine (resolveUidTargets_licensed own _).bind fun targets _ => ?_
    refine honours_bind (honours_rounds fun lines message _ => ?_) fun lines => ?_
    · refine (storesFlags_licensed writable own _ _).bind fun _ _ => ?_
      split
      · trivial
      · refine honours_bind ?_ fun _ => trivial
        exact honours_ask_bind (permits_mailbox rfl own rfl rfl rfl fun _ => trivial) fun _ _ => trivial
    · refine (refreshMailboxCounts_licensed own).bind fun _ _ => ?_
      exact honours_bind (honours_forEach fun _ _ => queueFlags_licensed own _ _) fun _ => trivial

end Account
end Commands

/-! ## Raw bytes -/

namespace RawFetch
open Commands Repository

theorem orLoad_licensed (stored : Option Bytes) {fallback : Action (Option Bytes)}
    (licensed : Licensed holdings readOnly (fun _ => True) fallback) :
    Licensed holdings readOnly (fun _ => True) (orLoad stored fallback) := by
  unfold orLoad
  split
  · trivial
  · exact licensed

theorem upstreamAccountConfig_licensed {lib : Libraries} {emailAddress : String} (own : holdings.address emailAddress) :
    Licensed holdings readOnly (fun found => ∀ config ∈ found, ∃ account, holdings.namesake account ∧
      upstreamAccountConfigFromAccount lib account = .ok config) (upstreamAccountConfig lib emailAddress) := by
  have permitted : (sessionContract holdings readOnly).permits (.findAccountByEmailAddressAnyState emailAddress) := by
    refine ⟨⟨rfl, ?_, ?_, ?_, ?_, ?_, rfl⟩, fun _ => trivial⟩
    · simp [Op.accounts]
    · simp [Op.mailboxes]
    · simp [Op.messages]
    · simpa [Op.addresses] using own
    · simp [Op.configs]
  refine honours_ask_bind permitted fun found namesake => ?_
  cases found with
  | none => exact fun config absent => by cases absent
  | some account =>
      refine (honours_ofExcept _).bind fun config configures => ?_
      rintro _ ⟨⟩
      exact ⟨account.data, namesake account rfl, configures⟩

section Loading
variable {source : Source} (own : source.accountId = holdings.account) (lib : source.lib = holdings.lib)

section Owning
include own

theorem touches_own (key : String) :
    (sessionContract holdings readOnly).permits (.touchCacheObject source.accountId key) :=
  permits_account rfl (congrArg (fun id => [id]) own) rfl rfl trivial

theorem recordObject_licensed (objectType : String) (metadata : ObjectMetadata) :
    Licensed holdings readOnly (fun _ => True) (recordObject source.accountId objectType metadata) := by
  unfold recordObject
  rw [own]
  refine honours_ask_bind (permits_account rfl rfl rfl rfl trivial) fun known _ => ?_
  split
  · exact upsertCacheObject_licensed rfl
  · exact honours_ask_bind (permits_account rfl rfl rfl rfl trivial) fun _ _ => trivial

theorem loadRange_licensed (key : String) (offset : Nat) (count : Option Nat) :
    Licensed holdings readOnly (fun _ => True) (loadRange source key offset count) := by
  refine honours_ask_bind (permits_free rfl rfl rfl rfl rfl trivial) fun bytes _ => ?_
  refine honours_bind (honours_onlyIf fun _ => ?_) fun _ => trivial
  exact honours_tell (touches_own own key)

end Owning

include own lib

theorem rehydrateMissingRawBlob_licensed :
    Licensed holdings readOnly (fun _ => True) (rehydrateMissingRawBlob source) := by
  unfold rehydrateMissingRawBlob
  split
  · have permitted : (sessionContract holdings readOnly).permits (.findAccountByIdAnyState source.accountId) :=
      permits_account rfl (congrArg (fun id => [id]) own) rfl rfl trivial
    refine honours_ask_bind permitted fun account addressed => ?_
    split
    · rename_i account
      refine (upstreamAccountConfig_licensed (addressed account rfl)).bind fun config configures => ?_
      split
      · rename_i config
        have reaches : (sessionContract holdings readOnly).permits (.connectUpstream source.connection config) := by
          refine ⟨⟨rfl, ?_, ?_, ?_, ?_, ?_, rfl⟩, fun _ => trivial⟩
          · simp [Op.accounts]
          · simp [Op.mailboxes]
          · simp [Op.messages]
          · simp [Op.addresses]
          · simpa [Op.configs, ← lib] using configures config rfl
        refine honours_ask_bind reaches fun _ _ => ?_
        refine honours_ask_bind (permits_free rfl rfl rfl rfl rfl trivial) fun _ _ => ?_
        refine honours_ask_bind (permits_free rfl rfl rfl rfl rfl trivial) fun raw _ => ?_
        refine honours_ask_bind (permits_free rfl rfl rfl rfl rfl trivial) fun metadata _ => ?_
        exact (recordObject_licensed own _ metadata).bind fun _ _ => trivial
      · trivial
    · trivial
  · trivial

theorem loadRaw_licensed : Licensed holdings readOnly (fun _ => True) (loadRaw source) := by
  refine honours_ask_bind (permits_free rfl rfl rfl rfl rfl trivial) fun stored _ => ?_
  split
  · exact (honours_tell (touches_own own _)).bind fun _ _ => trivial
  · exact rehydrateMissingRawBlob_licensed own lib

theorem restorePart_licensed (part : MimePart) (storedPath : String) :
    Licensed holdings readOnly (fun _ => True) (restorePart source part storedPath) := by
  refine honours_ask_bind (permits_free rfl rfl rfl rfl rfl trivial) fun stored _ => ?_
  refine honours_bind (orLoad_licensed _ (rehydrateMissingRawBlob_licensed own lib)) fun raw => ?_
  split
  · refine (honours_ofExcept _).bind fun parsed _ => ?_
    split
    · refine honours_ask_bind (permits_free rfl rfl rfl rfl rfl trivial) fun metadata _ => ?_
      exact (recordObject_licensed own _ metadata).bind fun _ _ => trivial
    · trivial
  · trivial

theorem loadPart_licensed (part : MimePart) (storedPath : String) (bodySection : Protocol.FetchBodySection)
    (range : Option (Nat × Option Nat)) :
    Licensed holdings readOnly (fun _ => True) (loadPart source part storedPath bodySection range) := by
  refine honours_ask_bind (permits_free rfl rfl rfl rfl rfl trivial) fun stored _ => ?_
  refine honours_bind (orLoad_licensed _ (restorePart_licensed own lib part storedPath)) fun raw => ?_
  split
  · exact (honours_tell (touches_own own _)).bind fun _ _ => trivial
  · trivial

theorem loadRawFetchBytes_licensed (bodySection : Protocol.RawFetchSection) (range : Option (Nat × Option Nat)) :
    Licensed holdings readOnly (fun _ => True) (loadRawFetchBytes source bodySection range) := by
  have permitted (messageId : Int) (path : String) : (sessionContract holdings readOnly).permits
      (.findMimePartByMessageAndPath source.accountId messageId path) :=
    permits_account rfl (congrArg (fun id => [id]) own) rfl rfl trivial
  unfold loadRawFetchBytes
  split
  · refine (loadRange_licensed own _ _ _).bind fun bytes _ => ?_
    split
    · trivial
    · exact (rehydrateMissingRawBlob_licensed own lib).bind fun _ _ => trivial
  · exact (loadRaw_licensed own lib).bind fun _ _ => trivial
  · refine honours_ask_bind (permitted ..) fun part _ => ?_
    split
    · split
      · exact loadRange_licensed own _ _ _
      · exact loadPart_licensed own lib _ _ _ _
    · trivial

end Loading

theorem fetchRawTargets_licensed {context : Context} (lib : context.lib = holdings.lib) {mailboxId : Int}
    (own : holdings.mailbox mailboxId)
    (mailboxName : String) (items : RawItems) (targets : List (Int × MailboxMessageView)) :
    Licensed holdings readOnly (fun _ => True)
      (fetchRawTargets context holdings.account mailboxName mailboxId items targets) := by
  refine honours_rounds fun written target _ => ?_
  refine honours_bind (loadRawFetchBytes_licensed rfl lib _ _) fun bytes => ?_
  refine (honours_orThrow _ _).bind fun bytes _ => ?_
  refine honours_bind (honours_onlyIf fun marks => ?_) fun _ => trivial
  simp only [Bool.and_eq_true, Bool.not_eq_true'] at marks
  refine (updateMailboxMessageFlags_licensed own fun _ => ⟨_, marks.2, rfl⟩).bind fun _ _ => ?_
  exact queueFlags_licensed own _ _

theorem resolveSequenceViews_licensed {mailboxId : Int} (own : holdings.mailbox mailboxId) (set : String) :
    Licensed holdings readOnly (fun _ => True) (resolveSequenceViews mailboxId set) := by
  refine honours_ask_bind (permits_mailbox rfl own rfl rfl rfl fun _ => trivial) fun messages _ => ?_
  exact (numberSet_licensed set _).bind fun _ _ => trivial

theorem resolveUidViews_licensed {mailboxId : Int} (own : holdings.mailbox mailboxId) (set : String) :
    Licensed holdings readOnly (fun _ => True) (resolveUidViews mailboxId set) := by
  refine honours_ask_bind (permits_mailbox rfl own rfl rfl rfl fun _ => trivial) fun messages _ => ?_
  exact (numberSet_licensed set _).bind fun _ _ => trivial

theorem resolveViews_licensed {mailboxId : Int} (own : holdings.mailbox mailboxId) (isUid : Bool) (set : String) :
    Licensed holdings readOnly (fun _ => True) (resolveViews isUid mailboxId set) := by
  unfold resolveViews
  split
  · exact honours_bind (resolveUidViews_licensed own set) fun _ => trivial
  · exact resolveSequenceViews_licensed own set

theorem writeRawFetchResponse_licensed {context : Context} (lib : context.lib = holdings.lib)
    (account : context.session.accountId = some holdings.account) (command : Protocol.ParsedCommand) :
    Licensed holdings readOnly (fun _ => True) (writeRawFetchResponse context command) := by
  unfold writeRawFetchResponse
  rw [account]
  cases context.session.selectedMailboxName with
  | none => trivial
  | some mailboxName =>
      refine finds_mailbox _ trivial fun mailbox own => ?_
      dsimp only
      generalize eqIgnoreAsciiCase command.name "UID" = isUid
      generalize command.args[if isUid = true then 1 else 0]? = set
      cases set with
      | none => trivial
      | some set =>
          refine (licensed_panic _).bind fun args _ => ?_
          refine (licensed_panic _).bind fun found _ => ?_
          cases found with
          | none => trivial
          | some items =>
              refine (resolveViews_licensed own isUid set).bind fun targets _ => ?_
              exact (fetchRawTargets_licensed lib own mailboxName items targets).bind fun _ _ => trivial

end RawFetch

/-! ## Searches -/

namespace Search
open Commands

variable {searcher : Searcher} (account : searcher.accountId = some holdings.account)
  (repository : searcher.repository = true) (lib : searcher.lib = holdings.lib)

include account in
theorem withViews_licensed {α : Type} {nothing : α}
    {body : Int → Row Mailbox → List MailboxMessageView → Action α}
    (licensed : ∀ mailbox views, Licensed holdings readOnly (fun _ => True) (body holdings.account mailbox views)) :
    Licensed holdings readOnly (fun _ => True) (withViews searcher nothing body) := by
  unfold withViews
  rw [account]
  refine finds_mailbox _ trivial fun mailbox own => ?_
  refine honours_ask_bind (permits_mailbox rfl own rfl rfl rfl fun _ => trivial) fun views _ => ?_
  exact licensed mailbox views

include lib in
theorem loadThreadMessage_licensed (loaded : List ThreadMessage) (view : MailboxMessageView) :
    Licensed holdings readOnly (fun _ => True)
      (loadThreadMessage searcher holdings.account loaded view) := by
  refine honours_bind (RawFetch.loadRawFetchBytes_licensed rfl lib _ _) fun raw => ?_
  refine (honours_orThrow _ _).bind fun raw _ => honours_bind ?_ fun _ => trivial
  unfold threadMessage
  split
  · trivial
  · exact (licensed_panic _).bind fun _ _ => trivial

include account repository

theorem executeSearch_licensed (query : SearchQuery) (uidResults : Bool) :
    Licensed holdings readOnly (fun _ => True) (executeSearch searcher query uidResults) := by
  unfold executeSearch
  rw [if_pos repository]
  refine withViews_licensed account fun mailbox views => ?_
  have contributes (candidates : List Nat) : Licensed holdings readOnly (fun _ => True) (do
      let results ← orPanic (candidates.mapM (candidateResult searcher.lib searcher.search query uidResults views
        mailbox.data.recentCount))
      pure (((results.filterMap id).insertionSort (· ≤ ·)).destutter (· ≠ ·))) :=
    (licensed_panic _).bind fun _ _ => trivial
  unfold searchViews
  dsimp only
  split
  · exact honours_ask_bind (permits_free rfl rfl rfl rfl rfl trivial) fun candidates _ => contributes candidates
  · exact contributes _

theorem findViews_licensed (query : SearchQuery) (views : List MailboxMessageView) :
    Licensed holdings readOnly (fun _ => True) (findViews searcher query views) :=
  (executeSearch_licensed account repository query true).bind fun _ _ => trivial

theorem executeSort_licensed (request : SortRequest) (uidResults : Bool) :
    Licensed holdings readOnly (fun _ => True) (executeSort searcher request uidResults) := by
  unfold executeSort
  rw [if_pos repository]
  refine withViews_licensed account fun mailbox views => ?_
  exact (findViews_licensed account repository _ _).bind fun _ _ => trivial

include lib in
theorem executeThread_licensed (algorithm : ThreadAlgorithm) (query : SearchQuery) (uidResults : Bool) :
    Licensed holdings readOnly (fun _ => True) (executeThread searcher algorithm query uidResults) := by
  unfold executeThread
  rw [if_pos repository]
  refine withViews_licensed account fun mailbox views => ?_
  refine (findViews_licensed account repository _ _).bind fun selected _ => ?_
  split
  · trivial
  · cases algorithm with
    | orderedSubject => exact (licensed_panic _).bind fun _ _ => trivial
    | references =>
        refine honours_bind ?_ fun messages => (licensed_panic _).bind fun _ _ => trivial
        exact honours_rounds fun loaded view _ => loadThreadMessage_licensed lib loaded view

end Search
end ImapCache
