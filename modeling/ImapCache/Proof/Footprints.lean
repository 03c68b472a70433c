import ImapCache.Model.Tasks
import ImapCache.Proof.Answers

/-!
# The operations that the code uses

Which operations each method may ask for, over any predicate that permits its own ones and the
auxiliary calls around them.
-/

namespace ImapCache
open Lib Prog

/-- The bookkeeping around the rows of a mailbox: messages, parts, objects, cache objects, quotas,
the search index and events. -/
def Op.bookkeeping : Op → Bool
  | accountIdForMailbox .. | mailboxUidvalidity .. | upsertMessage ..
  | deleteMimePartsForMessage .. | insertMimePart .. | listMessageCacheObjects ..
  | upsertCacheObject .. | deleteCacheObjectForAccount .. | getAccountQuota ..
  | adjustAccountQuotaUsage .. | putObject .. | indexMessage .. | publishEvent .. => true
  | _ => false

/-- The bookkeeping, the counts of a mailbox and what the commands read besides. -/
def Op.auxiliary : Op → Bool
  | refreshMailboxCounts ..
  | findMailbox .. | listMailboxMessages .. | getObject .. | listMailboxMessageViews ..
  | findAccountByIdAnyState .. | findAccountByEmailAddressAnyState ..
  | findMimePartByMessageAndPath .. | findCacheObjectByAccountTypeAndBlobKey ..
  | touchCacheObject .. | getObjectRange .. | searchIndex .. | connectUpstream ..
  | uidFetchRfc822 .. | panic .. => true
  | op => op.bookkeeping

/-- What a load of raw bytes asks for, besides the mailbox that it selects. -/
def Op.loading : Op → Bool
  | getObject .. | getObjectRange .. | putObject .. | touchCacheObject .. | upsertCacheObject ..
  | findAccountByIdAnyState .. | findAccountByEmailAddressAnyState ..
  | findMimePartByMessageAndPath .. | findCacheObjectByAccountTypeAndBlobKey .. | connectUpstream ..
  | uidFetchRfc822 .. => true
  | _ => false

theorem Op.auxiliary_of_loading {op : Op} (loading : op.loading = true) : op.auxiliary = true := by
  cases op <;> first | rfl | cases loading

theorem Op.auxiliary_of_bookkeeping {op : Op} (bookkeeping : op.bookkeeping = true) :
    op.auxiliary = true := by
  cases op <;> first | rfl | cases bookkeeping

section Methods
variable {permitted : Op → Prop} (bookkeeping : ∀ op : Op, op.bookkeeping = true → permitted op)

/-! ## The repository -/

namespace Repository
include bookkeeping

theorem publishEvent_uses (event : MutationEvent) : (publishEvent event).Uses permitted :=
  Uses.tell (bookkeeping _ rfl)

theorem refreshMailboxCounts_uses {mailboxId : Int} (counts : permitted (.refreshMailboxCounts mailboxId)) :
    (refreshMailboxCounts mailboxId).Uses permitted := by
  refine (Uses.ask counts).bind fun _ => ?_
  refine (Uses.ask (bookkeeping _ rfl)).bind fun _ => ?_
  exact publishEvent_uses bookkeeping _

theorem upsertMessage_uses (input : Message) : (upsertMessage input).Uses permitted := by
  refine (Uses.ask (bookkeeping _ rfl)).bind fun row => ?_
  exact (publishEvent_uses bookkeeping _).bind fun _ => trivial

theorem recordUidMapping_uses {mailboxId localUid upstreamUid : Int}
    (mapping : ∀ uidvalidity, permitted (.upsertUidMapping mailboxId localUid upstreamUid uidvalidity)) :
    (recordUidMapping mailboxId localUid upstreamUid).Uses permitted :=
  (Uses.ask (bookkeeping _ rfl)).bind fun uidvalidity => Uses.ask (mapping uidvalidity)

theorem upsertMailboxMessage_leads (input : MailboxMessage)
    (mapping : ∀ mailboxId localUid upstreamUid uidvalidity,
      permitted (.upsertUidMapping mailboxId localUid upstreamUid uidvalidity)) :
    (upsertMailboxMessage input).Leads (σ := cacheSignature) (.insertMailboxMessage input) permitted := by
  refine ⟨_, rfl, fun inserted => ?_⟩
  refine (Uses.ask (bookkeeping _ rfl)).bind fun accountId => ?_
  refine Uses.bind ?_ fun _ => (publishEvent_uses bookkeeping _).bind fun _ => trivial
  unfold recordRowMapping
  split
  · exact recordUidMapping_uses bookkeeping fun _ => mapping _ _ _ _
  · trivial

theorem copyMailboxMessage_leads (source destination localUid : Int) :
    (copyMailboxMessage source destination localUid).Leads (σ := cacheSignature)
      (.copyMailboxMessage source destination localUid) permitted := by
  refine ⟨_, rfl, fun copied => ?_⟩
  split
  · trivial
  · refine (Uses.ask (bookkeeping _ rfl)).bind fun accountId => ?_
    refine (Uses.orThrow _ _).bind fun accountId => ?_
    refine (Uses.ask (bookkeeping _ rfl)).bind fun objects => ?_
    refine (Uses.forEach fun _ _ => Uses.ask (bookkeeping _ rfl)).bind fun _ => ?_
    exact (publishEvent_uses bookkeeping _).bind fun _ => trivial

theorem deleteMailboxMessage_leads (mailboxId localUid : Int) :
    (deleteMailboxMessage mailboxId localUid).Leads (σ := cacheSignature)
      (.deleteMailboxMessage mailboxId localUid) permitted := by
  refine ⟨_, rfl, fun deleted => ?_⟩
  split
  · trivial
  · refine (Uses.ask (bookkeeping _ rfl)).bind fun accountId => ?_
    refine (Uses.orThrow _ _).bind fun accountId => ?_
    refine (Uses.ask (bookkeeping _ rfl)).bind fun objects => ?_
    refine Uses.bind (Uses.forEach fun _ _ => ?_) fun _ => ?_
    · exact (Uses.ask (bookkeeping _ rfl)).bind fun _ => trivial
    · exact (publishEvent_uses bookkeeping _).bind fun _ => trivial

theorem updateMailboxMessageFlags_leads (mailboxId localUid : Int) (flags : List String) :
    (updateMailboxMessageFlags mailboxId localUid flags).Leads (σ := cacheSignature)
      (.updateMailboxMessageFlags mailboxId localUid flags) permitted := by
  refine ⟨_, rfl, fun updated => ?_⟩
  split
  · refine (Uses.ask (bookkeeping _ rfl)).bind fun accountId => ?_
    exact (publishEvent_uses bookkeeping _).bind fun _ => trivial
  · trivial

theorem enqueueMutation_uses {input : PendingMutation} (enqueue : permitted (.enqueueMutation input)) :
    (enqueueMutation input).Uses permitted := by
  refine (Uses.ask enqueue).bind fun row => ?_
  exact (publishEvent_uses bookkeeping _).bind fun _ => trivial

end Repository

/-! ## Ingestion -/

namespace Ingest
include bookkeeping

theorem checkQuota_uses (accountId incomingBytes : Int) :
    (checkQuota accountId incomingBytes).Uses permitted := by
  refine (Uses.ask (bookkeeping _ rfl)).bind fun quota => ?_
  split
  · trivial
  · split
    · trivial
    · split <;> trivial

theorem ingestPart_uses (accountId messageId accountedBytes : Int) (part : MimePartRecord) :
    (ingestPart accountId messageId accountedBytes part).Uses permitted := by
  refine (Uses.ask (bookkeeping _ rfl)).bind fun metadata => ?_
  refine (Uses.ask (bookkeeping _ rfl)).bind fun _ => ?_
  exact (Uses.ask (bookkeeping _ rfl)).bind fun _ => trivial

theorem recordMessage_uses (lib : Libraries) (target : Target) (raw : Bytes)
    (parsed : ParsedMessage) : (recordMessage lib target raw parsed).Uses permitted := by
  refine (Uses.ask (bookkeeping _ rfl)).bind fun metadata => ?_
  refine (Repository.upsertMessage_uses bookkeeping _).bind fun message => ?_
  refine (Uses.onlyIf fun _ => Uses.ask (bookkeeping _ rfl)).bind fun _ => ?_
  refine Uses.bind (Uses.foldlM _ fun bytes part _ => ?_) fun _ => trivial
  exact ingestPart_uses bookkeeping _ _ _ _

theorem accountMessage_uses (target : Target) (parsed : ParsedMessage) (metadata : ObjectMetadata)
    (accountedBytes : Int) : (accountMessage target parsed metadata accountedBytes).Uses permitted := by
  refine (Uses.ask (bookkeeping _ rfl)).bind fun _ => ?_
  refine (Uses.onlyIf fun _ => Uses.ask (bookkeeping _ rfl)).bind fun _ => ?_
  exact Uses.ask (bookkeeping _ rfl)

theorem ingestRawMessage_uses {lib : Libraries} {target : Target} {raw : Bytes}
    (insert : ∀ messageId, permitted (.insertMailboxMessage (newMailboxMessage target messageId)))
    (mapping : ∀ mailboxId localUid upstreamUid uidvalidity,
      permitted (.upsertUidMapping mailboxId localUid upstreamUid uidvalidity)) :
    (ingestRawMessage lib target raw).Uses permitted := by
  refine (Uses.ofExcept _).bind fun parsed => ?_
  refine (Uses.ofExcept _).bind fun bytes => ?_
  refine (checkQuota_uses bookkeeping _ _).bind fun _ => ?_
  refine (recordMessage_uses bookkeeping _ _ _ _).bind fun recorded => ?_
  refine ((Repository.upsertMailboxMessage_leads bookkeeping _ mapping).uses (insert _)).bind fun row => ?_
  exact (accountMessage_uses bookkeeping _ _ _ _).bind fun _ => trivial

end Ingest
end Methods

/-! ## Commands -/

/-- Everything that the commands of a session may ask for is permitted: rows are changed or deleted
only if the selected mailbox is not read-only. -/
structure CommandUse (lib : Libraries) (session : Commands.Session) (permitted : Op → Prop) : Prop where
  auxiliary : ∀ op : Op, op.auxiliary = true → permitted op
  enqueue : ∀ accountId mailboxId messageId mutationType payload, permitted (.enqueueMutation
    (Mutations.newPendingMutation lib accountId mailboxId messageId mutationType payload))
  insert : ∀ input, permitted (.insertMailboxMessage input)
  mapping : ∀ mailboxId localUid upstreamUid uidvalidity,
    permitted (.upsertUidMapping mailboxId localUid upstreamUid uidvalidity)
  copy : ∀ source destination localUid, permitted (.copyMailboxMessage source destination localUid)
  update : session.isReadOnly = false → ∀ mailboxId localUid flags,
    permitted (.updateMailboxMessageFlags mailboxId localUid flags)
  delete : session.isReadOnly = false → ∀ mailboxId localUid,
    permitted (.deleteMailboxMessage mailboxId localUid)

theorem CommandUse.bookkeeping {lib : Libraries} {session : Commands.Session} {permitted : Op → Prop}
    (use : CommandUse lib session permitted) (op : Op) (bookkeeping : op.bookkeeping = true) :
    permitted op :=
  use.auxiliary op (Op.auxiliary_of_bookkeeping bookkeeping)

namespace Commands
open Repository

theorem numberSet_panics {permitted : Op → Prop} (set : String) (maxValue : Int)
    (panic : ∀ reason, permitted (.panic reason)) : (numberSet set maxValue).Uses permitted := by
  unfold numberSet
  split
  · trivial
  · exact (Uses.ask (panic _)).bind fun empty => empty.elim

variable {context : Context} {permitted : Op → Prop}
  (use : CommandUse context.lib context.session permitted)
include use

theorem numberSet_uses (set : String) (maxValue : Int) : (numberSet set maxValue).Uses permitted :=
  numberSet_panics set maxValue fun _ => use.auxiliary _ rfl

theorem resolveSequenceTargets_uses (mailboxId : Int) (set : String) :
    (resolveSequenceTargets mailboxId set).Uses permitted := by
  refine (Uses.ask (use.auxiliary _ rfl)).bind fun messages => ?_
  exact (numberSet_uses use _ _).bind fun _ => trivial

theorem resolveUidTargets_uses (mailboxId : Int) (set : String) :
    (resolveUidTargets mailboxId set).Uses permitted := by
  refine (Uses.ask (use.auxiliary _ rfl)).bind fun messages => ?_
  exact (numberSet_uses use _ _).bind fun _ => trivial

theorem append_uses (args : List String) (literal : Option Bytes) :
    (append context args literal).Uses permitted := by
  unfold append
  split
  · split
    · refine (Uses.ask (use.auxiliary _ rfl)).bind fun mailbox => ?_
      split
      · dsimp only
        split
        · trivial
        · split
          · refine (Ingest.ingestRawMessage_uses use.bookkeeping (fun _ => use.insert _)
              use.mapping).bind fun ingested => ?_
            refine (refreshMailboxCounts_uses use.bookkeeping (use.auxiliary _ rfl)).bind fun _ => ?_
            refine Uses.bind (Uses.onlyIf fun _ => Uses.bind ?_ fun _ => trivial) fun _ => trivial
            refine (Uses.ask (use.auxiliary _ rfl)).bind fun metadata => ?_
            exact enqueueMutation_uses use.bookkeeping (use.enqueue ..)
          · trivial
      · trivial
    · trivial
  · trivial

theorem queueTransferred_uses (move : Bool) (accountId : Int)
    (source destination : Row Mailbox) (message copiedMessage : Row MailboxMessage) :
    (queueTransferred context move accountId source destination message copiedMessage).Uses
      permitted := by
  refine Uses.bind ?_ fun _ => trivial
  cases move
  · exact enqueueMutation_uses use.bookkeeping (use.enqueue ..)
  · exact enqueueMutation_uses use.bookkeeping (use.enqueue ..)

theorem transferMessages_uses (name : String) (move : Bool) (accountId : Int)
    (source destination : Row Mailbox) (targets : List (Option Nat × Row MailboxMessage))
    (writable : move = true → context.session.isReadOnly = false) :
    (transferMessages context name move accountId source destination targets).Uses permitted := by
  refine Uses.bind (Uses.foldlM _ fun progress target _ => ?_) fun done => ?_
  · refine ((copyMailboxMessage_leads use.bookkeeping _ _ _).uses (use.copy ..)).bind fun copied => ?_
    refine Uses.bind (Uses.forEach fun copied _ => Uses.onlyIf fun _ => ?_) fun _ => ?_
    · exact queueTransferred_uses use ..
    · dsimp only
      split
      · rename_i moves
        exact ((deleteMailboxMessage_leads use.bookkeeping _ _).uses
          (use.delete (writable moves) ..)).bind fun _ => trivial
      · trivial
  · refine (refreshMailboxCounts_uses use.bookkeeping (use.auxiliary _ rfl)).bind fun _ => ?_
    exact (refreshMailboxCounts_uses use.bookkeeping (use.auxiliary _ rfl)).bind fun _ => trivial

theorem transfer_uses (move : Bool) (args : List String) :
    (transfer context move args).Uses permitted := by
  unfold transfer
  dsimp only
  split
  · split
    · refine (Uses.ask (use.auxiliary _ rfl)).bind fun source => ?_
      split
      · split
        · split
          · refine (Uses.ask (use.auxiliary _ rfl)).bind fun destination => ?_
            split
            · split
              · trivial
              · rename_i writable
                refine (resolveSequenceTargets_uses use _ _).bind fun targets => ?_
                exact transferMessages_uses use _ _ _ _ _ _ fun moves => by simpa [moves] using writable
            · trivial
          · trivial
        · trivial
      · trivial
    · trivial
  · trivial

theorem withUidMailbox_uses {body : Int → Row Mailbox → Action Reply}
    (uses : ∀ accountId mailbox, (body accountId mailbox).Uses permitted) :
    (withUidMailbox context body).Uses permitted := by
  unfold withUidMailbox
  split
  · split
    · refine (Uses.ask (use.auxiliary _ rfl)).bind fun source => ?_
      split
      · exact uses _ _
      · trivial
    · trivial
  · trivial

theorem uidTransfer_uses (move : Bool) (args : List String) :
    (uidTransfer context move args).Uses permitted := by
  refine withUidMailbox_uses use fun accountId source => ?_
  dsimp only
  split
  · trivial
  · rename_i writable
    split
    · split
      · refine (Uses.ask (use.auxiliary _ rfl)).bind fun destination => ?_
        split
        · refine (resolveUidTargets_uses use _ _).bind fun targets => ?_
          exact transferMessages_uses use _ _ _ _ _ _ fun moves => by simpa [moves] using writable
        · trivial
      · trivial
    · trivial

theorem expungeTargets_uses (writable : context.session.isReadOnly = false) (mailboxId : Int)
    (targets : List (Nat × Row MailboxMessage)) :
    (expungeTargets mailboxId targets).Uses permitted :=
  Uses.foldlM _ fun _ _ _ => ((deleteMailboxMessage_leads use.bookkeeping _ _).uses
    (use.delete writable ..)).bind fun _ => trivial

theorem expunge_uses (args : List String) : (expunge context args).Uses permitted := by
  unfold expunge
  split
  · split
    · refine (Uses.ask (use.auxiliary _ rfl)).bind fun mailbox => ?_
      split
      · split
        · trivial
        · rename_i writable
          refine Uses.bind ?_ fun targets => ?_
          · unfold expungeSet
            split
            · exact resolveSequenceTargets_uses use _ _
            · exact (Uses.ask (use.auxiliary _ rfl)).bind fun _ => trivial
          · refine (expungeTargets_uses use (by simpa using writable) _ _).bind fun _ => ?_
            exact (refreshMailboxCounts_uses use.bookkeeping (use.auxiliary _ rfl)).bind fun _ => trivial
      · trivial
    · trivial
  · trivial

theorem uidExpunge_uses (args : List String) : (uidExpunge context args).Uses permitted := by
  refine withUidMailbox_uses use fun accountId mailbox => ?_
  split
  · trivial
  · rename_i writable
    split
    · refine (Uses.ask (use.auxiliary _ rfl)).bind fun messages => ?_
      refine (numberSet_uses use _ _).bind fun uids => ?_
      refine (expungeTargets_uses use (by simpa using writable) _ _).bind fun _ => ?_
      exact (refreshMailboxCounts_uses use.bookkeeping (use.auxiliary _ rfl)).bind fun _ => trivial
    · trivial

theorem close_uses : (close context).Uses permitted := by
  unfold close
  split
  · refine Uses.bind (Uses.forEach fun mailboxId member => ?_) fun _ => trivial
    have writable : context.session.isReadOnly = false := by
      have := (Option.filter_eq_some_iff.mp (Option.mem_toList.mp member)).2
      simp only [Bool.and_eq_true, Bool.not_eq_true'] at this
      exact this.2
    refine (Uses.ask (use.auxiliary _ rfl)).bind fun messages => ?_
    refine Uses.bind (Uses.forEach fun _ _ => ?_) fun _ => refreshMailboxCounts_uses use.bookkeeping (use.auxiliary _ rfl)
    exact ((deleteMailboxMessage_leads use.bookkeeping _ _).uses (use.delete writable ..)).bind
      fun _ => trivial
  · trivial

theorem queueFlags_uses (accountId mailboxId localUid : Int) (flags : List String) :
    (queueFlags context accountId mailboxId localUid flags).Uses permitted :=
  Uses.onlyIf fun _ => (enqueueMutation_uses use.bookkeeping (use.enqueue ..)).bind fun _ => trivial

theorem store_uses (args : List String) : (store context args).Uses permitted := by
  unfold store
  split
  · split
    · refine (Uses.ask (use.auxiliary _ rfl)).bind fun mailbox => ?_
      split
      · split
        · trivial
        · rename_i writable
          refine (Uses.ofExcept _).bind fun request => ?_
          refine (resolveSequenceTargets_uses use _ _).bind fun targets => ?_
          refine Uses.bind (Uses.foldlM _ fun lines target _ => ?_) fun lines => ?_
          · refine ((updateMailboxMessageFlags_leads use.bookkeeping _ _ _).uses
              (use.update (by simpa using writable) ..)).bind fun _ => ?_
            exact (queueFlags_uses use ..).bind fun _ => trivial
          · exact (refreshMailboxCounts_uses use.bookkeeping (use.auxiliary _ rfl)).bind fun _ => trivial
      · trivial
    · trivial
  · trivial

theorem uidStore_uses (args : List String) : (uidStore context args).Uses permitted := by
  refine withUidMailbox_uses use fun accountId mailbox => ?_
  split
  · trivial
  · rename_i writable
    refine (Uses.ofExcept _).bind fun request => ?_
    refine (resolveUidTargets_uses use _ _).bind fun targets => ?_
    refine Uses.bind (Uses.foldlM _ fun lines message _ => ?_) fun lines => ?_
    · refine ((updateMailboxMessageFlags_leads use.bookkeeping _ _ _).uses
        (use.update (by simpa using writable) ..)).bind fun _ => ?_
      split
      · trivial
      · exact Uses.bind ((Uses.ask (use.auxiliary _ rfl)).bind fun _ => trivial) fun _ => trivial
    · refine (refreshMailboxCounts_uses use.bookkeeping (use.auxiliary _ rfl)).bind fun _ => ?_
      exact (Uses.forEach fun _ _ => queueFlags_uses use ..).bind fun _ => trivial

end Commands

/-! ## Raw FETCH -/

namespace RawFetch

theorem orLoad_uses {permitted : Op → Prop} (stored : Option Bytes) {fallback : Action (Option Bytes)}
    (uses : fallback.Uses permitted) : (orLoad stored fallback).Uses permitted := by
  cases stored with
  | some raw => trivial
  | none => exact uses

section Loading
variable {permitted : Op → Prop} (loading : ∀ op : Op, op.loading = true → permitted op)
  (select : ∀ connection mailbox, permitted (.selectMailbox connection mailbox))
include loading

theorem recordObject_uses (accountId : Int) (objectType : String) (metadata : ObjectMetadata) :
    (recordObject accountId objectType metadata).Uses permitted := by
  refine (Uses.ask (loading _ rfl)).bind fun known => ?_
  split
  · exact Uses.ask (loading _ rfl)
  · exact (Uses.ask (loading _ rfl)).bind fun _ => trivial

theorem loadRange_uses (source : Source) (key : String) (offset : Nat) (count : Option Nat) :
    (loadRange source key offset count).Uses permitted := by
  refine (Uses.ask (loading _ rfl)).bind fun bytes => ?_
  exact (Uses.onlyIf fun _ => Uses.tell (loading _ rfl)).bind fun _ => trivial

include select

theorem rehydrateMissingRawBlob_uses (source : Source) :
    (rehydrateMissingRawBlob source).Uses permitted := by
  unfold rehydrateMissingRawBlob
  split
  · refine (Uses.ask (loading _ rfl)).bind fun account => ?_
    split
    · refine Uses.bind ?_ fun config => ?_
      · refine (Uses.ask (loading _ rfl)).bind fun account => ?_
        split
        · trivial
        · exact (Uses.ofExcept _).bind fun _ => trivial
      · split
        · refine (Uses.ask (loading _ rfl)).bind fun _ => ?_
          refine (Uses.ask (select ..)).bind fun _ => ?_
          refine (Uses.ask (loading _ rfl)).bind fun raw => ?_
          refine (Uses.ask (loading _ rfl)).bind fun metadata => ?_
          exact (recordObject_uses loading ..).bind fun _ => trivial
        · trivial
    · trivial
  · trivial

theorem loadRaw_uses (source : Source) : (loadRaw source).Uses permitted := by
  refine (Uses.ask (loading _ rfl)).bind fun stored => ?_
  split
  · exact (Uses.tell (loading _ rfl)).bind fun _ => trivial
  · exact rehydrateMissingRawBlob_uses loading select source

theorem restorePart_uses (source : Source) (part : MimePart) (storedPath : String) :
    (restorePart source part storedPath).Uses permitted := by
  refine (Uses.ask (loading _ rfl)).bind fun stored => Uses.bind ?_ fun raw => ?_
  · exact orLoad_uses stored (rehydrateMissingRawBlob_uses loading select source)
  · split
    · refine (Uses.ofExcept _).bind fun parsed => ?_
      split
      · refine (Uses.ask (loading _ rfl)).bind fun metadata => ?_
        exact (recordObject_uses loading ..).bind fun _ => trivial
      · trivial
    · trivial

theorem loadPart_uses (source : Source) (part : MimePart) (storedPath : String)
    (bodySection : Protocol.FetchBodySection) (range : Option (Nat × Option Nat)) :
    (loadPart source part storedPath bodySection range).Uses permitted := by
  refine (Uses.ask (loading _ rfl)).bind fun stored => Uses.bind ?_ fun raw => ?_
  · exact orLoad_uses stored (restorePart_uses loading select source part storedPath)
  · split
    · exact (Uses.tell (loading _ rfl)).bind fun _ => trivial
    · trivial

theorem loadRawFetchBytes_uses (source : Source) (bodySection : Protocol.RawFetchSection)
    (range : Option (Nat × Option Nat)) :
    (loadRawFetchBytes source bodySection range).Uses permitted := by
  unfold loadRawFetchBytes
  split
  · refine (loadRange_uses loading ..).bind fun bytes => ?_
    split
    · trivial
    · exact (rehydrateMissingRawBlob_uses loading select source).bind fun _ => trivial
  · exact (loadRaw_uses loading select source).bind fun _ => trivial
  · refine (Uses.ask (loading _ rfl)).bind fun part => ?_
    split
    · split
      · exact loadRange_uses loading ..
      · exact loadPart_uses loading select ..
    · trivial

end Loading

theorem orPanic_uses {permitted : Op → Prop} {α : Type} (value : Except Panic α)
    (panic : ∀ reason, permitted (.panic reason)) : (orPanic value).Uses permitted := by
  cases value with
  | ok value => trivial
  | error reason => exact (Uses.ask (panic reason)).bind fun empty => empty.elim

theorem fetchRawTargets_uses {context : Commands.Context} {permitted : Op → Prop}
    (use : CommandUse context.lib context.session permitted)
    (select : ∀ connection mailbox, permitted (.selectMailbox connection mailbox))
    (accountId : Int) (mailboxName : String) (mailboxId : Int) (items : RawItems)
    (targets : List (Int × MailboxMessageView))
    (seen : items.request.peek = false → ∀ target ∈ targets, hasSeen target.2.flags = false →
      ∀ flags, permitted (.updateMailboxMessageFlags mailboxId target.2.localUid flags)) :
    (fetchRawTargets context accountId mailboxName mailboxId items targets).Uses permitted := by
  refine Uses.foldlM _ fun written target member => ?_
  refine (loadRawFetchBytes_uses (fun op loading => use.auxiliary op (Op.auxiliary_of_loading loading)) select ..).bind fun bytes => ?_
  refine (Uses.orThrow _ _).bind fun bytes => ?_
  refine Uses.bind (Uses.onlyIf fun marks => ?_) fun _ => trivial
  simp only [Bool.and_eq_true, Bool.not_eq_true'] at marks
  refine ((Repository.updateMailboxMessageFlags_leads use.bookkeeping _ _ _).uses
    (seen marks.1 target member marks.2 _)).bind fun _ => ?_
  exact Commands.queueFlags_uses use ..

theorem resolveViews_uses {context : Commands.Context} {permitted : Op → Prop}
    (use : CommandUse context.lib context.session permitted) (isUid : Bool) (mailboxId : Int)
    (set : String) : (resolveViews isUid mailboxId set).Uses permitted := by
  unfold resolveViews
  split
  · refine Uses.bind ?_ fun _ => trivial
    refine (Uses.ask (use.auxiliary _ rfl)).bind fun messages => ?_
    exact (Commands.numberSet_uses use _ _).bind fun _ => trivial
  · refine (Uses.ask (use.auxiliary _ rfl)).bind fun messages => ?_
    exact (Commands.numberSet_uses use _ _).bind fun _ => trivial

theorem answerRawFetch_uses {context : Commands.Context} {permitted : Op → Prop}
    (use : CommandUse context.lib context.session permitted)
    (select : ∀ connection mailbox, permitted (.selectMailbox connection mailbox))
    (seen : ∀ mailboxId localUid flags,
      permitted (.updateMailboxMessageFlags mailboxId localUid flags))
    (accountId : Int) (mailboxName : String) (mailboxId : Int) (isUid : Bool) (set : String)
    (args : List String) :
    (answerRawFetch context accountId mailboxName mailboxId isUid set args).Uses permitted := by
  have panic (reason : Panic) : permitted (.panic reason) := use.auxiliary _ rfl
  unfold answerRawFetch
  refine (orPanic_uses _ panic).bind fun found => ?_
  cases found with
  | none => trivial
  | some items =>
    refine (resolveViews_uses use ..).bind fun targets => ?_
    refine Uses.bind ?_ fun _ => trivial
    exact fetchRawTargets_uses use select _ _ _ _ _ fun _ _ _ _ => seen _ _

theorem writeRawFetchResponse_uses {context : Commands.Context} {permitted : Op → Prop}
    (use : CommandUse context.lib context.session permitted)
    (select : ∀ connection mailbox, permitted (.selectMailbox connection mailbox))
    (seen : ∀ mailboxId localUid flags,
      permitted (.updateMailboxMessageFlags mailboxId localUid flags))
    (command : Protocol.ParsedCommand) : (writeRawFetchResponse context command).Uses permitted := by
  have panic (reason : Panic) : permitted (.panic reason) := use.auxiliary _ rfl
  unfold writeRawFetchResponse
  cases context.session.accountId with
  | none => trivial
  | some accountId =>
    cases context.session.selectedMailboxName with
    | none => trivial
    | some mailboxName =>
      refine (Uses.ask (use.auxiliary _ rfl)).bind fun mailbox => ?_
      cases mailbox with
      | none => trivial
      | some mailbox =>
        dsimp only
        generalize eqIgnoreAsciiCase command.name "UID" = isUid
        generalize command.args[if isUid = true then 1 else 0]? = set
        cases set with
        | none => trivial
        | some set =>
          refine (orPanic_uses _ panic).bind fun args => ?_
          exact answerRawFetch_uses use select seen ..

end RawFetch

theorem command_uses {context : Commands.Context} {permitted : Op → Prop}
    (use : CommandUse context.lib context.session permitted)
    (select : ∀ connection mailbox, permitted (.selectMailbox connection mailbox))
    (seen : ∀ mailboxId localUid flags,
      permitted (.updateMailboxMessageFlags mailboxId localUid flags))
    (request : Command) : (request.code context).Uses permitted := by
  cases request with
  | append args literal => exact Commands.append_uses use args literal
  | copy args => exact Commands.transfer_uses use false args
  | move args => exact Commands.transfer_uses use true args
  | uidCopy args => exact Commands.uidTransfer_uses use false args
  | uidMove args => exact Commands.uidTransfer_uses use true args
  | expunge args => exact Commands.expunge_uses use args
  | uidExpunge args => exact Commands.uidExpunge_uses use args
  | close => exact Commands.close_uses use
  | store args => exact Commands.store_uses use args
  | uidStore args => exact Commands.uidStore_uses use args
  | rawFetch name args =>
      exact (RawFetch.writeRawFetchResponse_uses use select seen _).bind fun _ => trivial

/-! ## Syncs -/

def Op.syncing : Op → Bool
  | upsertMailbox input => input == Sync.syncedMailbox input.accountId input.name
  | selectMailbox .. | loadSyncState .. | uidSearchAll .. | uidFetchFlags ..
  | updateMailboxMessageFlags .. | insertMailboxMessage .. | upsertUidMapping ..
  | deleteMailboxMessage .. | putSyncState .. | updateMailboxSyncMetadata .. | listMailboxes ..
  | deleteMailbox .. | upstreamListMailboxes .. | setMailAccountSyncStatus .. | acquireLock ..
  | releaseLock .. => true
  | op => op.auxiliary

/-- The operations of the sync of a mailbox once it has written the row of that mailbox. -/
def Op.syncStep : Op → Bool
  | upsertMailbox .. | deleteMailbox .. => false
  | op => op.syncing

theorem Op.syncing_of_syncStep (op : Op) (step : op.syncStep = true) : op.syncing = true := by
  cases op <;> first | exact step | cases step

theorem Op.syncStep_of_bookkeeping (op : Op) (bookkeeping : op.bookkeeping = true) :
    op.syncStep = true := by
  cases op <;> first | rfl | cases bookkeeping

/-- The operations of the sync of a mailbox with what they write confined to that mailbox. -/
def Op.confinedTo (mailboxId : Int) : Op → Prop
  | insertMailboxMessage input => input.mailboxId = mailboxId
  | updateMailboxMessageFlags id _ _ | deleteMailboxMessage id _ | refreshMailboxCounts id
  | updateMailboxSyncMetadata id _ => id = mailboxId
  | op => op.syncStep = true

theorem Op.syncStep_of_confinedTo {mailboxId : Int} (op : Op) (confined : op.confinedTo mailboxId) :
    op.syncStep = true := by
  cases op <;> first | rfl | cases confined

theorem Op.confinedTo_of_bookkeeping {mailboxId : Int} (op : Op) (bookkeeping : op.bookkeeping = true) :
    op.confinedTo mailboxId := by
  cases op <;> first | rfl | cases bookkeeping

namespace Sync
open Repository

theorem deleteRows_uses (mailboxId : Int) (messages : List (Row MailboxMessage)) :
    (forEach messages fun message => do
      let _ ← deleteMailboxMessage mailboxId message.data.localUid
      pure () : Action Unit).Uses (Op.confinedTo mailboxId) :=
  Uses.forEach fun _ _ =>
    ((deleteMailboxMessage_leads Op.confinedTo_of_bookkeeping _ _).uses (by rfl)).bind fun _ => trivial

theorem syncUid_uses (lib : Libraries) (context : SyncContext) (progress : Nat × Option Int)
    (uid : Nat) : (syncUid lib context progress uid).Uses (Op.confinedTo context.mailboxId) := by
  refine (Uses.orThrow _ _).bind fun uidI64 => ?_
  refine (Uses.ask (by rfl)).bind fun flags => ?_
  refine Uses.bind ?_ fun _ => ?_
  · unfold reconcileFlags
    split
    · split
      · exact ((updateMailboxMessageFlags_leads Op.confinedTo_of_bookkeeping _ _ _).uses (by rfl)).bind
          fun _ => trivial
      · trivial
    · trivial
  · split
    · trivial
    · refine (Uses.ask (by rfl)).bind fun raw => ?_
      refine Uses.bind ?_ fun _ => trivial
      exact Ingest.ingestRawMessage_uses Op.confinedTo_of_bookkeeping (fun _ => rfl) fun _ _ _ _ => rfl

theorem syncMailboxInner_confined (lib : Libraries) (accountId : Int) (mailboxName : String)
    (mailbox : Row Mailbox) (connection : Nat) :
    (syncMailboxInner lib accountId mailboxName mailbox connection).Uses (Op.confinedTo mailbox.id) := by
  refine (Uses.ask (by rfl)).bind fun selection => ?_
  refine (Uses.ask (by rfl)).bind fun checkpoint => ?_
  refine Uses.bind (Uses.onlyIf fun _ => ?_) fun _ => ?_
  · exact (Uses.ask (by rfl)).bind fun messages => deleteRows_uses _ _
  refine (Uses.ask (by rfl)).bind fun uids => ?_
  refine (Uses.ask (by rfl)).bind fun localMessages => ?_
  refine Uses.bind (Uses.foldlM _ fun progress uid _ => ?_) fun synced => ?_
  · exact syncUid_uses lib { accountId, mailboxName, mailboxId := mailbox.id, connection
                             lastUid := effectiveLastUid selection checkpoint, localMessages } progress uid
  refine (Uses.ofExcept _).bind fun _ => ?_
  refine (Uses.ask (by rfl)).bind fun _ => ?_
  refine (Uses.ask (by rfl)).bind fun _ => ?_
  refine Uses.bind ?_ fun _ => ?_
  · exact (Uses.ask (by rfl)).bind fun messages => deleteRows_uses _ _
  · exact (refreshMailboxCounts_uses Op.confinedTo_of_bookkeeping (by rfl)).bind fun _ => trivial

theorem syncMailboxInner_uses (lib : Libraries) (accountId : Int) (mailboxName : String)
    (mailbox : Row Mailbox) (connection : Nat) :
    (syncMailboxInner lib accountId mailboxName mailbox connection).Uses (Op.syncStep · = true) :=
  (syncMailboxInner_confined ..).mono Op.syncStep_of_confinedTo

theorem syncMailbox_uses (lib : Libraries) (accountId : Int) (mailboxName : String)
    (connection : Nat) :
    (syncMailbox lib accountId mailboxName connection).Uses (Op.syncing · = true) := by
  refine Uses.bind ?_ fun mailbox => (syncMailboxInner_uses ..).mono Op.syncing_of_syncStep
  refine (Uses.ask (beq_self_eq_true (syncedMailbox accountId mailboxName))).bind fun _ => ?_
  exact (Uses.tell (by rfl)).bind fun _ => trivial

theorem removeMissingMailboxes_uses (accountId : Int) (names : List String) :
    (removeMissingMailboxes accountId names).Uses (Op.syncing · = true) := by
  refine (Uses.ask (by rfl)).bind fun mailboxes => Uses.forEach fun mailbox _ => ?_
  refine (Uses.ask (by rfl)).bind fun messages => ?_
  refine Uses.bind ?_ fun _ => ?_
  · exact (deleteRows_uses _ _).mono fun op confined =>
      Op.syncing_of_syncStep op (Op.syncStep_of_confinedTo op confined)
  refine Uses.bind ?_ fun _ => trivial
  refine (Uses.ask (by rfl)).bind fun rows => ?_
  refine (Uses.onlyIf fun _ => ?_).bind fun _ => trivial
  exact Uses.tell (by rfl)

theorem syncMailboxes_uses (lib : Libraries) (accountId : Int) (connection : Nat) :
    (syncMailboxes lib accountId connection).Uses (Op.syncing · = true) := by
  refine (Uses.ask (by rfl)).bind fun names => ?_
  refine Uses.bind (Uses.foldlM _ fun report name _ => ?_) fun report => ?_
  · exact (syncMailbox_uses ..).bind fun _ => trivial
  · exact (removeMissingMailboxes_uses _ _).bind fun _ => trivial

theorem syncAccount_uses (lib : Libraries) (lockManager : Bool) (accountId : Int)
    (connection : Nat) :
    (syncAccount lib lockManager accountId connection).Uses (Op.syncing · = true) := by
  refine (Uses.ask (by rfl)).bind fun account => ?_
  split
  · trivial
  · refine (Uses.attempt ?_).bind fun outcome => (Uses.tell (by rfl)).bind fun _ => Uses.ofExcept _
    split
    · trivial
    · split
      · refine (Uses.ask (by rfl)).bind fun acquired => ?_
        split
        · refine (syncMailboxes_uses ..).attempt.bind fun outcome => ?_
          exact (Uses.tell (by rfl)).bind fun _ => Uses.ofExcept _
        · trivial
      · exact syncMailboxes_uses ..

end Sync

/-! ## Flushes -/

def Op.flushing : Op → Bool
  | listDuePendingMutations .. | updatePendingMutation .. | getObject .. | mailboxUidvalidity ..
  | messageUpstreamUid .. | mappedUpstreamUid .. | setMailboxMessageUpstreamUid ..
  | upsertUidMapping .. | publishEvent .. | clock | selectMailbox .. | append ..
  | uidCopyMessage .. | uidStoreFlags .. | expungeSelected .. => true
  | _ => false

namespace Mutations
open Repository

theorem setMailboxMessageUpstreamUid_uses (mailboxId localUid upstreamUid : Int) :
    (setMailboxMessageUpstreamUid mailboxId localUid upstreamUid).Uses (Op.flushing · = true) := by
  refine (Uses.ask (by rfl)).bind fun row => ?_
  refine Uses.bind (Uses.onlyIf fun _ => ?_) fun _ => trivial
  exact (Uses.ask (by rfl)).bind fun uidvalidity => Uses.ask (by rfl)

theorem copyUpstream_uses (kind : String) (connection : Nat) (transfer : Transfer) :
    (copyUpstream kind connection transfer).Uses (Op.flushing · = true) := by
  refine Uses.bind ?_ fun found => ?_
  · refine (Uses.ask (by rfl)).bind fun uidvalidity => ?_
    refine (Uses.ask (by rfl)).bind fun uid => ?_
    split
    · trivial
    · exact Uses.ask (by rfl)
  · refine (Uses.orThrow _ _).bind fun uid => ?_
    refine (Uses.ask (by rfl)).bind fun _ => ?_
    refine (Uses.ask (by rfl)).bind fun copied => ?_
    exact (setMailboxMessageUpstreamUid_uses ..).bind fun _ => trivial

theorem readTransfer_uses (kind : String) (payload : Json) {permitted : Op → Prop} :
    (readTransfer kind payload).Uses permitted := by
  refine (Uses.orThrow _ _).bind fun _ => (Uses.orThrow _ _).bind fun _ => ?_
  refine (Uses.orThrow _ _).bind fun _ => (Uses.orThrow _ _).bind fun _ => ?_
  exact (Uses.orThrow _ _).bind fun _ => (Uses.orThrow _ _).bind fun _ => trivial

theorem applyMutation_uses (lib : Libraries) (connection : Nat) (mutation : PendingMutation) :
    (applyMutation lib connection mutation).Uses (Op.flushing · = true) := by
  unfold applyMutation
  split
  · refine (Uses.orThrow _ _).bind fun mailbox => (Uses.orThrow _ _).bind fun mailboxId => ?_
    refine (Uses.orThrow _ _).bind fun blobKey => (Uses.ofExcept _).bind fun internalDate => ?_
    refine (Uses.ask (by rfl)).bind fun raw => (Uses.orThrow _ _).bind fun raw => ?_
    refine (Uses.ask (by rfl)).bind fun appendUid => ?_
    split
    · exact (setMailboxMessageUpstreamUid_uses ..).bind fun _ => trivial
    · trivial
  · exact (Uses.orThrow _ _).bind fun localUid => Uses.ask (by rfl)
  · refine (readTransfer_uses ..).bind fun transfer => ?_
    exact (copyUpstream_uses ..).bind fun _ => trivial
  · refine (readTransfer_uses ..).bind fun transfer => ?_
    refine (copyUpstream_uses ..).bind fun uid => ?_
    exact (Uses.ask (by rfl)).bind fun _ => Uses.ask (by rfl)
  · trivial

theorem updatePendingMutation_uses (id : Int) (status : MutationStatus) (attempts : Int)
    (nextAttemptAt : Option Time) :
    (updatePendingMutation id status attempts nextAttemptAt).Uses (Op.flushing · = true) := by
  refine (Uses.ask (by rfl)).bind fun row => ?_
  exact Uses.bind (Uses.tell (by rfl)) fun _ => trivial

theorem flushPendingMutations_uses (lib : Libraries) (accountId : Int) (connection : Nat) :
    (flushPendingMutations lib accountId connection).Uses (Op.flushing · = true) := by
  refine (Uses.ask (by rfl)).bind fun pending => Uses.foldlM _ fun applied mutation _ => ?_
  refine (updatePendingMutation_uses ..).bind fun inFlight => ?_
  refine (applyMutation_uses ..).attempt.bind fun result => ?_
  split
  · exact (updatePendingMutation_uses ..).bind fun _ => trivial
  · refine (Uses.ask (by rfl)).bind fun now => ?_
    exact (updatePendingMutation_uses ..).bind fun _ => trivial

end Mutations

end ImapCache
