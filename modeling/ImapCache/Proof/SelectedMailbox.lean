import ImapCache.Model.Sample
import ImapCache.Model.SessionTasks
import ImapCache.Proof.Footprints

/-!
# The mailbox that a session works on

A session remembers the id of the mailbox that it selected, but most of its commands look the mailbox
up by name. They work on the selected mailbox as long as nobody has given its name to another one.
-/

namespace ImapCache

def Op.looksUp : Op → Bool
  | findMailbox .. => true
  | _ => false

namespace Session
open Lib Prog System Protocol

/-! ## What a command may touch -/

/-- The operation stays on the messages of one mailbox. -/
structure StaysOn (mailboxId : Int) (op : Op) : Prop where
  messages : ∀ other ∈ op.messageMailboxes, other = mailboxId
  noLookup : op.looksUp = false

/-- A command on messages touches those of the mailbox that it has found last, or that its session has
selected if it has found none; other commands are free. -/
def mailboxProtocol : Lib.Protocol cacheSignature (Option (Option Int)) where
  allows q op := match q with
    | some found => ∀ mailboxId ∈ op.messageMailboxes, found = some mailboxId
    | none => True
  next q op answer := match q, op, answer with
    | some _, .findMailbox .., .ok (some mailbox) => some (some mailbox.id)
    | q, _, _ => q
  expects _ _ := True

def onward {α : Type} : Except Error α → Option (Option Int) → Prop := fun _ q => q.isSome = true

/-- The program touches the messages of no mailbox that it has not found itself. -/
def Steady {α : Type} (p : Action α) : Prop :=
  ∀ found, p.Follows mailboxProtocol onward (some found)

theorem follows_free {α : Type} (p : Action α) {post : Except Error α → Option (Option Int) → Prop}
    (any : ∀ outcome, post outcome none) : p.Follows mailboxProtocol post none := by
  induction p with
  | ret value => exact any _
  | throw failure => exact any _
  | call op next ih => exact ⟨trivial, fun answer _ => ih answer⟩

theorem next_of_noLookup {q : Option (Option Int)} {op : Op} {answer : Except Error op.Ret}
    (noLookup : op.looksUp = false) : mailboxProtocol.next q op answer = q := by
  cases op with
  | findMailbox accountId mailboxName => cases noLookup
  | _ => cases q <;> rfl

section Steadiness
variable {α β : Type} {p : Action α} {f : α → Action β}

theorem follows_of_staysOn {mailboxId : Int} (uses : p.Uses (StaysOn mailboxId)) :
    p.Follows mailboxProtocol onward (some (some mailboxId)) := by
  have stays := Uses.follows (π := mailboxProtocol) (q := some (some mailboxId)) uses
    (fun op stays other member => by rw [stays.messages other member])
    (fun op answer stays => next_of_noLookup stays.noLookup)
  refine stays.mono fun outcome q same => ?_
  rw [same]
  rfl

theorem steady_of_elsewhere
    (uses : p.Uses fun op : Op => op.messageMailboxes = [] ∧ op.looksUp = false) : Steady p := by
  intro found
  have stays := Uses.follows (π := mailboxProtocol) (q := some found) uses
    (fun op elsewhere other member => by simp [elsewhere.1] at member)
    (fun op answer elsewhere => next_of_noLookup elsewhere.2)
  refine stays.mono fun outcome q same => ?_
  rw [same]
  rfl

theorem Steady.bind (first : Steady p) (rest : ∀ value, Steady (f value)) : Steady (p.bind f) := by
  intro found
  refine follows_bind ((first found).mono fun outcome q reached => ?_)
  cases outcome with
  | ok value =>
      obtain ⟨found', rfl⟩ := Option.isSome_iff_exists.mp reached
      exact rest value found'
  | error failure => exact reached

theorem steady_ret (value : α) : Steady (.ret value : Action α) := fun _ => rfl

theorem steady_ofExcept (outcome : Except Error α) : Steady (ofExcept outcome : Action α) := by
  cases outcome with
  | ok value => exact fun _ => rfl
  | error failure => exact fun _ => rfl

theorem steady_orPanic (value : Except Panic α) : Steady (orPanic value : Action α) :=
  steady_of_elsewhere (RawFetch.orPanic_uses value fun _ => ⟨rfl, rfl⟩)

theorem steady_lookup {accountId : Int} {mailboxName : String} {f : Option (Row Mailbox) → Action β}
    (nothing : Steady (f none))
    (found : ∀ mailbox : Row Mailbox,
      (f (some mailbox)).Follows mailboxProtocol onward (some (some mailbox.id))) :
    Steady ((await (.findMailbox accountId mailboxName)).bind f) := by
  intro before
  refine follows_ask_bind (fun mailboxId member => by cases member) (fun value _ => ?_) fun _ _ => rfl
  cases value with
  | none => exact nothing before
  | some mailbox => exact found mailbox

end Steadiness

/-! ## The work on one mailbox -/

section Work
variable (context : Commands.Context) (accountId mailboxId : Int)

theorem staysOn_elsewhere {op : Op} (nowhere : op.messageMailboxes = []) (noLookup : op.looksUp = false) :
    StaysOn mailboxId op where
  messages other member := by
    rw [nowhere] at member
    exact absurd member List.not_mem_nil
  noLookup := noLookup

theorem staysOn_own {op : Op} (own : op.messageMailboxes = [mailboxId]) (noLookup : op.looksUp = false) :
    StaysOn mailboxId op where
  messages other member := by
    rw [own] at member
    exact List.mem_singleton.mp member
  noLookup := noLookup

theorem staysOn_of_bookkeeping (op : Op) (bookkeeping : op.bookkeeping = true) : StaysOn mailboxId op := by
  cases op <;> first | exact staysOn_elsewhere mailboxId rfl rfl | cases bookkeeping

theorem staysOn_of_loading (op : Op) (loading : op.loading = true) : StaysOn mailboxId op := by
  cases op <;> first | exact staysOn_elsewhere mailboxId rfl rfl | cases loading

theorem staysOn_panic (reason : Panic) : StaysOn mailboxId (.panic reason) :=
  staysOn_elsewhere mailboxId rfl rfl

theorem resolveSequenceTargets_staysOn (set : String) :
    (Commands.resolveSequenceTargets mailboxId set).Uses (StaysOn mailboxId) := by
  refine (Uses.ask (staysOn_own mailboxId rfl rfl)).bind fun messages => ?_
  exact (Commands.numberSet_panics _ _ (staysOn_panic mailboxId)).bind fun _ => trivial

theorem resolveUidTargets_staysOn (set : String) :
    (Commands.resolveUidTargets mailboxId set).Uses (StaysOn mailboxId) := by
  refine (Uses.ask (staysOn_own mailboxId rfl rfl)).bind fun messages => ?_
  exact (Commands.numberSet_panics _ _ (staysOn_panic mailboxId)).bind fun _ => trivial

theorem refreshMailboxCounts_staysOn :
    (Repository.refreshMailboxCounts mailboxId).Uses (StaysOn mailboxId) :=
  Repository.refreshMailboxCounts_uses (staysOn_of_bookkeeping mailboxId)
    (staysOn_own mailboxId rfl rfl)

theorem updateMailboxMessageFlags_staysOn (localUid : Int) (flags : List String) :
    (Repository.updateMailboxMessageFlags mailboxId localUid flags).Uses (StaysOn mailboxId) :=
  (Repository.updateMailboxMessageFlags_leads (staysOn_of_bookkeeping mailboxId) _ _ _).uses
    (staysOn_own mailboxId rfl rfl)

theorem deleteMailboxMessage_staysOn (localUid : Int) :
    (Repository.deleteMailboxMessage mailboxId localUid).Uses (StaysOn mailboxId) :=
  (Repository.deleteMailboxMessage_leads (staysOn_of_bookkeeping mailboxId) _ _).uses
    (staysOn_own mailboxId rfl rfl)

theorem queueFlags_staysOn (localUid : Int) (flags : List String) :
    (Commands.queueFlags context accountId mailboxId localUid flags).Uses (StaysOn mailboxId) := by
  refine Uses.onlyIf fun _ => Uses.bind ?_ fun _ => trivial
  exact Repository.enqueueMutation_uses (staysOn_of_bookkeeping mailboxId)
    (staysOn_own mailboxId rfl rfl)

theorem storeTargets_staysOn (request : StoreRequest) (targets : List (Nat × Row MailboxMessage)) :
    (targets.foldlM (Commands.storeTarget context accountId mailboxId request) []).Uses
      (StaysOn mailboxId) := by
  refine Uses.foldlM _ fun lines target _ => ?_
  refine (updateMailboxMessageFlags_staysOn mailboxId _ _).bind fun _ => ?_
  exact (queueFlags_staysOn context accountId mailboxId _ _).bind fun _ => trivial

theorem uidStoreTargets_staysOn (request : StoreRequest) (targets : List (Row MailboxMessage)) :
    (targets.foldlM (Commands.uidStoreTarget mailboxId request) []).Uses (StaysOn mailboxId) := by
  refine Uses.foldlM _ fun lines message _ => ?_
  refine (updateMailboxMessageFlags_staysOn mailboxId _ _).bind fun _ => ?_
  split
  · trivial
  · refine Uses.bind ?_ fun _ => trivial
    exact (Uses.ask (staysOn_own mailboxId rfl rfl)).bind fun _ => trivial

theorem expungeTargets_staysOn (targets : List (Nat × Row MailboxMessage)) :
    (Commands.expungeTargets mailboxId targets).Uses (StaysOn mailboxId) := by
  refine Uses.foldlM _ fun lines target _ => ?_
  exact (deleteMailboxMessage_staysOn mailboxId _).bind fun _ => trivial

theorem expungeSet_staysOn (set : Option String) :
    (Commands.expungeSet mailboxId set).Uses (StaysOn mailboxId) := by
  cases set with
  | some set => exact resolveSequenceTargets_staysOn mailboxId set
  | none => exact (Uses.ask (staysOn_own mailboxId rfl rfl)).bind fun _ => trivial

theorem closeMailbox_staysOn : (Commands.closeMailbox mailboxId).Uses (StaysOn mailboxId) := by
  refine (Uses.ask (staysOn_own mailboxId rfl rfl)).bind fun messages => ?_
  refine Uses.bind (Uses.forEach fun message _ => ?_) fun _ => refreshMailboxCounts_staysOn mailboxId
  exact (deleteMailboxMessage_staysOn mailboxId _).bind fun _ => trivial

theorem resolveSequenceViews_staysOn (set : String) :
    (RawFetch.resolveSequenceViews mailboxId set).Uses (StaysOn mailboxId) := by
  refine (Uses.ask (staysOn_own mailboxId rfl rfl)).bind fun messages => ?_
  exact (Commands.numberSet_panics _ _ (staysOn_panic mailboxId)).bind fun _ => trivial

theorem resolveUidViews_staysOn (set : String) :
    (RawFetch.resolveUidViews mailboxId set).Uses (StaysOn mailboxId) := by
  refine (Uses.ask (staysOn_own mailboxId rfl rfl)).bind fun messages => ?_
  exact (Commands.numberSet_panics _ _ (staysOn_panic mailboxId)).bind fun _ => trivial

theorem fetchRawTargets_staysOn (mailboxName : String) (items : RawFetch.RawItems)
    (targets : List (Int × MailboxMessageView)) :
    (RawFetch.fetchRawTargets context accountId mailboxName mailboxId items targets).Uses
      (StaysOn mailboxId) := by
  refine Uses.foldlM _ fun written target _ => ?_
  refine (RawFetch.loadRawFetchBytes_uses (staysOn_of_loading mailboxId)
    (fun _ _ => staysOn_elsewhere mailboxId rfl rfl) ..).bind fun bytes => ?_
  refine (Uses.orThrow _ _).bind fun bytes => Uses.bind (Uses.onlyIf fun _ => ?_) fun _ => trivial
  refine (updateMailboxMessageFlags_staysOn mailboxId _ _).bind fun _ => ?_
  exact queueFlags_staysOn context accountId mailboxId _ _

theorem answerRawFetch_staysOn (mailboxName : String) (isUid : Bool) (set : String) (args : List String) :
    (RawFetch.answerRawFetch context accountId mailboxName mailboxId isUid set args).Uses
      (StaysOn mailboxId) := by
  unfold RawFetch.answerRawFetch
  refine (RawFetch.orPanic_uses _ (staysOn_panic mailboxId)).bind fun found => ?_
  cases found with
  | none => trivial
  | some items =>
      refine Uses.bind ?_ fun targets => ?_
      · unfold RawFetch.resolveViews
        split
        · exact (resolveUidViews_staysOn mailboxId set).bind fun _ => trivial
        · exact resolveSequenceViews_staysOn mailboxId set
      · exact (fetchRawTargets_staysOn context accountId mailboxId mailboxName items targets).bind
          fun _ => trivial

theorem searchViews_staysOn (searcher : Search.Searcher) (query : Search.SearchQuery) (uidResults : Bool)
    (mailbox : Row Mailbox) (views : List MailboxMessageView) :
    (Search.searchViews searcher query uidResults mailbox views).Uses (StaysOn mailboxId) := by
  have results (candidates : List Nat) : ((orPanic (candidates.mapM (Search.candidateResult searcher.lib
      searcher.search query uidResults views mailbox.data.recentCount)) : Action _).bind fun results =>
      .ret (((results.filterMap id).insertionSort (· ≤ ·)).destutter (· ≠ ·))).Uses (StaysOn mailboxId) :=
    (RawFetch.orPanic_uses _ (staysOn_panic mailboxId)).bind fun _ => trivial
  unfold Search.searchViews
  split
  · exact (Uses.ask (staysOn_elsewhere mailboxId rfl rfl)).bind fun candidates => results candidates
  · exact results _

end Work

/-! ## Commands -/

section Commands
variable (context : Commands.Context)

theorem store_steady (args : List String) : Steady (Commands.store context args) := by
  unfold Commands.store
  cases context.session.accountId with
  | none => exact steady_ret _
  | some accountId =>
      cases context.session.selectedMailboxName with
      | none => exact steady_ret _
      | some selectedMailbox =>
          refine steady_lookup (steady_ret _) fun mailbox => follows_of_staysOn ?_
          dsimp only
          split
          · trivial
          · refine (Uses.ofExcept _).bind fun request => ?_
            refine (resolveSequenceTargets_staysOn mailbox.id _).bind fun targets => ?_
            refine (storeTargets_staysOn context accountId mailbox.id request targets).bind fun lines => ?_
            exact (refreshMailboxCounts_staysOn mailbox.id).bind fun _ => trivial

theorem expunge_steady (args : List String) : Steady (Commands.expunge context args) := by
  unfold Commands.expunge
  cases context.session.accountId with
  | none => exact steady_ret _
  | some accountId =>
      cases context.session.selectedMailboxName with
      | none => exact steady_ret _
      | some selectedMailbox =>
          refine steady_lookup (steady_ret _) fun mailbox => follows_of_staysOn ?_
          dsimp only
          split
          · trivial
          · refine (expungeSet_staysOn mailbox.id _).bind fun targets => ?_
            refine (expungeTargets_staysOn mailbox.id targets).bind fun lines => ?_
            exact (refreshMailboxCounts_staysOn mailbox.id).bind fun _ => trivial

theorem fetch_steady (args : List String) : Steady (fetch context args) := by
  unfold fetch
  cases context.session.accountId with
  | none => exact steady_ret _
  | some accountId =>
      cases context.session.selectedMailboxName with
      | none => exact steady_ret _
      | some selectedMailbox =>
          refine steady_lookup (steady_ret _) fun mailbox => follows_of_staysOn ?_
          cases args.head? with
          | none => trivial
          | some set =>
              refine (RawFetch.orPanic_uses _ (staysOn_panic mailbox.id)).bind fun items => ?_
              exact (resolveSequenceViews_staysOn mailbox.id set).bind fun _ => trivial

theorem writeRawFetchResponse_steady (command : ParsedCommand) :
    Steady (RawFetch.writeRawFetchResponse context command) := by
  unfold RawFetch.writeRawFetchResponse
  cases context.session.accountId with
  | none => exact steady_ret _
  | some accountId =>
      cases context.session.selectedMailboxName with
      | none => exact steady_ret _
      | some mailboxName =>
          refine steady_lookup (steady_ret _) fun mailbox => follows_of_staysOn ?_
          dsimp only
          generalize eqIgnoreAsciiCase command.name "UID" = isUid
          generalize command.args[if isUid = true then 1 else 0]? = set
          cases set with
          | none => trivial
          | some set =>
              refine (RawFetch.orPanic_uses _ (staysOn_panic mailbox.id)).bind fun args => ?_
              exact answerRawFetch_staysOn context accountId mailbox.id mailboxName isUid set args

theorem withViews_steady {α : Type} (searcher : Search.Searcher) (nothing : α)
    {body : Int → Row Mailbox → List MailboxMessageView → Action α}
    (stays : ∀ accountId mailbox views, (body accountId mailbox views).Uses (StaysOn mailbox.id)) :
    Steady (Search.withViews searcher nothing body) := by
  unfold Search.withViews
  cases searcher.accountId with
  | none => exact steady_ret _
  | some accountId =>
      refine steady_lookup (steady_ret _) fun mailbox => follows_of_staysOn ?_
      exact (Uses.ask (staysOn_own mailbox.id rfl rfl)).bind fun views => stays _ _ _

theorem search_steady (lib : Libraries) (tag : String) (isUid : Bool) (searcher : Search.Searcher)
    (args : List String) : Steady (search lib tag isUid searcher args) := by
  refine (steady_ofExcept _).bind fun request => Steady.bind ?_ fun results => steady_ret _
  unfold Search.executeSearch
  split
  · exact withViews_steady searcher [] fun _ mailbox views => searchViews_staysOn mailbox.id ..
  · split
    · exact steady_of_elsewhere (Uses.ask ⟨rfl, rfl⟩)
    · exact steady_ret _

/-! ### Under UID -/

theorem withUidMailbox_steady {body : Int → Row Mailbox → Action Commands.Reply}
    (follows : ∀ accountId (mailbox : Row Mailbox),
      (body accountId mailbox).Follows mailboxProtocol onward (some (some mailbox.id))) :
    Steady (Commands.withUidMailbox context body) := by
  unfold Commands.withUidMailbox
  cases context.session.accountId with
  | none => exact steady_ret _
  | some accountId =>
      cases context.session.selectedMailboxName with
      | none => exact steady_ret _
      | some selectedMailbox => exact steady_lookup (steady_ret _) fun mailbox => follows accountId mailbox

theorem uidStore_steady (args : List String) : Steady (Commands.uidStore context args) := by
  refine withUidMailbox_steady context fun accountId mailbox => follows_of_staysOn ?_
  split
  · trivial
  · refine (Uses.ofExcept _).bind fun request => ?_
    refine (resolveUidTargets_staysOn mailbox.id _).bind fun targets => ?_
    refine (uidStoreTargets_staysOn mailbox.id request targets).bind fun lines => ?_
    refine (refreshMailboxCounts_staysOn mailbox.id).bind fun _ => ?_
    refine Uses.bind (Uses.forEach fun message _ => ?_) fun _ => trivial
    exact queueFlags_staysOn context accountId mailbox.id _ _

theorem uidExpunge_steady (args : List String) : Steady (Commands.uidExpunge context args) := by
  refine withUidMailbox_steady context fun accountId mailbox => follows_of_staysOn ?_
  split
  · trivial
  · cases args[0]? with
    | none => trivial
    | some uidSet =>
        refine (Uses.ask (staysOn_own mailbox.id rfl rfl)).bind fun messages => ?_
        refine Uses.bind (Commands.numberSet_panics _ _ (staysOn_panic mailbox.id)) fun uids => ?_
        refine (expungeTargets_staysOn mailbox.id _).bind fun lines => ?_
        exact (refreshMailboxCounts_staysOn mailbox.id).bind fun _ => trivial

theorem uidFetch_steady (args : List String) :
    Steady (Commands.withUidMailbox context fun _ mailbox => uidFetch context args mailbox) := by
  refine withUidMailbox_steady context fun accountId mailbox => follows_of_staysOn ?_
  unfold uidFetch
  cases args[1]? with
  | none => trivial
  | some set =>
      refine (RawFetch.orPanic_uses _ (staysOn_panic mailbox.id)).bind fun items => ?_
      exact (resolveUidViews_staysOn mailbox.id set).bind fun _ => trivial

theorem uidSearch_steady (args : List String) :
    Steady (Commands.withUidMailbox context fun accountId _ =>
      uidSearching context args accountId search) := by
  refine withUidMailbox_steady context fun accountId mailbox => ?_
  refine Steady.bind (steady_orPanic _) (fun args => ?_) (some mailbox.id)
  exact (search_steady _ _ _ _ _).bind fun lines => steady_ret _

end Commands

/-! ## The dispatcher -/

theorem delegate_steady (request : Request) {command : Action Commands.Reply} (steady : Steady command) :
    Steady (request.delegate command) :=
  steady.bind fun _ => steady_ret _

theorem withRepository_steady (request : Request) {command : Action Commands.Reply}
    (steady : Steady command) : Steady (request.withRepository command) := by
  unfold Request.withRepository
  split
  · exact delegate_steady request steady
  · split <;> exact steady_ret _

theorem uid_steady (request : Request) {subcommand : String}
    (named : request.args.head?.map toAsciiUppercase = some subcommand)
    (steady : Steady (uidCommand request.context subcommand request.args)) : Steady (uid request) := by
  obtain ⟨first, isFirst, rfl⟩ := Option.map_eq_some_iff.mp named
  unfold uid
  rw [isFirst]
  exact withRepository_steady request steady

theorem dispatch_steady (request : Request)
    (named : request.name ∈ ["FETCH", "STORE", "SEARCH", "EXPUNGE"] ∨ request.name = "UID" ∧
      ∃ subcommand ∈ ["FETCH", "STORE", "SEARCH", "EXPUNGE"],
        request.args.head?.map toAsciiUppercase = some subcommand) : Steady (dispatch request) := by
  rcases named with named | ⟨named, subcommand, member, isSubcommand⟩
  · simp only [List.mem_cons, List.not_mem_nil, or_false] at named
    unfold dispatch
    rcases named with named | named | named | named
    · rw [named]
      exact withRepository_steady request (fetch_steady _ _)
    · rw [named]
      exact withRepository_steady request (store_steady _ _)
    · rw [named]
      change Steady (onSelected request search)
      unfold onSelected Request.withSelected
      split
      · exact steady_ret _
      · exact (search_steady _ _ _ _ _).bind fun _ => steady_ret _
    · rw [named]
      exact withRepository_steady request (expunge_steady _ _)
  · unfold dispatch
    rw [named]
    change Steady (uid request)
    refine uid_steady request isSubcommand ?_
    simp only [List.mem_cons, List.not_mem_nil, or_false] at member
    rcases member with rfl | rfl | rfl | rfl
    · exact uidFetch_steady _ _
    · exact uidStore_steady _ _
    · exact uidSearch_steady _ _
    · exact uidExpunge_steady _ _


theorem close_follows (context : Commands.Context) :
    (Commands.close context).Follows mailboxProtocol onward (some context.session.snapshotMailboxId) := by
  unfold Commands.close
  cases context.session.selectedMailboxName with
  | none => rfl
  | some selectedMailbox =>
      cases snapshot : context.session.snapshotMailboxId with
      | none => rfl
      | some mailboxId =>
          refine follows_of_staysOn (Uses.bind (Uses.forEach fun closed member => ?_) fun _ => trivial)
          obtain ⟨same, -⟩ := Option.filter_eq_some_iff.mp (Option.mem_toList.mp member)
          rw [Option.some.inj same]
          exact closeMailbox_staysOn closed

theorem follows_ret_bind {α β : Type} {p : Action α} {f : α → β} {q : Option (Option Int)}
    (follows : p.Follows mailboxProtocol onward q) :
    (p.bind fun value => .ret (f value)).Follows mailboxProtocol onward q := by
  refine follows_bind (follows.mono fun outcome q reached => ?_)
  cases outcome <;> exact reached

theorem dispatch_close (request : Request) (named : request.name = "CLOSE") :
    (dispatch request).Follows mailboxProtocol onward
      (some (request.session.selectedMailboxSnapshot.map (·.mailboxId))) := by
  unfold dispatch
  rw [named]
  change (close request).Follows mailboxProtocol onward _
  unfold close
  split
  · exact follows_ret_bind (close_follows request.context)
  · unfold Request.withSelected
    split <;> rfl

attribute [local irreducible] dispatch in
theorem respond_follows {server : Server} {session : ImapSession} {command : ParsedCommand}
    {literal : Option Bytes} {q : Option (Option Int)}
    (follows : (handleParsedCommand server session command literal).Follows mailboxProtocol onward q) :
    (respond server session command literal).Follows mailboxProtocol onward q := by
  refine follows_bind (follows_attempt (follows.mono fun outcome q reached => ?_))
  cases outcome with
  | ok response => exact reached
  | error failure =>
      dsimp only
      split <;> exact reached

attribute [local irreducible] handleParsedCommand respond in
theorem serveCommand_follows {server : Server} {connection : Connection} {input : Input}
    {q : Option (Option Int)} (plain : input.name ∉ ["STARTTLS", "AUTHENTICATE", "IDLE"])
    (follows : (serveRawFetch server connection.session input).Follows mailboxProtocol (fun outcome q' =>
      match outcome with
      | .ok none => (handleParsedCommand server connection.session input.command input.literal).Follows
          mailboxProtocol onward q'
      | _ => q'.isSome = true) q) :
    (serveCommand server connection input).Follows mailboxProtocol onward q := by
  simp only [List.mem_cons, List.not_mem_nil, or_false, not_or] at plain
  unfold serveCommand
  dsimp only
  rw [if_neg plain.1, if_neg plain.2.1, if_neg plain.2.2]
  refine follows_bind (follows.mono fun outcome q' reached => ?_)
  cases outcome with
  | error failure => exact reached
  | ok written =>
      cases written with
      | some written => exact reached
      | none => exact follows_ret_bind (respond_follows reached)

theorem serveRawFetch_steady (server : Server) (session : ImapSession) (input : Input) :
    Steady (serveRawFetch server session input) := by
  unfold serveRawFetch
  split
  · exact writeRawFetchResponse_steady _ _
  · exact steady_ret _

def SessionTask.start (task : SessionTask) : Option (Option Int) :=
  if task.onMessages then some task.selectedId else none

attribute [local irreducible] handleParsedCommand serveRawFetch in
theorem serveCommand_steady {server : Server} {connection : Connection} {input : Input} {found : Option Int}
    (plain : input.name ∉ ["STARTTLS", "AUTHENTICATE", "IDLE"])
    (dispatched : ∀ found, (handleParsedCommand server connection.session input.command input.literal).Follows
      mailboxProtocol onward (some found)) :
    (serveCommand server connection input).Follows mailboxProtocol onward (some found) := by
  refine serveCommand_follows plain ((serveRawFetch_steady ..).mono fun outcome q reached => ?_)
  obtain ⟨found, rfl⟩ := Option.isSome_iff_exists.mp reached
  cases outcome with
  | error failure => exact reached
  | ok written =>
      cases written with
      | some written => exact reached
      | none => exact dispatched found

theorem serve_onward (server : Server) (connection : Connection) (input : Input)
    (concerned : (SessionTask.mk connection (some input)).onMessages = true) :
    (serveCommand server connection input).Follows mailboxProtocol onward
      (some (SessionTask.mk connection (some input)).selectedId) := by
  simp only [SessionTask.onMessages, Option.any_some, Bool.or_eq_true, Bool.and_eq_true, beq_iff_eq,
    List.contains_eq_mem, decide_eq_true_eq, Option.any_eq_true] at concerned
  by_cases closes : input.name = "CLOSE"
  · have noRaw : serveRawFetch server connection.session input = .ret none := by
      unfold serveRawFetch
      rw [closes]
      rfl
    refine serveCommand_follows (by rw [closes]; decide) ?_
    rw [noRaw]
    exact dispatch_close ⟨server.lib, server.services, server.connection, connection.session,
      input.command.tag, input.name, input.command.args, input.literal⟩ closes
  · have named : input.name ∈ ["FETCH", "STORE", "SEARCH", "EXPUNGE"] ∨ input.name = "UID" ∧
        ∃ subcommand ∈ ["FETCH", "STORE", "SEARCH", "EXPUNGE"],
          input.command.args.head?.map toAsciiUppercase = some subcommand := by
      rcases concerned with member | ⟨uid, first, isFirst, member⟩
      · left
        simpa [closes] using member
      · exact Or.inr ⟨uid, _, member, by rw [isFirst]; rfl⟩
    have plain : input.name ∉ ["STARTTLS", "AUTHENTICATE", "IDLE"] := by
      rcases named with member | ⟨uid, -⟩
      · simp only [List.mem_cons, List.not_mem_nil, or_false] at member
        rcases member with name | name | name | name <;> rw [name] <;> decide
      · rw [uid]
        decide
    exact serveCommand_steady plain fun found => dispatch_steady _ named found

theorem recordDisconnected_steady (services : AppServices) (session : ImapSession) :
    Steady (recordDisconnected services session) :=
  steady_of_elsewhere (Uses.onlyIf fun _ => Uses.tell ⟨rfl, rfl⟩)

attribute [local irreducible] serveCommand recordDisconnected in
theorem serveRound_onward (server : Server) (task : SessionTask) (concerned : task.onMessages = true) :
    (serveRound server task.connection task.input).Follows mailboxProtocol onward (some task.selectedId) := by
  obtain ⟨connection, input⟩ := task
  cases input with
  | none => cases concerned
  | some input =>
      refine follows_bind (follows_attempt ((serve_onward server connection input concerned).mono
        fun outcome q reached => ?_))
      obtain ⟨found, rfl⟩ := Option.isSome_iff_exists.mp reached
      have recorded (condition : Bool) (session : ImapSession) :
          Steady (onlyIf condition (recordDisconnected server.services session)) := by
        cases condition with
        | true => exact recordDisconnected_steady server.services session
        | false => exact steady_ret ()
      cases outcome with
      | ok served => exact (recorded _ _).bind (fun _ => steady_ret served) found
      | error failure => exact (recorded _ _).bind (fun _ => steady_ofExcept (.error failure)) found

def ends (_ : SessionTask) (_ : Except Error Served) (_ : Option (Option Int)) : Prop := True

attribute [local irreducible] Prog.Follows in
theorem code_follows (server : Server) (pid : Nat) (task : SessionTask) :
    ((sessionSystem server).code pid task).Follows mailboxProtocol (ends task) task.start := by
  unfold SessionTask.start
  split
  · exact (serveRound_onward _ task ‹_›).mono fun _ _ _ => trivial
  · exact follows_free _ fun _ => trivial

/-! ## Runs -/

variable {server : Server}

theorem mailboxProtocol_sound (lib : Libraries) : mailboxProtocol.Sound (cacheHandler lib) :=
  fun _ _ _ _ => trivial

/-- A lookup that finds the selected mailbox, or none, leaves a command where it started. -/
theorem next_start (lib : Libraries) {task : SessionTask} {op : Op} {fault : Fault Error} {world : World}
    (finds : ∀ accountId mailboxName, op = .findMailbox accountId mailboxName →
      (!task.onMessages || (world.db.findMailbox accountId mailboxName).all fun mailbox =>
        task.selectedId == some mailbox.id) = true) :
    mailboxProtocol.next task.start op ((cacheHandler lib).answer fault op world).1 = task.start := by
  unfold SessionTask.start
  split
  · rename_i concerned
    cases op with
    | findMailbox accountId mailboxName =>
        have selected := finds accountId mailboxName rfl
        rw [concerned] at selected
        cases answered : ((cacheHandler lib).answer fault (.findMailbox accountId mailboxName) world).1 with
        | error failure => rfl
        | ok found =>
            have read : ((cacheHandler lib).exec (.findMailbox accountId mailboxName) world).1 =
                .ok found := by rw [← Handler.answer_ok answered, answered]
            obtain rfl : world.db.findMailbox accountId mailboxName = found := Except.ok.inj read
            cases found : world.db.findMailbox accountId mailboxName with
            | none => rfl
            | some mailbox =>
                rw [found] at selected
                have same : task.selectedId = some mailbox.id := by simpa using selected
                rw [same]
                rfl
    | _ => rfl
  · rfl

/-- Every command that is running is in the protocol state that it started in. -/
def AtStart (trace : List (Transition (sessionSystem server))) (c : Config (sessionSystem server)) : Prop :=
  ∀ pid task program, c.procs pid = some (task, program) →
    progress mailboxProtocol SessionTask.start trace pid = some task.start

theorem atStart_step {older : List (Transition (sessionSystem server))} {c c' : Config (sessionSystem server)}
    {event : Event (sessionSystem server)} (step : Step c event c')
    (selected : findsSelected ⟨c, event, c'⟩ = true) (started : AtStart older c) :
    AtStart (⟨c, event, c'⟩ :: older) c' := by
  intro pid task program here
  by_cases own : event.actor = some pid
  · cases step with
    | spawn free =>
        cases own
        rw [Config.set_procs, Function.update_self] at here
        cases here
        simp [progress]
    | @call caller task' op next fault here' =>
        cases own
        simp only [Function.update_self] at here
        cases here
        have reached := started _ _ _ here'
        have kept : mailboxProtocol.next task.start op
            ((cacheHandler server.lib).answer fault op c.state).1 = task.start := by
          refine next_start server.lib ?_
          rintro accountId mailboxName rfl
          exact selected
        simp only [progress, if_true, reached, Option.map_some]
        exact congrArg some kept
    | returned _ | failed _ | crash _ =>
        cases own
        rw [Config.set_procs, Function.update_self] at here
        cases here
    | disturb change => cases own
  · have before : c.procs pid = some (task, program) := by
      cases step with
      | disturb change => exact here
      | _ =>
          have ne : pid ≠ _ := fun eq => own (congrArg some eq.symm)
          simpa [Function.update_of_ne ne] using here
    rw [progress_other own]
    exact started pid task program before

theorem run_atStart {start : World} {trace : List (Transition (sessionSystem server))}
    {c : Config (sessionSystem server)} (run : Run ((sessionSystem server).idle start) trace c)
    (finds : Always (fun _ t => findsSelected t = true) trace) : AtStart trace c := by
  induction run with
  | start =>
      intro pid task program here
      cases here
  | step run step ih => exact atStart_step step finds.1 (ih finds.2)

/-- In every run of any sessions whose commands on messages find, by the name of the selected mailbox,
that mailbox or none, such a command touches the messages of the selected mailbox only. -/
theorem acts_on_selected (server : Server) (start : World)
    (trace : List (Transition (sessionSystem server))) (c : Config (sessionSystem server))
    (run : Run ((sessionSystem server).idle start) trace c)
    (finds : Always (fun _ t => findsSelected t = true) trace) :
    Always (fun _ t => actsOnSelected t = true) trace := by
  induction run with
  | start => trivial
  | @step older c event c' run step ih =>
      refine ⟨?_, ih finds.2⟩
      cases step with
      | @call pid task op next fault here =>
          obtain ⟨q, reached, allowed⟩ := run.allowed (mailboxProtocol_sound server.lib)
            (code_follows server) (.call fault here)
          rw [run_atStart run finds.2 pid task _ here] at reached
          cases reached
          simp only [actsOnSelected, Bool.or_eq_true, Bool.not_eq_true', List.all_eq_true, beq_iff_eq]
          by_cases concerned : task.onMessages = true
          · rw [SessionTask.start, if_pos concerned] at allowed
            exact Or.inr allowed
          · exact Or.inl (by simpa using concerned)
      | _ => rfl

/-! ## Two clients -/

def sampleServer : Server := ⟨Sample.libraries, ⟨.static "a" "b", ⟨5, 60000000000⟩, true, true, false⟩, 0⟩

/-- A mailbox Work and a mailbox Play, whose message is marked as deleted. -/
def workAndPlay : Config (sessionSystem sampleServer) :=
  (sessionSystem sampleServer).idle (Sample.world (Sample.db [Sample.mailbox "Work" none,
    Sample.mailbox "Play" none] [Sample.row 2 1 none ["\\Deleted"]]) (Sample.emptyServer none))

def client : Connection :=
  ⟨{ ImapSession.new 1 with state := .authenticated, authenticated := some ⟨1, some 1, "a"⟩ }, false, true⟩

def selecting (name : String) (mailboxId : Int) : Connection :=
  { client with session := { client.session with
      state := .selectedMailbox name false, selectedMailboxSnapshot := some ⟨1, mailboxId, 0⟩ } }

def command (connection : Connection) (name : String) (args : List String) : SessionTask :=
  ⟨connection, some ⟨⟨"a", name, args⟩, none, none, false, []⟩⟩

/-- What a command of a run has left its client with. -/
def servedConnections (trace : List (Transition (sessionSystem sampleServer))) : List (Nat × Connection) :=
  trace.filterMap fun t => match t.event with
    | .finish pid _ (.ok served) => some (pid, served.connection)
    | _ => none

/-- One client selects Play, the other deletes Work, and the first one expunges. -/
def deletedBeside : List (Label (sessionSystem sampleServer)) :=
  whole 0 (command client "SELECT" ["Play"]) 1 ++ whole 1 (command client "DELETE" ["Work"]) 2 ++
    [Label.spawn 0 (command (selecting "Play" 2) "EXPUNGE" [])] ++ List.replicate 3 (Label.step 0 .none)

theorem acts_on_selected_play :
    ∃ trace c, Run workAndPlay trace c ∧ (0, selecting "Play" 2) ∈ servedConnections trace ∧
      c.state.db.listMailboxMessages 2 = [] ∧ Always (fun _ t => actsOnSelected t = true) trace := by
  have evaluated : (schedule [] workAndPlay deletedBeside).map (fun run =>
      decide ((0, selecting "Play" 2) ∈ servedConnections run.1 ∧
        run.2.state.db.listMailboxMessages 2 = [] ∧
        Always (fun _ t => findsSelected t = true) run.1)) = some true := by decide +kernel
  obtain ⟨⟨trace, c⟩, followed, holds⟩ := Option.map_eq_some_iff.mp evaluated
  obtain ⟨served, gone, finds⟩ := of_decide_eq_true holds
  have run := schedule_run .start followed
  exact ⟨trace, c, run, served, gone, acts_on_selected sampleServer _ trace c run finds⟩

/-- One client selects Work, the other deletes it and renames Play to Work, and the first one expunges. -/
def renamedUnder : List (Label (sessionSystem sampleServer)) :=
  whole 0 (command client "SELECT" ["Work"]) 1 ++ whole 1 (command client "DELETE" ["Work"]) 2 ++
    whole 1 (command client "RENAME" ["Play", "Work"]) 3 ++
    [Label.spawn 0 (command (selecting "Work" 1) "EXPUNGE" [])] ++ List.replicate 3 (Label.step 0 .none)

/-- The EXPUNGE in the session of mailbox 1 removes the message of mailbox 2. -/
theorem other_mailbox_expunged :
    ∃ trace c, Run workAndPlay trace c ∧ (0, selecting "Work" 1) ∈ servedConnections trace ∧
      (workAndPlay.state.db.listMailboxMessages 2).length = 1 ∧
      c.state.db.listMailboxMessages 2 = [] ∧ ¬ Always (fun _ t => actsOnSelected t = true) trace := by
  have evaluated : (schedule [] workAndPlay renamedUnder).map (fun run =>
      decide ((0, selecting "Work" 1) ∈ servedConnections run.1 ∧
        (workAndPlay.state.db.listMailboxMessages 2).length = 1 ∧
        run.2.state.db.listMailboxMessages 2 = [] ∧
        ¬ Always (fun _ t => actsOnSelected t = true) run.1)) = some true := by decide +kernel
  obtain ⟨⟨trace, c⟩, followed, holds⟩ := Option.map_eq_some_iff.mp evaluated
  exact ⟨trace, c, schedule_run .start followed, of_decide_eq_true holds⟩

end Session
end ImapCache
