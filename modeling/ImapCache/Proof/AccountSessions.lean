import ImapCache.Model.Connection
import ImapCache.Proof.AccountCommands
import ImapCache.Proof.GrantedLogins

/-!
# Sessions within an account

Every command of a session touches only what its account holds, and leaves a session whose selected mailbox
is the account's own.
-/

namespace ImapCache.Session
open Lib Prog Commands Repository Protocol

variable {holdings : Holdings} {readOnly : Bool}

/-- The mailbox that the session has selected is one of the account. -/
def Owns (holdings : Holdings) (session : ImapSession) : Prop :=
  ∀ snapshot ∈ session.selectedMailboxSnapshot, holdings.mailbox snapshot.mailboxId

/-- The command touches what the account holds, and leaves a session that owns its mailbox. -/
def Serves (holdings : Holdings) (readOnly : Bool) (command : Action Response) : Prop :=
  Licensed holdings readOnly (fun response => Owns holdings response.session) command

theorem owns_nothing {session : ImapSession} (nothing : session.selectedMailboxSnapshot = none) :
    Owns holdings session := by
  intro snapshot is
  rw [nothing] at is
  cases is

/-! ## Searches and FETCH -/

/-- The search of a session within the account. -/
structure OwnSearcher (holdings : Holdings) (searcher : Search.Searcher) : Prop where
  account : searcher.accountId = some holdings.account
  repository : searcher.repository = true
  library : searcher.lib = holdings.lib

section Searching
variable {searcher : Search.Searcher} (own : OwnSearcher holdings searcher) (lib : Libraries) (tag : String)
  (isUid : Bool) (args : List String)
include own

theorem search_licensed : Licensed holdings readOnly (fun _ => True) (search lib tag isUid searcher args) := by
  refine (honours_ofExcept _).bind fun parsed _ => ?_
  exact (Search.executeSearch_licensed own.account own.repository _ _).bind fun _ _ => trivial

theorem sort_licensed : Licensed holdings readOnly (fun _ => True) (sort lib tag isUid searcher args) := by
  refine (honours_ofExcept _).bind fun request _ => ?_
  cases request with
  | none => trivial
  | some request => exact (Search.executeSort_licensed own.account own.repository _ _).bind fun _ _ => trivial

theorem thread_licensed : Licensed holdings readOnly (fun _ => True) (thread lib tag isUid searcher args) := by
  refine (honours_ofExcept _).bind fun request _ => ?_
  cases request with
  | none => trivial
  | some request => exact (Search.executeThread_licensed own.account own.repository own.library _ _ _).bind fun _ _ => trivial

end Searching

section Reading
variable {context : Context} (account : context.session.accountId = some holdings.account)
  (library : context.lib = holdings.lib)
include account

theorem fetch_licensed (args : List String) :
    Licensed holdings readOnly (fun _ => True) (fetch context args) := by
  unfold fetch
  rw [account]
  dsimp only
  split
  · refine finds_mailbox _ trivial fun mailbox own => ?_
    dsimp only
    split
    · refine (licensed_panic _).bind fun items _ => ?_
      exact (RawFetch.resolveSequenceViews_licensed own _).bind fun _ _ => trivial
    · trivial
  · trivial

omit account in
theorem uidFetch_licensed (args : List String) {mailbox : Row Mailbox} (own : holdings.mailbox mailbox.id) :
    Licensed holdings readOnly (fun _ => True) (uidFetch context args mailbox) := by
  unfold uidFetch
  split
  · refine (licensed_panic _).bind fun items _ => ?_
    exact (RawFetch.resolveUidViews_licensed own _).bind fun _ _ => trivial
  · trivial

omit account in
include library in
theorem uidSearching_licensed (args : List String)
    {body : Libraries → String → Bool → Search.Searcher → List String → Action (List String)}
    (licensed : ∀ searcher, OwnSearcher holdings searcher → ∀ lib tag isUid args,
      Licensed holdings readOnly (fun _ => True) (body lib tag isUid searcher args)) :
    Licensed holdings readOnly (fun _ => True) (uidSearching context args holdings.account body) := by
  refine (licensed_panic _).bind fun args _ => ?_
  exact (licensed _ ⟨rfl, rfl, library⟩ ..).bind fun _ _ => trivial

include library in
theorem uidCommand_licensed (mode : readOnly = context.session.isReadOnly) (subcommand : String)
    (args : List String) :
    Licensed holdings readOnly (fun _ => True) (uidCommand context subcommand args) := by
  unfold uidCommand
  split
  case h_1 => exact withUidMailbox_licensed account fun _ own => uidFetch_licensed args own
  case h_2 => exact withUidMailbox_licensed account fun _ _ => uidSearching_licensed library args fun _ => search_licensed
  case h_3 => exact withUidMailbox_licensed account fun _ _ => uidSearching_licensed library args fun _ => sort_licensed
  case h_4 => exact withUidMailbox_licensed account fun _ _ => uidSearching_licensed library args fun _ => thread_licensed
  case h_5 | h_6 => exact uidTransfer_licensed account mode _ _
  case h_7 => exact uidExpunge_licensed account mode _
  case h_8 => exact uidStore_licensed account mode _
  case h_9 => exact withUidMailbox_licensed account fun _ _ => trivial

end Reading

/-! ## Commands -/

section Commands
variable {request : Request} (account : request.session.accountId = some holdings.account)
  (owns : Owns holdings request.session) (mode : readOnly = request.context.session.isReadOnly)
  (repository : request.services.repository = true) (library : request.lib = holdings.lib)

section Owning
include owns

theorem delegate_serves {command : Action Reply} (licensed : Licensed holdings readOnly (fun _ => True) command) :
    Serves holdings readOnly (request.delegate command) := by
  refine licensed.bind fun reply _ snapshot is => ?_
  change (if reply.session.snapshotMailboxId.isNone then none else request.session.selectedMailboxSnapshot) =
    some snapshot at is
  split at is
  · cases is
  · exact owns snapshot is

theorem withSelected_serves {body : String → Action Response}
    (serves : ∀ mailbox, Serves holdings readOnly (body mailbox)) :
    Serves holdings readOnly (request.withSelected body) := by
  unfold Request.withSelected
  split
  · exact owns
  · exact serves _

include repository in
theorem withRepository_serves {command : Action Reply}
    (licensed : Licensed holdings readOnly (fun _ => True) command) :
    Serves holdings readOnly (request.withRepository command) := by
  unfold Request.withRepository
  rw [if_pos repository]
  exact delegate_serves owns licensed

theorem starttls_serves : Serves holdings readOnly (starttls request) := by
  unfold starttls
  split
  · exact owns
  · split
    · exact owns
    · split <;> exact owns

theorem enable_serves : Serves holdings readOnly (enable request) := by
  unfold enable
  split <;> exact owns

theorem condstore_serves : Serves holdings readOnly (condstore request) := by
  unfold condstore
  split <;> exact owns

include account repository in
theorem onMailbox_serves {body : Int → String → Action Response}
    (serves : ∀ name, Serves holdings readOnly (body holdings.account name)) :
    Serves holdings readOnly (onMailbox request body) := by
  unfold onMailbox Request.withAccount
  rw [if_pos repository, account]
  dsimp only
  split
  · exact owns
  · exact serves _

end Owning

include account owns repository

/-! ### Mailboxes -/

theorem select_serves (examine : Bool) : Serves holdings readOnly (select request examine) := by
  unfold select
  rw [if_pos repository, account]
  refine finds_mailbox _ owns fun mailbox own => ?_
  rintro _ ⟨⟩
  exact own

theorem list_serves : Serves holdings readOnly (list request) := by
  unfold list Request.withAccount
  rw [if_pos repository, account]
  refine honours_ask_bind (permits_account rfl rfl rfl rfl trivial) fun mailboxes _ => ?_
  refine honours_bind ?_ fun parsed => owns
  exact (licensed_panic _).bind fun outcome _ => (honours_ofExcept _).mono fun _ _ => trivial

theorem status_serves : Serves holdings readOnly (status request) := by
  unfold status Request.withAccount
  rw [if_pos repository, account]
  refine finds_mailbox _ owns fun mailbox own => ?_
  refine honours_bind ?_ fun items => owns
  exact (licensed_panic _).bind fun args _ => (honours_ofExcept _).mono fun _ _ => trivial

theorem create_serves : Serves holdings readOnly (create request) := by
  refine onMailbox_serves account owns repository fun name => ?_
  refine (createMailbox_licensed rfl).bind fun created _ => ?_
  cases created <;> exact owns

theorem delete_serves : Serves holdings readOnly (delete request) := by
  refine onMailbox_serves account owns repository fun name => ?_
  refine (deleteMailbox_licensed name).bind fun rows _ => ?_
  split <;> exact owns

theorem subscribe_serves : Serves holdings readOnly (subscribe request) := by
  refine onMailbox_serves account owns repository fun name => ?_
  refine (setMailboxSubscribed_licensed name _).bind fun updated _ => ?_
  cases updated <;> exact owns

theorem rename_serves : Serves holdings readOnly (rename request) := by
  unfold rename Request.withAccount
  rw [if_pos repository, account]
  dsimp only
  split
  · split
    · refine (renameMailbox_licensed _ _).bind fun found _ => ?_
      cases found with
      | none => exact owns
      | some mailbox =>
          intro snapshot is
          refine owns snapshot ?_
          unfold renamed at is
          split at is
          · split at is <;> exact is
          · exact is
    · exact owns
  · exact owns

/-! ### Searches -/

include library in
theorem onSelected_serves
    {body : Libraries → String → Bool → Search.Searcher → List String → Action (List String)}
    (licensed : ∀ searcher, OwnSearcher holdings searcher → ∀ lib tag isUid args,
      Licensed holdings readOnly (fun _ => True) (body lib tag isUid searcher args)) :
    Serves holdings readOnly (onSelected request body) := by
  refine withSelected_serves owns fun mailbox => ?_
  exact (licensed (request.searcher mailbox) ⟨account, repository, library⟩ ..).bind fun _ _ => owns

/-! ### The dispatcher -/

theorem append_serves : Serves holdings readOnly (append request) := by
  unfold append
  rw [if_pos (by simp [repository])]
  exact delegate_serves owns (append_licensed account _ _)

include mode

include library in
theorem uid_serves : Serves holdings readOnly (uid request) := by
  unfold uid
  split
  · exact owns
  · exact withRepository_serves owns repository (uidCommand_licensed account library mode _ _)

omit account in
theorem close_serves : Serves holdings readOnly (close request) := by
  unfold close
  rw [if_pos repository]
  refine delegate_serves owns (close_licensed mode ?_)
  intro mailboxId is
  obtain ⟨snapshot, selected, rfl⟩ := Option.map_eq_some_iff.mp is
  exact owns snapshot selected

include library in
theorem dispatch_serves (other : request.name ≠ "LOGIN") : Serves holdings readOnly (dispatch request) := by
  have answers (lines : List String) (text : String) :
      Serves holdings readOnly (request.withSelected fun _ => request.reply (lines ++ [ok request.tag text])) :=
    withSelected_serves owns fun _ => owns
  unfold dispatch
  dsimp only
  split
  case h_3 => exact owns_nothing rfl
  case h_4 named => exact absurd named other
  case h_5 => exact starttls_serves owns
  case h_6 | h_7 => exact select_serves account owns repository _
  case h_8 | h_9 => exact list_serves account owns repository
  case h_10 => exact status_serves account owns repository
  case h_11 => exact onSelected_serves account owns repository library fun _ => search_licensed
  case h_12 => exact onSelected_serves account owns repository library fun _ => sort_licensed
  case h_13 => exact onSelected_serves account owns repository library fun _ => thread_licensed
  case h_14 => exact withRepository_serves owns repository (fetch_licensed account _)
  case h_15 => exact withRepository_serves owns repository (store_licensed account mode _)
  case h_16 => exact uid_serves account owns mode repository library
  case h_17 => exact append_serves account owns repository
  case h_18 | h_19 => exact answers _ _
  case h_20 => exact withSelected_serves owns fun _ => owns_nothing rfl
  case h_21 => exact close_serves owns mode repository
  case h_22 => exact withRepository_serves owns repository (expunge_licensed account mode _)
  case h_23 => exact create_serves account owns repository
  case h_24 => exact delete_serves account owns repository
  case h_25 => exact rename_serves account owns repository
  case h_26 | h_27 => exact subscribe_serves account owns repository
  case h_28 | h_29 => exact withRepository_serves owns repository (transfer_licensed account mode _ _)
  case h_32 => exact enable_serves owns
  case h_33 => exact condstore_serves owns
  all_goals exact owns

end Commands

/-! ## IDLE -/

section Idle
variable {session : ImapSession} {snapshot : SelectedMailboxSnapshot}

theorem withExists_owns (owns : Owns holdings session) (existsCount : Int) :
    Owns holdings (withExists session existsCount) := by
  intro snapshot is
  obtain ⟨before, selected, rfl⟩ := Option.map_eq_some_iff.mp is
  exact owns before selected

section Notifications
variable (owns : Owns holdings session) (own : holdings.mailbox snapshot.mailboxId)

include own in
theorem countMessages_licensed :
    Licensed holdings readOnly (fun _ => True) (countMessages snapshot.mailboxId) :=
  honours_ask_bind (permits_mailbox rfl own rfl rfl rfl fun _ => trivial) fun _ _ => trivial

include owns own

theorem existsNotification_licensed : Licensed holdings readOnly (fun notified => Owns holdings notified.2)
    (existsNotification session snapshot) := by
  refine (countMessages_licensed own).bind fun existsCount _ => ?_
  split
  · exact withExists_owns owns _
  · split
    · exact withExists_owns owns _
    · exact owns

theorem flagsNotification_licensed (event : MutationEvent) :
    Licensed holdings readOnly (fun found => ∀ notified ∈ found, Owns holdings notified.2)
      (flagsNotification session snapshot event) := by
  unfold flagsNotification
  split
  · refine honours_bind ?_ fun sequence => ?_
    · exact honours_ask_bind (permits_mailbox rfl own rfl rfl rfl fun _ => trivial) fun _ _ => trivial
    · cases sequence with
      | none => exact fun notified absent => by cases absent
      | some sequence =>
          refine (countMessages_licensed own).bind fun existsCount _ => ?_
          rintro _ ⟨⟩
          exact withExists_owns owns _
  · exact fun notified absent => by cases absent

theorem selectedNotification_licensed (event : MutationEvent) :
    Licensed holdings readOnly (fun notified => Owns holdings notified.2)
      (selectedNotification session snapshot event) := by
  have unchanged : Licensed holdings readOnly (fun notified => Owns holdings notified.2)
      (existsNotification session snapshot) := existsNotification_licensed owns own
  unfold selectedNotification
  split
  · refine (countMessages_licensed own).bind fun existsCount _ => ?_
    exact withExists_owns owns _
  · dsimp only
    split
    · refine (flagsNotification_licensed owns own event).bind fun found notified => ?_
      cases found with
      | none => exact unchanged
      | some found => exact notified found rfl
    · exact unchanged

end Notifications

theorem idleNotificationForEvent_licensed (owns : Owns holdings session) (server : Server)
    (event : MutationEvent) :
    Licensed holdings readOnly (fun notified => Owns holdings notified.2)
      (idleNotificationForEvent server session event) := by
  unfold idleNotificationForEvent
  split
  · exact owns
  · rename_i snapshot selected
    split
    · exact selectedNotification_licensed owns (owns snapshot selected) event
    · exact owns

theorem handleIdle_serves (server : Server) (tag : String) (inputs : List IdleInput)
    (owns : Owns holdings session) : Serves holdings readOnly (handleIdle server tag session inputs) := by
  have stops (session : ImapSession) (owns : Owns holdings session) (lines : List String) :
      Serves holdings readOnly (pure ⟨lines, session⟩) := owns
  induction inputs generalizing session with
  | nil => exact stops session owns []
  | cons input inputs ih =>
      cases input with
      | line text =>
          rw [handleIdle]
          generalize eqIgnoreAsciiCase (String.ofList (trimLineEnd text.toList)) "DONE" = done
          cases done with
          | true => exact stops session owns _
          | false => exact ih owns
      | timeout =>
          rw [handleIdle]
          exact stops session owns _
      | event event =>
          rw [handleIdle]
          refine (idleNotificationForEvent_licensed owns server event).bind fun notified owns => ?_
          exact (ih owns).bind fun rest owns => owns
      | lagged =>
          rw [handleIdle]
          exact ih owns
      | closed =>
          rw [handleIdle]
          exact stops session owns []

end Idle

/-! ## Connections -/

section Connections
variable {server : Server} (library : server.lib = holdings.lib) (repository : server.services.repository = true)
include library repository

attribute [local irreducible] dispatch in
theorem respond_serves {session : ImapSession} {command : ParsedCommand} {literal : Option Bytes}
    (account : session.accountId = some holdings.account) (owns : Owns holdings session)
    (mode : readOnly = session.view.isReadOnly) (other : toAsciiUppercase command.name ≠ "LOGIN") :
    Serves holdings readOnly (respond server session command literal) := by
  have dispatched : Serves holdings readOnly (handleParsedCommand server session command literal) :=
    dispatch_serves account owns mode repository library other
  refine (Honours.attempt dispatched).bind fun outcome serves => ?_
  cases outcome with
  | ok response => exact serves response rfl
  | error failure =>
      dsimp only
      split
      · exact owns
      · trivial

attribute [local irreducible] respond in
/-- A command that a session with an account is served touches only what the account holds, if it is not a
login. -/
theorem serveCommand_serves {connection : Connection} {input : Input}
    (other : input.name ≠ "LOGIN" ∧ input.name ≠ "AUTHENTICATE")
    (account : connection.session.accountId = some holdings.account) (owns : Owns holdings connection.session)
    (mode : readOnly = connection.session.view.isReadOnly) :
    Licensed holdings readOnly (fun served => Owns holdings served.connection.session)
      (serveCommand server connection input) := by
  unfold serveCommand
  dsimp only
  rw [if_neg other.2]
  split
  · unfold serveStarttls
    dsimp only
    split
    · exact owns
    · split
      · split
        · exact owns
        · trivial
      · exact owns
  · split
    · exact (handleIdle_serves server _ _ owns).bind fun response owns => owns
    · refine honours_bind ?_ fun written => ?_
      · unfold serveRawFetch
        split
        · exact RawFetch.writeRawFetchResponse_licensed library account _
        · trivial
      · cases written with
        | some written => exact owns
        | none => exact (respond_serves library repository account owns mode other.1).bind fun response owns => owns

end Connections
end ImapCache.Session
