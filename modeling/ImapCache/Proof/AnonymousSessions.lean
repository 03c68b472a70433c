import ImapCache.Proof.ClientSessions
import ImapCache.Proof.Footprints

/-!
# Sessions without an account

Before a login, and after a login to no account, a session reaches nothing but the authenticator. It may
select a mailbox, which is made up, and every command on that mailbox ends before its first call.
-/

namespace ImapCache.Session
open Lib Prog System

/-- The session has no account, and the mailbox it has selected, if any, is made up. -/
structure Anonymous (session : ImapSession) : Prop where
  account : session.accountId = none
  snapshot : ∀ snapshot ∈ session.selectedMailboxSnapshot, snapshot.mailboxId = 0

def Isolated {α : Type} (p : Action α) : Prop := p.Uses fun op : Op => ∃ reason, op = .panic reason

theorem isolated_orPanic {α : Type} (value : Except Panic α) : Isolated (orPanic value) :=
  RawFetch.orPanic_uses value fun reason => ⟨reason, rfl⟩

section Commands
variable {request : Request}

theorem withAccount_isolated {without : Action Response} {body : Int → Action Response}
    (account : request.session.accountId = none) (isolated : Isolated without) :
    Isolated (request.withAccount without body) := by
  unfold Request.withAccount
  rw [account]
  split
  · trivial
  · exact isolated

theorem onMailbox_isolated {body : Int → String → Action Response}
    (account : request.session.accountId = none) : Isolated (onMailbox request body) :=
  withAccount_isolated account trivial

theorem delegate_isolated {command : Action Commands.Reply} (isolated : Isolated command) :
    Isolated (request.delegate command) := Uses.bind isolated fun _ => trivial

theorem withRepository_isolated {command : Action Commands.Reply} (isolated : Isolated command) :
    Isolated (request.withRepository command) := by
  unfold Request.withRepository
  split
  · exact delegate_isolated isolated
  · split <;> trivial

theorem withUidMailbox_isolated {context : Commands.Context} {body : Int → Row Mailbox → Action Commands.Reply}
    (account : context.session.accountId = none) : Isolated (Commands.withUidMailbox context body) := by
  unfold Commands.withUidMailbox
  rw [account]
  trivial

theorem uidCommand_isolated {context : Commands.Context} (account : context.session.accountId = none)
    (subcommand : String) (args : List String) : Isolated (uidCommand context subcommand args) := by
  unfold uidCommand
  split <;> exact withUidMailbox_isolated account

theorem select_isolated (account : request.session.accountId = none) (readOnly : Bool) :
    Isolated (select request readOnly) := by
  unfold select
  rw [account]
  split
  · trivial
  · rename_i isAccount
    split at isAccount <;> cases isAccount

theorem withViews_isolated {α : Type} {searcher : Search.Searcher} {nothing : α}
    {body : Int → Row Mailbox → List MailboxMessageView → Action α} (account : searcher.accountId = none) :
    Isolated (Search.withViews searcher nothing body) := by
  unfold Search.withViews
  rw [account]
  trivial

theorem onSelected_isolated
    {body : Libraries → String → Bool → Search.Searcher → List String → Action (List String)}
    (isolated : ∀ mailbox, Isolated (body request.lib request.tag false (request.searcher mailbox) request.args)) :
    Isolated (onSelected request body) := by
  unfold onSelected Request.withSelected
  split
  · trivial
  · exact Uses.bind (isolated _) fun _ => trivial

section Searching
variable {searcher : Search.Searcher} (repository : searcher.repository = true)
  (account : searcher.accountId = none) (lib : Libraries) (tag : String) (isUid : Bool) (args : List String)
include repository account

theorem search_isolated : Isolated (search lib tag isUid searcher args) := by
  refine (Uses.ofExcept _).bind fun parsed => Uses.bind ?_ fun _ => trivial
  unfold Search.executeSearch
  rw [if_pos repository]
  exact withViews_isolated account

theorem sort_isolated : Isolated (sort lib tag isUid searcher args) := by
  refine (Uses.ofExcept _).bind fun request => ?_
  cases request with
  | none => trivial
  | some request =>
      refine Uses.bind ?_ fun _ => trivial
      unfold Search.executeSort
      rw [if_pos repository]
      exact withViews_isolated account

theorem thread_isolated : Isolated (thread lib tag isUid searcher args) := by
  refine (Uses.ofExcept _).bind fun request => ?_
  cases request with
  | none => trivial
  | some request =>
      refine Uses.bind ?_ fun _ => trivial
      unfold Search.executeThread
      rw [if_pos repository]
      exact withViews_isolated account

end Searching

theorem close_isolated (anonymous : Anonymous request.session) : Isolated (close request) := by
  unfold close
  split
  · refine delegate_isolated ?_
    unfold Commands.close
    split
    · refine Uses.bind (Uses.forEach fun mailboxId member => ?_) fun _ => trivial
      have closes := (Option.filter_eq_some_iff.mp (Option.mem_toList.mp member))
      obtain ⟨snapshot, is, rfl⟩ := Option.map_eq_some_iff.mp closes.1
      have positive := closes.2
      rw [anonymous.snapshot snapshot is] at positive
      simp at positive
    · trivial
  · unfold Request.withSelected
    split <;> trivial

theorem starttls_isolated : Isolated (starttls request) := by
  unfold starttls
  split
  · trivial
  · split
    · trivial
    · split <;> trivial

theorem status_isolated (account : request.session.accountId = none) : Isolated (status request) := by
  refine withAccount_isolated account (Uses.bind ?_ fun items => trivial)
  exact Uses.bind (isolated_orPanic _) fun args => Uses.ofExcept _

theorem fetch_isolated {context : Commands.Context} (account : context.session.accountId = none)
    (args : List String) : Isolated (fetch context args) := by
  unfold fetch
  rw [account]
  trivial

theorem store_isolated {context : Commands.Context} (account : context.session.accountId = none)
    (args : List String) : Isolated (Commands.store context args) := by
  unfold Commands.store
  rw [account]
  trivial

theorem expunge_isolated {context : Commands.Context} (account : context.session.accountId = none)
    (args : List String) : Isolated (Commands.expunge context args) := by
  unfold Commands.expunge
  rw [account]
  trivial

theorem transfer_isolated {context : Commands.Context} (account : context.session.accountId = none)
    (move : Bool) (args : List String) : Isolated (Commands.transfer context move args) := by
  unfold Commands.transfer
  rw [account]
  trivial

theorem append_isolated (account : request.session.accountId = none) : Isolated (append request) := by
  unfold append
  split
  · refine delegate_isolated ?_
    unfold Commands.append
    rw [show request.context.session.accountId = none from account]
    trivial
  · trivial

theorem uid_isolated (account : request.session.accountId = none) : Isolated (uid request) := by
  unfold uid
  split
  · trivial
  · exact withRepository_isolated (uidCommand_isolated account _ _)

theorem unselect_isolated : Isolated (unselect request) := by
  unfold unselect Request.withSelected
  split <;> trivial

theorem enable_isolated : Isolated (enable request) := by
  unfold enable
  split <;> trivial

theorem condstore_isolated : Isolated (condstore request) := by
  unfold condstore
  split <;> trivial

theorem dispatch_isolated (request : Request) (repository : request.services.repository = true)
    (other : request.name ≠ "LOGIN") (anonymous : Anonymous request.session) : Isolated (dispatch request) := by
  have account := anonymous.account
  have answers (lines : List String) (text : String) :
      Isolated (request.withSelected fun _ => request.reply (lines ++ [Commands.ok request.tag text])) := by
    unfold Request.withSelected
    split <;> trivial
  unfold dispatch
  dsimp only
  split
  case h_4 named => exact absurd named other
  case h_5 => exact starttls_isolated
  case h_6 | h_7 => exact select_isolated account _
  case h_8 | h_9 => exact withAccount_isolated account trivial
  case h_10 => exact status_isolated account
  case h_11 => exact onSelected_isolated fun _ => search_isolated repository account ..
  case h_12 => exact onSelected_isolated fun _ => sort_isolated repository account ..
  case h_13 => exact onSelected_isolated fun _ => thread_isolated repository account ..
  case h_14 => exact withRepository_isolated (fetch_isolated account _)
  case h_15 => exact withRepository_isolated (store_isolated account _)
  case h_16 => exact uid_isolated account
  case h_17 => exact append_isolated account
  case h_18 | h_19 => exact answers _ _
  case h_20 => exact unselect_isolated
  case h_21 => exact close_isolated anonymous
  case h_22 => exact withRepository_isolated (expunge_isolated account _)
  case h_23 | h_24 | h_26 | h_27 => exact onMailbox_isolated account
  case h_25 => exact withAccount_isolated account trivial
  case h_28 | h_29 => exact withRepository_isolated (transfer_isolated account _ _)
  case h_32 => exact enable_isolated
  case h_33 => exact condstore_isolated
  all_goals trivial

end Commands

/-! ## Connections -/

section Rounds
variable (lib : Libraries) (services : AppServices) (known : Knowledge cacheSignature)

/-- What a round of a session without an account asks for: what its session needs, and during IDLE the messages
of the mailbox that is made up. -/
inductive AnonymousUse (session : ImapSession) (input : Option Input) : Op → Prop where
  | session {op : Op} (use : SessionUse lib services known session input op) : AnonymousUse session input op
  | idle {command : Input} (is : input = some command) (named : command.name = "IDLE") :
      AnonymousUse session input (.listMailboxMessages 0)
  | panic (reason : Panic) : AnonymousUse session input (.panic reason)

variable {server : Server} {known}

theorem idle_anonymous (tag : String) {session : ImapSession} (inputs : List IdleInput)
    (anonymous : ∀ snapshot ∈ session.selectedMailboxSnapshot, snapshot.mailboxId = 0) :
    (handleIdle server tag session inputs).Uses fun op : Op => op = .listMailboxMessages 0 := by
  have counts {snapshot : SelectedMailboxSnapshot} (madeUp : snapshot.mailboxId = 0) :
      (countMessages snapshot.mailboxId).Uses fun op : Op => op = .listMailboxMessages 0 :=
    Uses.bind (Uses.ask (by rw [madeUp])) fun _ => trivial
  have notified (session : ImapSession) (event : MutationEvent)
      (anonymous : ∀ snapshot ∈ session.selectedMailboxSnapshot, snapshot.mailboxId = 0) :
      (idleNotificationForEvent server session event).Uses fun op : Op => op = .listMailboxMessages 0 := by
    unfold idleNotificationForEvent
    cases is : session.selectedMailboxSnapshot with
    | none => trivial
    | some snapshot =>
        have madeUp := anonymous snapshot is
        have exists' : (existsNotification session snapshot).Uses
            fun op : Op => op = .listMailboxMessages 0 := by
          refine (counts madeUp).bind fun count => ?_
          split
          · trivial
          · split <;> trivial
        have flags : (flagsNotification session snapshot event).Uses
            fun op : Op => op = .listMailboxMessages 0 := by
          unfold flagsNotification
          split
          · refine Uses.bind (Uses.bind (Uses.ask (by rw [madeUp])) fun _ => trivial) fun sequence => ?_
            cases sequence with
            | none => trivial
            | some sequence => exact (counts madeUp).bind fun _ => trivial
          · trivial
        dsimp only
        split
        · unfold selectedNotification
          split
          · exact (counts madeUp).bind fun _ => trivial
          · dsimp only
            split
            · refine flags.bind fun found => ?_
              cases found with
              | none => exact exists'
              | some found => trivial
            · exact exists'
        · trivial
  induction inputs generalizing session with
  | nil => trivial
  | cons input inputs ih =>
      have stops (lines : List String) : (pure ⟨lines, session⟩ : Action Response).Uses
          fun op : Op => op = .listMailboxMessages 0 := trivial
      cases input with
      | line text =>
          rw [handleIdle]
          generalize eqIgnoreAsciiCase (String.ofList (Protocol.trimLineEnd text.toList)) "DONE" = done
          cases done with
          | true => exact stops _
          | false => exact ih anonymous
      | timeout =>
          rw [handleIdle]
          exact stops _
      | lagged =>
          rw [handleIdle]
          exact ih anonymous
      | closed =>
          rw [handleIdle]
          exact stops _
      | event event =>
          rw [handleIdle]
          refine (notified session event anonymous).bind_returns
            (idleNotificationForEvent_recounts server session event) fun found recounted => ?_
          refine (ih fun snapshot is => ?_).bind fun rest => trivial
          rcases recounted with same | ⟨count, recounted⟩
          · exact anonymous snapshot (same ▸ is)
          · rw [recounted] at is
            obtain ⟨before, wasThere, rfl⟩ := Option.map_eq_some_iff.mp is
            exact anonymous before wasThere

attribute [local irreducible] respond dispatch in
theorem serveCommand_isolated (repository : server.services.repository = true) {connection : Connection}
    (anonymous : Anonymous connection.session) {input : Input}
    (other : input.name ∉ ["LOGIN", "AUTHENTICATE", "IDLE"]) : Isolated (serveCommand server connection input) := by
  simp only [List.mem_cons, List.not_mem_nil, or_false, not_or] at other
  unfold serveCommand
  dsimp only
  rw [if_neg other.2.1, if_neg other.2.2]
  split
  · unfold serveStarttls
    dsimp only
    split
    · trivial
    · split
      · split <;> trivial
      · trivial
  · have raw : serveRawFetch server connection.session input = pure none := by
      unfold serveRawFetch
      split
      · unfold RawFetch.writeRawFetchResponse
        rw [show connection.session.view.accountId = none from anonymous.account]
      · rfl
    rw [raw, pure_eq, bind_eq, ret_bind]
    have dispatched : Isolated (handleParsedCommand server connection.session input.command input.literal) :=
      dispatch_isolated _ repository other.1 anonymous
    have answered : Isolated (respond server connection.session input.command input.literal) := by
      unfold respond
      refine dispatched.attempt.bind fun outcome => ?_
      cases outcome with
      | ok response => trivial
      | error failure =>
          dsimp only
          split <;> trivial
    exact answered.bind fun response => trivial

theorem serveCommand_anonymous (repository : server.services.repository = true) {connection : Connection}
    (anonymous : Anonymous connection.session) (input : Input) :
    (serveCommand server connection input).Honours
      ⟨AnonymousUse server.lib server.services known connection.session (some input), known⟩ fun _ => True := by
  by_cases login : input.name = "LOGIN" ∨ input.name = "AUTHENTICATE"
  · exact (serveCommand_logs_in login).weaken (fun op use => .session use) fun _ _ _ => id
  · by_cases idle : input.name = "IDLE"
    · have listing : (serveCommand server connection input).Uses fun op : Op => op = .listMailboxMessages 0 := by
        unfold serveCommand
        dsimp only
        rw [idle, if_neg (by decide), if_neg (by decide), if_pos rfl]
        exact (idle_anonymous _ _ anonymous.snapshot).bind fun response => trivial
      refine (listing.mono ?_).honours
      rintro _ rfl
      exact .idle rfl idle
    · have isolated : Isolated (serveCommand server connection input) :=
        serveCommand_isolated repository anonymous (by simpa [not_or, idle] using login)
      refine (Uses.mono isolated ?_).honours
      rintro _ ⟨reason, rfl⟩
      exact .panic reason

end Rounds

variable {server : Server}

/-- What the process of a round asks for if its session has no account. -/
def anonymousCalls (trace : List (Transition (sessionSystem server))) (pid : Nat) (task : SessionTask) (op : Op) :
    Prop :=
  Anonymous task.connection.session →
    AnonymousUse server.lib server.services (answered trace pid task) task.connection.session task.input op

theorem code_anonymous (repository : server.services.repository = true)
    (trace : List (Transition (sessionSystem server))) (pid : Nat) (task : SessionTask) :
    ((sessionSystem server).code pid task).Honours ⟨anonymousCalls trace pid task, answered trace pid task⟩
      fun _ => True := by
  by_cases anonymous : Anonymous task.connection.session
  · have serves (command : Input) (is : command ∈ task.input) :
        (serveCommand { server with connection := pid } task.connection command).Honours
          ⟨anonymousCalls trace pid task, answered trace pid task⟩ fun _ => True := by
      have honours := @serveCommand_anonymous (answered trace pid task) { server with connection := pid }
        repository task.connection anonymous command
      refine honours.weaken (fun op use _ => ?_) fun _ _ _ => id
      rw [is]
      exact use
    exact serveRound_honours (fun _ => .session .disconnect) trivial serves
  · exact (uses_any (fun op is => absurd is anonymous) _).honours

theorem anonymous_use {start : World} {trace : List (Transition (sessionSystem server))}
    {c : Config (sessionSystem server)} (run : Run (idle (sessionSystem server) start) trace c)
    (repository : server.services.repository = true) {history : List Exchange} {connection : Connection}
    (client : Client trace history connection) (account : connection.session.accountId = none)
    {t : Transition (sessionSystem server)} (member : t ∈ trace) {pid : Nat} {input : Option Input} {op : Op}
    {fault : Fault Error} (event : t.event = .call pid ⟨connection, input⟩ op fault) :
    AnonymousUse server.lib server.services (answered trace pid ⟨connection, input⟩) connection.session input
      op := by
  have kept := run.honours_answered (code_anonymous repository trace) t member
  exact kept.1 pid ⟨connection, input⟩ op fault event ⟨account, (settled_of_client run client).synthetic account⟩

end ImapCache.Session
