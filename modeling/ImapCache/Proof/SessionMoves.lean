import ImapCache.Proof.GrantedLogins
import ImapCache.Proof.KeptSessions

/-!
# What a command does to its session

All ways in which a command can change the session that it is sent in. Every other property of sessions
follows from these, whatever else happens to the world while the command is handled.
-/

namespace ImapCache.Session
open Lib Prog Protocol

/-! ## Commands that keep their session -/

section Staying
variable {request : Request}

/-- The command answers for the session that it was sent in. -/
def Stays (request : Request) (command : Action Response) : Prop :=
  command.Returns fun response => response.session = request.session

theorem stays_reply (lines : List String) : Stays request (request.reply lines) := rfl

theorem stays_bind {α : Type} (p : Action α) {f : α → Action Response} (rest : ∀ value, Stays request (f value)) :
    Stays request (p.bind f) :=
  (returns_any p).bind fun value _ => rest value

theorem stays_ask {op : Op} {f : op.Ret → Action Response} (rest : ∀ value, Stays request (f value)) :
    Stays request ((await op).bind f) := stays_bind _ rest

theorem adopt_view (session : ImapSession) : session.adopt session.view = session := by
  obtain ⟨state, authenticated, connectionId, remoteAddr, created, snapshot, starttlsAvailable, tlsActive⟩ := session
  cases snapshot <;> rfl

theorem delegate_stays {command : Action Commands.Reply} (keeps : Commands.Keeps request.context command) :
    Stays request (request.delegate command) := by
  refine keeps.bind fun reply same => ?_
  have adopted : request.session.adopt reply.session = request.session := by
    rw [same]
    exact adopt_view request.session
  exact adopted

theorem withRepository_stays {command : Action Commands.Reply}
    (keeps : Commands.Keeps request.context command) : Stays request (request.withRepository command) := by
  unfold Request.withRepository
  split
  · exact delegate_stays keeps
  · split <;> exact stays_reply _

theorem withAccount_stays {without : Action Response} {body : Int → Action Response}
    (absent : Stays request without) (stays : ∀ accountId, Stays request (body accountId)) :
    Stays request (request.withAccount without body) := by
  unfold Request.withAccount
  split
  · split
    · exact stays_reply _
    · exact stays _
  · exact absent

theorem withSelected_stays {body : String → Action Response} (stays : ∀ mailbox, Stays request (body mailbox)) :
    Stays request (request.withSelected body) := by
  unfold Request.withSelected
  split
  · exact stays_reply _
  · exact stays _

theorem onMailbox_stays {body : Int → String → Action Response}
    (stays : ∀ accountId name, Stays request (body accountId name)) : Stays request (onMailbox request body) := by
  refine withAccount_stays (stays_reply _) fun accountId => ?_
  split
  · exact stays_reply _
  · exact stays _ _

theorem list_stays : Stays request (list request) :=
  withAccount_stays (stays_reply _) fun _ => stays_ask fun _ => stays_bind _ fun _ => stays_reply _

theorem status_stays : Stays request (status request) := by
  refine withAccount_stays (stays_bind _ fun _ => stays_reply _) fun accountId => stays_ask fun mailbox => ?_
  split
  · exact stays_bind _ fun _ => stays_reply _
  · exact stays_reply _

theorem create_stays : Stays request (create request) := by
  refine onMailbox_stays fun accountId name => stays_bind _ fun created => ?_
  split <;> exact stays_reply _

theorem delete_stays : Stays request (delete request) := by
  refine onMailbox_stays fun accountId name => stays_bind _ fun rows => ?_
  split <;> exact stays_reply _

theorem subscribe_stays : Stays request (subscribe request) := by
  refine onMailbox_stays fun accountId name => stays_bind _ fun updated => ?_
  split <;> exact stays_reply _

theorem onSelected_stays
    {body : Libraries → String → Bool → Search.Searcher → List String → Action (List String)} :
    Stays request (onSelected request body) :=
  withSelected_stays fun _ => stays_bind _ fun _ => stays_reply _

theorem uid_stays : Stays request (uid request) := by
  unfold uid
  split
  · exact stays_reply _
  · exact withRepository_stays (uidCommand_keeps _ _)

theorem append_stays : Stays request (append request) := by
  unfold append
  split
  · exact delegate_stays (Commands.append_keeps _ _)
  · exact stays_reply _

theorem starttls_stays : Stays request (starttls request) := by
  unfold starttls
  split
  · exact stays_reply _
  · split
    · exact stays_reply _
    · split <;> exact stays_reply _

theorem enable_stays : Stays request (enable request) := by
  unfold enable
  split <;> exact stays_reply _

theorem condstore_stays : Stays request (condstore request) := by
  unfold condstore
  split <;> exact stays_reply _

end Staying

/-! ## Moves -/

variable (lib : Libraries) (services : AppServices) (known : Knowledge cacheSignature)

/-- A session with an account selects a mailbox that it has found. Any other session selects one that is made
up. -/
inductive Selectable (session : ImapSession) (mailbox : Row Mailbox) : Prop where
  | found {accountId : Int} (name : String) (own : session.accountId = some accountId)
      (found : known (Op.findMailbox accountId name) (some mailbox))
  | synthetic (name : String) (without : services.repository = true → session.accountId = none)
      (made : mailbox = syntheticMailbox session name)

def entering (session : ImapSession) (readOnly : Bool) (mailbox : Row Mailbox) : ImapSession :=
  { session with
    state := .selectedMailbox mailbox.data.name readOnly
    selectedMailboxSnapshot := some ⟨mailbox.data.accountId, mailbox.id, mailbox.data.existsCount⟩ }

inductive Moves (offered : Option (String × String)) (session : ImapSession) : String → ImapSession → Prop where
  | stays {name : String} : Moves offered session name session
  | login {name username password : String} {context : Auth.AuthContext} {created : Bool}
      (named : name = "LOGIN" ∨ name = "AUTHENTICATE") (offers : offered = some (username, password))
      (granted : Granted lib known username password services.authenticator context) :
      Moves offered session name (session.activate context created)
  | select {mailbox : Row Mailbox} (selectable : Selectable services known session mailbox) :
      Moves offered session "SELECT" (entering session false mailbox)
  | examine {mailbox : Row Mailbox} (selectable : Selectable services known session mailbox) :
      Moves offered session "EXAMINE" (entering session true mailbox)
  | leave {name : String} (named : name = "CLOSE" ∨ name = "UNSELECT")
      (selected : session.selectedMailboxName.isSome = true) :
      Moves offered session name { session with state := .authenticated, selectedMailboxSnapshot := none }
  | rename {mailbox : String} {readOnly : Bool} (destination : String)
      (selected : session.state = .selectedMailbox mailbox readOnly) :
      Moves offered session "RENAME" { session with state := .selectedMailbox destination readOnly }
  | logout : Moves offered session "LOGOUT" { session with state := .logout, selectedMailboxSnapshot := none }
  | secure (open' : session.tlsActive = false) (available : session.starttlsAvailable = true)
      (before : session.state = .notAuthenticated) :
      Moves offered session "STARTTLS" { session with tlsActive := true, starttlsAvailable := false }
  | count (existsCount : Int) : Moves offered session "IDLE" (withExists session existsCount)

variable {lib services known} {offered : Option (String × String)}

theorem Stays.moves {request : Request} {command : Action Response} (stays : Stays request command) :
    command.Ends known fun response =>
      Moves lib services known offered request.session request.name response.session :=
  Honours.mono stays.ends fun response same => (same : response.session = request.session) ▸ .stays

theorem Admits.moves {username password name : String} {session session' : ImapSession}
    (admits : Admits lib services known username password session session')
    (named : name = "LOGIN" ∨ name = "AUTHENTICATE") (offers : offered = some (username, password)) :
    Moves lib services known offered session name session' := by
  rcases admits with rfl | ⟨context, created, granted, rfl⟩
  · exact .stays
  · exact .login named offers granted

theorem login_moves (request : Request) (named : request.name = "LOGIN")
    (offers : offered = loginCredentials request.args) :
    (login request).Ends known fun response =>
      Moves request.lib request.services known offered request.session request.name response.session := by
  cases given : loginCredentials request.args with
  | none =>
      obtain ⟨lines, replies⟩ := login_unoffered given
      rw [replies]
      exact (stays_reply lines).moves
  | some credentials =>
      match is : request.args with
      | [] | [_] =>
          rw [is] at given
          cases given
      | username :: password :: rest =>
          rw [is] at given
          obtain rfl := Option.some.inj given
          refine Honours.mono (login_asks request is).ends fun response admits => ?_
          exact admits.moves (.inl named) (offers.trans (by rw [is]; rfl))

theorem select_moves (request : Request) (readOnly : Bool)
    (named : request.name = if readOnly then "EXAMINE" else "SELECT") :
    (select request readOnly).Ends known fun response =>
      Moves request.lib request.services known offered request.session request.name response.session := by
  have moves {mailbox : Row Mailbox} (selectable : Selectable request.services known request.session mailbox) :
      Moves request.lib request.services known offered request.session request.name
        (selected request readOnly mailbox).session := by
    rw [named]
    cases readOnly with
    | false => exact .select selectable
    | true => exact .examine selectable
  unfold select
  dsimp only
  split
  · rename_i noAccount
    refine ends_ret (moves (.synthetic _ (fun withRepository => ?_) rfl))
    rwa [if_pos withRepository] at noAccount
  · rename_i accountId isAccount
    have own : request.session.accountId = some accountId := by
      split at isAccount
      · exact isAccount
      · cases isAccount
    refine ends_ask_bind fun found isFound => ?_
    cases found with
    | none => exact (stays_reply _).moves
    | some mailbox => exact ends_ret (moves (.found _ own isFound))

theorem close_moves (request : Request) (named : request.name = "CLOSE") :
    (close request).Ends known fun response =>
      Moves request.lib request.services known offered request.session request.name response.session := by
  unfold close
  split
  · refine (@Commands.close_leaves request.context).ends.bind fun reply leaves => ends_ret ?_
    rcases leaves with same | ⟨selected, left⟩
    · have adopted : request.session.adopt reply.session = request.session := by
        rw [same]
        exact adopt_view request.session
      dsimp only
      rw [adopted]
      exact .stays
    · have adopted : request.session.adopt reply.session =
          { request.session with state := .authenticated, selectedMailboxSnapshot := none } := by
        rw [left]
        rfl
      dsimp only
      rw [adopted]
      exact .leave (.inl named) selected
  · unfold Request.withSelected
    split
    · exact (stays_reply _).moves
    · rename_i mailbox selected
      exact ends_ret (.leave (.inl named) (by rw [selected]; rfl))

theorem unselect_moves (request : Request) (named : request.name = "UNSELECT") :
    (unselect request).Ends known fun response =>
      Moves request.lib request.services known offered request.session request.name response.session := by
  unfold unselect Request.withSelected
  split
  · exact (stays_reply _).moves
  · rename_i mailbox selected
    exact ends_ret (.leave (.inr named) (by rw [selected]; rfl))

theorem rename_moves (request : Request) (named : request.name = "RENAME") :
    (rename request).Ends known fun response =>
      Moves request.lib request.services known offered request.session request.name response.session := by
  unfold rename Request.withAccount
  dsimp only
  split
  · split
    · exact (stays_reply _).moves
    · split
      · rename_i source isSource
        split
        · rename_i destination isDestination
          refine ends_bind fun renamedTo => ?_
          cases renamedTo with
          | none => exact (stays_reply _).moves
          | some row =>
              refine ends_ret ?_
              dsimp only
              unfold renamed
              split
              · rename_i mailbox readOnly selected
                split
                · rw [named]
                  exact .rename destination selected
                · exact .stays
              · exact .stays
        · exact (stays_reply _).moves
      · exact (stays_reply _).moves
  · exact (stays_reply _).moves

theorem withSelected_moves {request : Request} {body : String → Action Response}
    (stays : ∀ mailbox, Stays request (body mailbox)) :
    (request.withSelected body).Ends known fun response =>
      Moves lib services known offered request.session request.name response.session :=
  (withSelected_stays stays).moves

theorem dispatch_moves (request : Request)
    (offers : request.name = "LOGIN" → offered = loginCredentials request.args) :
    (dispatch request).Ends known fun response =>
      Moves request.lib request.services known offered request.session request.name response.session := by
  have answers (lines : List String) (text : String) :
      (request.reply (lines ++ [Commands.ok request.tag text])).Ends known fun response =>
        Moves request.lib request.services known offered request.session request.name response.session := (stays_reply _).moves
  unfold dispatch
  dsimp only
  split
  case h_3 named =>
    rw [named]
    exact ends_ret .logout
  case h_4 named => exact login_moves request named (offers named)
  case h_5 => exact starttls_stays.moves
  case h_6 named => exact select_moves request false named
  case h_7 named => exact select_moves request true named
  case h_8 | h_9 => exact list_stays.moves
  case h_10 => exact status_stays.moves
  case h_11 | h_12 | h_13 => exact onSelected_stays.moves
  case h_14 => exact (withRepository_stays (fetch_keeps _)).moves
  case h_15 => exact (withRepository_stays (Commands.store_keeps _)).moves
  case h_16 => exact uid_stays.moves
  case h_17 => exact append_stays.moves
  case h_18 | h_19 => exact withSelected_moves fun _ => stays_reply _
  case h_20 named => exact unselect_moves request named
  case h_21 named => exact close_moves request named
  case h_22 => exact (withRepository_stays (Commands.expunge_keeps _)).moves
  case h_23 => exact create_stays.moves
  case h_24 => exact delete_stays.moves
  case h_25 named => exact rename_moves request named
  case h_26 | h_27 => exact subscribe_stays.moves
  case h_28 | h_29 => exact (withRepository_stays (Commands.transfer_keeps _ _)).moves
  case h_32 => exact enable_stays.moves
  case h_33 => exact condstore_stays.moves
  case h_34 => exact (stays_reply _).moves
  all_goals exact answers _ _

/-! ## Connections -/

attribute [local irreducible] dispatch in
theorem respond_moves (server : Server) (session : ImapSession) (command : ParsedCommand) (literal : Option Bytes)
    (offers : toAsciiUppercase command.name = "LOGIN" → offered = loginCredentials command.args) :
    (respond server session command literal).Ends known fun response =>
      Moves server.lib server.services known offered session (toAsciiUppercase command.name) response.session := by
  have dispatched : (handleParsedCommand server session command literal).Ends known fun response =>
      Moves server.lib server.services known offered session (toAsciiUppercase command.name) response.session :=
    dispatch_moves ⟨server.lib, server.services, server.connection, session, command.tag,
      toAsciiUppercase command.name, command.args, literal⟩ offers
  refine (Ends.attempt dispatched).bind fun outcome moves => ?_
  cases outcome with
  | ok response => exact moves response rfl
  | error failure =>
      dsimp only
      split
      · exact .stays
      · trivial

theorem handleAuthenticate_moves (server : Server) (session : ImapSession) (tag : String) (args : List String)
    (line : Option String)
    (offers : ∀ credentials, saslCredentials server.lib session tag args line = .ok (.ok credentials) →
      offered = some credentials) :
    (handleAuthenticate server session tag args line).Ends known fun response =>
      Moves server.lib server.services known offered session "AUTHENTICATE" response.session := by
  by_cases read : ∃ credentials, saslCredentials server.lib session tag args line = .ok (.ok credentials)
  · obtain ⟨credentials, read⟩ := read
    refine Honours.mono (handleAuthenticate_asks read).ends fun response admits => ?_
    exact admits.moves (.inr rfl) (offers _ read)
  · rcases handleAuthenticate_unoffered (not_exists.mp read) with ⟨failure, eq⟩ | ⟨refusal, eq⟩ <;> rw [eq]
    · trivial
    · exact ends_ret .stays

/-- The session with another number of messages, if it is another one. -/
def Recounted (session session' : ImapSession) : Prop :=
  session' = session ∨ ∃ existsCount, session' = withExists session existsCount

theorem Recounted.trans {first second third : ImapSession} (one : Recounted first second)
    (other : Recounted second third) : Recounted first third := by
  rcases other with rfl | ⟨count, rfl⟩
  · exact one
  · rcases one with rfl | ⟨count', rfl⟩
    · exact .inr ⟨count, rfl⟩
    · refine .inr ⟨count, ?_⟩
      obtain ⟨state, authenticated, connectionId, remoteAddr, created, snapshot, starttlsAvailable, tlsActive⟩ := first
      cases snapshot <;> rfl

theorem existsNotification_recounts (session : ImapSession) (snapshot : SelectedMailboxSnapshot) :
    (existsNotification session snapshot).Returns fun notified => Recounted session notified.2 := by
  refine (returns_any _).bind fun count _ => ?_
  split
  · exact .inr ⟨_, rfl⟩
  · split
    · exact .inr ⟨_, rfl⟩
    · exact .inl rfl

theorem flagsNotification_recounts (session : ImapSession) (snapshot : SelectedMailboxSnapshot)
    (event : MutationEvent) : (flagsNotification session snapshot event).Returns fun notified =>
      ∀ found ∈ notified, Recounted session found.2 := by
  unfold flagsNotification
  split
  · refine (returns_any _).bind fun sequence _ => ?_
    split
    · refine (returns_any _).bind fun count _ => ?_
      rintro _ ⟨⟩
      exact .inr ⟨_, rfl⟩
    · exact fun found absent => nomatch absent
  · exact fun found absent => nomatch absent

theorem idleNotificationForEvent_recounts (server : Server) (session : ImapSession) (event : MutationEvent) :
    (idleNotificationForEvent server session event).Returns fun notified => Recounted session notified.2 := by
  unfold idleNotificationForEvent
  cases session.selectedMailboxSnapshot with
  | none => exact .inl rfl
  | some snapshot =>
      dsimp only
      split
      · unfold selectedNotification
        split
        · exact (returns_any _).bind fun count _ => .inr ⟨_, rfl⟩
        · dsimp only
          split
          · refine (flagsNotification_recounts session snapshot event).bind fun found recounted => ?_
            cases found with
            | none => exact existsNotification_recounts session snapshot
            | some found => exact recounted found rfl
          · exact existsNotification_recounts session snapshot
      · exact .inl rfl

theorem handleIdle_recounts (server : Server) (tag : String) (session : ImapSession) (inputs : List IdleInput) :
    (handleIdle server tag session inputs).Returns fun response => Recounted session response.session := by
  induction inputs generalizing session with
  | nil => exact .inl rfl
  | cons input inputs ih =>
      have stays (lines : List String) : (pure ⟨lines, session⟩ : Action Response).Returns fun response =>
          Recounted session response.session := .inl rfl
      cases input with
      | line text =>
          rw [handleIdle]
          generalize eqIgnoreAsciiCase (String.ofList (trimLineEnd text.toList)) "DONE" = done
          cases done with
          | true => exact stays _
          | false => exact ih session
      | timeout =>
          rw [handleIdle]
          exact stays _
      | lagged =>
          rw [handleIdle]
          exact ih session
      | closed =>
          rw [handleIdle]
          exact stays _
      | event event =>
          rw [handleIdle]
          refine (idleNotificationForEvent_recounts server session event).bind fun notified recounted => ?_
          exact (ih notified.2).bind fun rest recounted' => recounted.trans recounted'

attribute [local irreducible] respond in
theorem serveCommand_moves (server : Server) (connection : Connection) (input : Input) :
    (serveCommand server connection input).Ends known fun served =>
      Moves server.lib server.services known (credentials server.lib connection.session input)
        connection.session input.name served.connection.session := by
  unfold serveCommand
  dsimp only
  split
  case isTrue named =>
    rw [named]
    unfold serveStarttls
    dsimp only
    split
    · exact ends_ret .stays
    · split
      · rename_i ready
        simp only [Bool.and_eq_true, Bool.not_eq_true', beq_iff_eq] at ready
        split
        · exact ends_ret (.secure ready.1.1.1 ready.1.1.2 ready.2)
        · trivial
      · exact ends_ret .stays
  case isFalse =>
    split
    case isTrue named =>
      have offers (pair : String × String) (read : saslCredentials server.lib connection.session
          input.command.tag input.command.args input.response = .ok (.ok pair)) :
          credentials server.lib connection.session input = some pair := by
        unfold credentials
        rw [named, if_neg (by decide), if_pos rfl, read]
      rw [named]
      exact (handleAuthenticate_moves server connection.session input.command.tag input.command.args
        input.response offers).bind fun response moves => ends_ret moves
    case isFalse =>
      split
      case isTrue named =>
        rw [named]
        refine (handleIdle_recounts ..).ends.bind fun response recounted => ends_ret ?_
        rcases recounted with same | ⟨count, recounted⟩
        · change Moves _ _ _ _ _ _ response.session
          rw [same]
          exact .stays
        · change Moves _ _ _ _ _ _ response.session
          rw [recounted]
          exact .count count
      case isFalse =>
        refine ends_bind fun written => ?_
        cases written with
        | some written => exact ends_ret .stays
        | none =>
            have offers (named : toAsciiUppercase input.command.name = "LOGIN") :
                credentials server.lib connection.session input = loginCredentials input.command.args :=
              if_pos named
            refine (respond_moves server connection.session input.command input.literal offers).bind
              fun response moves => ?_
            exact ends_ret moves

theorem Moves.connectionId {session session' : ImapSession} {name : String}
    (moves : Moves lib services known offered session name session') :
    session'.connectionId = session.connectionId := by
  cases moves <;> rfl

attribute [local irreducible] serveCommand in
/-- A round honours the contract that its command honours, if that permits the end of the session. -/
theorem serveRound_honours {k : Contract cacheSignature} {server : Server} {connection : Connection}
    {input : Option Input} {post : Served → Prop}
    (disconnects : k.permits (.markSessionDisconnected connection.session.connectionId))
    (gone : post (connection.serve [] connection.session))
    (serves : ∀ command ∈ input, (serveCommand server connection command).Honours k post) :
    (serveRound server connection input).Honours k post := by
  have recorded (condition : Bool) {session : ImapSession}
      (same : session.connectionId = connection.session.connectionId) :
      (onlyIf condition (recordDisconnected server.services session)).Honours k fun _ => True :=
    honours_onlyIf fun _ => honours_onlyIf fun _ => honours_tell (same ▸ disconnects)
  cases input with
  | none => exact honours_bind (recorded true rfl) fun _ => gone
  | some input =>
      have served := (serves input rfl).and_ends (serveCommand_moves server connection input)
      refine (Honours.attempt served).bind fun outcome ends => ?_
      cases outcome with
      | ok served =>
          obtain ⟨holds, moves⟩ := ends served rfl
          exact honours_bind (recorded _ moves.connectionId) fun _ => holds
      | error failure => exact honours_bind (recorded _ rfl) fun _ => trivial

theorem serveRound_moves (server : Server) (connection : Connection) (input : Option Input) :
    (serveRound server connection input).Ends known fun served => ∀ command ∈ input,
      Moves server.lib server.services known (credentials server.lib connection.session command)
        connection.session command.name served.connection.session :=
  serveRound_honours trivial (fun _ _ => .stays) fun command is =>
    (serveCommand_moves server connection command).mono fun _ moves _ same =>
      (Option.some.inj (is.symm.trans same)) ▸ moves

end ImapCache.Session
