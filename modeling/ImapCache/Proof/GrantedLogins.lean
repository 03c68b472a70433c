import ImapCache.Lib.Outcomes
import ImapCache.Model.Connection

/-!
# Logins

What LOGIN and AUTHENTICATE ask for, and when they succeed: the authenticator is asked about the user name that
the client has sent, and grants a login only by the answers that it has got.
-/

namespace ImapCache.Session
open Lib Prog Protocol

def loginCredentials : List String → Option (String × String)
  | username :: password :: _ => some (username, password)
  | _ => none

/-- The credentials that a command offers to the authenticator. -/
def credentials (lib : Libraries) (session : ImapSession) (input : Input) : Option (String × String) :=
  if input.name = "LOGIN" then loginCredentials input.command.args
  else if input.name = "AUTHENTICATE" then
    match saslCredentials lib session input.command.tag input.command.args input.response with
    | .ok (.ok credentials) => some credentials
    | _ => none
  else none

variable (lib : Libraries) (services : AppServices) (known : Knowledge cacheSignature)

/-- The account that a user is found to log in to. -/
inductive AccountOf (userId : Int) (username : String) : Option Int → Prop where
  | addressed {account : Row MailAccount} (found : known (Op.findAccountByEmailAddress username) (some account)) :
      AccountOf userId username (some account.id)
  | only {account : Row MailAccount} (unaddressed : known (Op.findAccountByEmailAddress username) none)
      (found : known (Op.listAccountsForUser userId) [account]) : AccountOf userId username (some account.id)
  | undecided {accounts : List (Row MailAccount)} (unaddressed : known (Op.findAccountByEmailAddress username) none)
      (found : known (Op.listAccountsForUser userId) accounts) (undecided : accounts.length ≠ 1) :
      AccountOf userId username none

/-- The authenticator has accepted the user name and the password, by the answers that it has got. -/
inductive Granted (username password : String) : Auth.Authenticator → Auth.AuthContext → Prop where
  | static {expectedPasswordHash : String} (unblocked : known (Op.isBlocked username) false)
      (verified : lib.verifyPassword expectedPasswordHash password = .ok true) :
      Granted username password (.static username expectedPasswordHash) ⟨1, none, username⟩
  | postgres {user : Row User} {accountId : Option Int} (unblocked : known (Op.isBlocked username) false)
      (found : known (Op.findUserByUsername username) (some user)) (enabled : user.data.disabledAt = none)
      (verified : lib.verifyPassword user.data.passwordHash password = .ok true)
      (account : AccountOf known user.id username accountId) :
      Granted username password .postgres ⟨user.id, accountId, user.data.usernameEmail⟩

/-- What a login with a user name and a password asks for: the throttle, the user and its accounts, and what
is written about a failure or about the login that is granted. -/
inductive LoginUse (connectionId : Uuid) (username password : String) : Op → Prop where
  | isBlocked : LoginUse connectionId username password (.isBlocked username)
  | recordFailure : LoginUse connectionId username password (.recordFailure services.limits username)
  | recordSuccess : LoginUse connectionId username password (.recordSuccess username)
  | findUser : LoginUse connectionId username password (.findUserByUsername username)
  | findAccount : LoginUse connectionId username password (.findAccountByEmailAddress username)
  | listAccounts {user : Row User} (found : known (Op.findUserByUsername username) (some user)) :
      LoginUse connectionId username password (.listAccountsForUser user.id)
  | failure {entry : AuditLogEntry} (action : entry.action = "login_failure") (account : entry.accountId = none) :
      LoginUse connectionId username password (.recordAuditLog entry)
  | success {entry : AuditLogEntry} {context : Auth.AuthContext} (action : entry.action = "login_success")
      (granted : Granted lib known username password services.authenticator context)
      (user : entry.userId = some context.userId) (account : entry.accountId = context.accountId) :
      LoginUse connectionId username password (.recordAuditLog entry)
  | session {record : SessionRecord} {context : Auth.AuthContext}
      (granted : Granted lib known username password services.authenticator context)
      (user : record.userId = context.userId) (account : record.accountId = context.accountId)
      (connection : record.connectionId = connectionId) :
      LoginUse connectionId username password (.createSession record)

def loginContract (connectionId : Uuid) (username password : String) : Contract cacheSignature where
  permits := LoginUse lib services known connectionId username password
  expects := known

variable {lib services known} {connectionId : Uuid} {username password : String}

theorem await_asks {op : Op} (use : LoginUse lib services known connectionId username password op) :
    (await op).Honours (loginContract lib services known connectionId username password) (known op) :=
  honours_ask use

theorem recordFailure_asks : (Auth.recordFailure services.limits username).Honours
    (loginContract lib services known connectionId username password) fun _ => True :=
  (await_asks .recordFailure).any

theorem recordSuccess_asks : (Auth.recordSuccess username).Honours
    (loginContract lib services known connectionId username password) fun _ => True :=
  (await_asks .recordSuccess).any

theorem logFailure_asks (userId : Option Int) (reason : String) : (Auth.logFailure userId username reason).Honours
    (loginContract lib services known connectionId username password) fun _ => True :=
  honours_tell (.failure rfl rfl)

theorem accountOf_asks {user : Row User} (found : known (Op.findUserByUsername username) (some user)) :
    (Auth.accountOf user.id username).Honours (loginContract lib services known connectionId username password)
      (AccountOf known user.id username) := by
  refine honours_ask_bind .findAccount fun account isAccount => ?_
  cases account with
  | some account => exact .addressed isAccount
  | none =>
      refine honours_ask_bind (.listAccounts found) fun accounts areAccounts => ?_
      split
      · exact .only isAccount areAccounts
      · rename_i several
        refine .undecided isAccount areAccounts fun single => ?_
        obtain ⟨account, only⟩ := List.length_eq_one_iff.mp single
        exact several account only

theorem refused_asks {p : Action Unit} {authenticator : Auth.Authenticator}
    (asks : p.Honours (loginContract lib services known connectionId username password) fun _ => True) :
    (p.bind fun _ => pure none).Honours (loginContract lib services known connectionId username password)
      fun found => ∀ context ∈ found, Granted lib known username password authenticator context :=
  honours_bind asks fun _ context absent => by cases absent

theorem staticAuthenticate_asks {expectedUsername expectedPasswordHash : String}
    (isStatic : services.authenticator = .static expectedUsername expectedPasswordHash) :
    (Auth.staticAuthenticate lib services.limits expectedUsername expectedPasswordHash username password).Honours
      (loginContract lib services known connectionId username password)
      fun found => ∀ context ∈ found, Granted lib known username password services.authenticator context := by
  rw [isStatic]
  refine honours_ask_bind .isBlocked fun blocked unblocked => ?_
  cases blocked with
  | true => exact fun context absent => by cases absent
  | false =>
      by_cases same : username = expectedUsername
      · subst same
        simp only [Bool.false_eq_true, if_false, if_true]
        refine (honours_ofExcept _).bind fun accepted verified => ?_
        cases accepted with
        | true =>
            refine honours_bind recordSuccess_asks fun _ => ?_
            rintro _ ⟨⟩
            exact .static unblocked verified
        | false => exact refused_asks recordFailure_asks
      · simp only [Bool.false_eq_true, if_false, if_neg same]
        exact refused_asks recordFailure_asks

theorem postgresAuthenticate_asks (isPostgres : services.authenticator = .postgres) :
    (Auth.postgresAuthenticate lib services.limits username password).Honours
      (loginContract lib services known connectionId username password)
      fun found => ∀ context ∈ found, Granted lib known username password services.authenticator context := by
  refine honours_ask_bind .isBlocked fun blocked unblocked => ?_
  cases blocked with
  | true => exact fun context absent => by cases absent
  | false =>
      refine honours_ask_bind .findUser fun user found => ?_
      cases user with
      | none => exact honours_bind recordFailure_asks fun _ => refused_asks (logFailure_asks _ _)
      | some user =>
          dsimp only
          split
          · exact refused_asks (logFailure_asks _ _)
          · rename_i enabled
            refine (honours_ofExcept _).bind fun accepted verified => ?_
            cases accepted with
            | true =>
                refine honours_bind recordSuccess_asks fun _ => (accountOf_asks found).bind fun accountId account => ?_
                have granted : Granted lib known username password services.authenticator
                    ⟨user.id, accountId, user.data.usernameEmail⟩ := by
                  rw [isPostgres]
                  exact .postgres unblocked found (by simpa using enabled) verified account
                refine honours_bind (honours_tell (.success rfl granted rfl rfl)) fun _ => ?_
                rintro _ ⟨⟩
                exact granted
            | false => exact honours_bind recordFailure_asks fun _ => refused_asks (logFailure_asks _ _)

theorem authenticate_asks : (Auth.authenticate lib services.limits services.authenticator username password).Honours
    (loginContract lib services known connectionId username password)
    fun found => ∀ context ∈ found, Granted lib known username password services.authenticator context := by
  unfold Auth.authenticate
  split
  case h_1 => exact fun context absent => by cases absent
  case h_2 isStatic => exact staticAuthenticate_asks isStatic
  case h_3 isPostgres => exact postgresAuthenticate_asks isPostgres

theorem activate_asks {session : ImapSession} {context : Auth.AuthContext}
    (granted : Granted lib known username password services.authenticator context) :
    (activateAuthenticatedSession services session context).Honours
      (loginContract lib services known session.connectionId username password)
      fun session' => ∃ created, session' = session.activate context created := by
  have recorded : (createSession services session context).Honours
      (loginContract lib services known session.connectionId username password) fun _ => True := by
    unfold createSession
    split
    · refine honours_bind (Honours.attempt (await_asks ?_)).any fun outcome => ?_
      · exact .session granted rfl rfl rfl
      · cases outcome <;> trivial
    · trivial
  exact honours_bind recorded fun created => ⟨created, rfl⟩

/-- What a login leaves: the session as it was, or that of the user it is granted to. -/
def Admits (lib : Libraries) (services : AppServices) (known : Knowledge cacheSignature) (username password : String)
    (session session' : ImapSession) : Prop :=
  session' = session ∨ ∃ context created, Granted lib known username password services.authenticator context ∧
    session' = session.activate context created

theorem admit_asks {session : ImapSession} {context : Auth.AuthContext} (lines : List String)
    (granted : Granted lib known username password services.authenticator context) :
    ((activateAuthenticatedSession services session context).bind fun session => .ret ⟨lines, session⟩).Honours
      (loginContract lib services known session.connectionId username password)
      fun response : Response => Admits lib services known username password session response.session := by
  refine (activate_asks granted).bind ?_
  rintro _ ⟨created, rfl⟩
  exact .inr ⟨context, created, granted, rfl⟩

/-! ## The two commands -/

theorem login_asks (request : Request) {rest : List String} (given : request.args = username :: password :: rest) :
    (login request).Honours
      (loginContract request.lib request.services known request.session.connectionId username password)
      fun response => Admits request.lib request.services known username password request.session
        response.session := by
  unfold login
  rw [if_neg (by simp [given]), given]
  refine authenticate_asks.bind fun found granted => ?_
  cases found with
  | none => exact .inl rfl
  | some context => exact admit_asks _ (granted context rfl)

theorem login_unoffered {request : Request} (none : loginCredentials request.args = none) :
    ∃ lines, login request = request.reply lines := by
  refine ⟨_, if_pos ?_⟩
  match given : request.args with
  | [] | [_] => simp
  | _ :: _ :: _ =>
      rw [given] at none
      cases none

theorem handleAuthenticate_asks {server : Server} {session : ImapSession} {tag : String} {args : List String}
    {line : Option String} (read : saslCredentials server.lib session tag args line = .ok (.ok (username, password))) :
    (handleAuthenticate server session tag args line).Honours
      (loginContract server.lib server.services known session.connectionId username password)
      fun response => Admits server.lib server.services known username password session response.session := by
  unfold handleAuthenticate
  rw [read]
  refine authenticate_asks.bind fun found granted => ?_
  cases found with
  | none => exact .inl rfl
  | some context => exact admit_asks _ (granted context rfl)

theorem handleAuthenticate_unoffered {server : Server} {session : ImapSession} {tag : String} {args : List String}
    {line : Option String}
    (none : ∀ offered, saslCredentials server.lib session tag args line ≠ .ok (.ok offered)) :
    (∃ failure, handleAuthenticate server session tag args line = .throw failure) ∨
      ∃ refusal, handleAuthenticate server session tag args line = .ret ⟨[refusal], session⟩ := by
  unfold handleAuthenticate
  match read : saslCredentials server.lib session tag args line with
  | .error failure => exact .inl ⟨failure, rfl⟩
  | .ok (.error refusal) => exact .inr ⟨refusal, rfl⟩
  | .ok (.ok offered) => exact absurd read (none offered)

/-! ## Their rounds -/

attribute [local irreducible] dispatch in
theorem respond_honours {server : Server} {session : ImapSession} {command : ParsedCommand} {literal : Option Bytes}
    {k : Contract cacheSignature}
    (honours : (handleParsedCommand server session command literal).Honours k fun _ => True) :
    (respond server session command literal).Honours k fun _ => True := by
  refine honours_bind honours.attempt.any fun outcome => ?_
  cases outcome with
  | ok response => trivial
  | error failure =>
      dsimp only
      split <;> trivial

/-- What the dispatcher is called with for a command. -/
def request (server : Server) (connection : Connection) (input : Input) : Request :=
  ⟨server.lib, server.services, server.connection, connection.session, input.command.tag, input.name,
    input.command.args, input.literal⟩

attribute [local irreducible] respond in
theorem serveCommand_login {server : Server} {connection : Connection} {input : Input} (named : input.name = "LOGIN")
    {k : Contract cacheSignature}
    (honours : (login (request server connection input)).Honours k fun _ => True) :
    (serveCommand server connection input).Honours k fun _ => True := by
  have dispatched : handleParsedCommand server connection.session input.command input.literal =
      login (request server connection input) := by
    unfold handleParsedCommand dispatch request
    rw [show toAsciiUppercase input.command.name = "LOGIN" from named, named]
    rfl
  have raw : serveRawFetch server connection.session input = pure none := by
    unfold serveRawFetch
    rw [named]
    rfl
  unfold serveCommand
  dsimp only
  rw [named, if_neg (by decide), if_neg (by decide), if_neg (by decide), raw, pure_eq, bind_eq, ret_bind]
  exact honours_bind (respond_honours (dispatched ▸ honours)) fun _ => trivial

theorem serveCommand_authenticate {server : Server} {connection : Connection} {input : Input}
    (named : input.name = "AUTHENTICATE") {k : Contract cacheSignature}
    (honours : (handleAuthenticate server connection.session input.command.tag input.command.args
      input.response).Honours k fun _ => True) :
    (serveCommand server connection input).Honours k fun _ => True := by
  unfold serveCommand
  dsimp only
  rw [named, if_neg (by decide), if_pos rfl]
  exact honours_bind honours fun _ => trivial

theorem serveCommand_offered {server : Server} {connection : Connection} {input : Input}
    (offers : credentials server.lib connection.session input = some (username, password)) :
    (serveCommand server connection input).Honours
      (loginContract server.lib server.services known connection.session.connectionId username password)
      fun _ => True := by
  unfold credentials at offers
  split at offers
  · rename_i named
    refine serveCommand_login named ?_
    match given : input.command.args with
    | [] | [_] =>
        rw [given] at offers
        cases offers
    | name :: secret :: rest =>
        rw [given] at offers
        obtain ⟨rfl, rfl⟩ := Prod.mk.inj (Option.some.inj offers)
        exact (login_asks (request server connection input) given).any
  · split at offers
    · rename_i named
      refine serveCommand_authenticate named ?_
      split at offers
      · rename_i read
        cases offers
        exact (handleAuthenticate_asks read).any
      · cases offers
    · cases offers

theorem serveCommand_unoffered {server : Server} {connection : Connection} {input : Input}
    (named : input.name = "LOGIN" ∨ input.name = "AUTHENTICATE")
    (none : credentials server.lib connection.session input = none) {k : Contract cacheSignature} :
    (serveCommand server connection input).Honours k fun _ => True := by
  unfold credentials at none
  rcases named with named | named
  · rw [if_pos named] at none
    obtain ⟨lines, replies⟩ := @login_unoffered (request server connection input) none
    refine serveCommand_login named ?_
    rw [replies]
    trivial
  · rw [if_neg (by rw [named]; decide), if_pos named] at none
    refine serveCommand_authenticate named ?_
    have unread (offered : String × String) : saslCredentials server.lib connection.session input.command.tag
        input.command.args input.response ≠ .ok (.ok offered) := by
      intro read
      rw [read] at none
      cases none
    rcases handleAuthenticate_unoffered unread with ⟨failure, eq⟩ | ⟨refusal, eq⟩ <;> rw [eq] <;> trivial

/-- What a round asks for on behalf of its session: what a login with the credentials of the command asks for,
and the end of the session's own record. -/
inductive SessionUse (lib : Libraries) (services : AppServices) (known : Knowledge cacheSignature)
    (session : ImapSession) (input : Option Input) : Op → Prop where
  | login {command : Input} {username password : String} {op : Op} (is : input = some command)
      (offers : credentials lib session command = some (username, password))
      (use : LoginUse lib services known session.connectionId username password op) :
      SessionUse lib services known session input op
  | disconnect : SessionUse lib services known session input (.markSessionDisconnected session.connectionId)

theorem serveCommand_logs_in {server : Server} {connection : Connection} {input : Input}
    (named : input.name = "LOGIN" ∨ input.name = "AUTHENTICATE") :
    (serveCommand server connection input).Honours
      ⟨SessionUse server.lib server.services known connection.session (some input), known⟩ fun _ => True := by
  cases offers : credentials server.lib connection.session input with
  | none => exact serveCommand_unoffered named offers
  | some offered =>
      exact (serveCommand_offered offers).weaken (fun op use => .login rfl offers use) fun _ _ _ => id

end ImapCache.Session
