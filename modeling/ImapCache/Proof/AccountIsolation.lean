import ImapCache.Proof.AccountSessions
import ImapCache.Proof.AnonymousSessions
import ImapCache.Proof.ForeignRows

/-!
# Clients of different accounts

In any run of many clients, a command in the session of an account names only that account, its mailboxes and
its messages, but for what the session itself needs, and leaves every row of every other account as it was.
-/

namespace ImapCache
open Lib Prog

/-! ## What an operation finds -/

theorem Db.updateNamedMailbox_own {db db' : Db} {accountId : Int} {mailboxName : String}
    {change : Mailbox → Mailbox} {mailbox : Row Mailbox} (keeps : ∀ data, (change data).accountId = data.accountId)
    (h : db.updateNamedMailbox accountId mailboxName change = .ok (some mailbox, db')) :
    mailbox.data.accountId = accountId := by
  unfold updateNamedMailbox at h
  split at h
  · cases h
  · rename_i mailboxes success
    simp only [Except.ok.injEq, Prod.mk.injEq, Option.bind_eq_some_iff] at h
    obtain ⟨⟨old, found, refound⟩, -⟩ := h
    obtain ⟨oldMember, named⟩ := Table.mem_of_find found
    obtain ⟨member, same⟩ := Table.mem_of_find refound
    obtain ⟨row, rowMember, rfl⟩ := (Table.mem_modify success mailbox).mp member
    obtain rfl := Table.eq_of_id rowMember oldMember (by simpa using same)
    rw [Table.modified, if_pos named]
    simp only [namedMailbox, Bool.and_eq_true, beq_iff_eq] at named
    exact (keeps _).trans named.1

theorem Db.createMailbox_own {db db' : Db} {input : Mailbox} {mailbox : Row Mailbox}
    (h : db.createMailbox input = .ok (some mailbox, db')) : mailbox.data.accountId = input.accountId := by
  unfold createMailbox at h
  split at h
  · cases h
  · split at h
    · cases h
    · split at h
      · rename_i row mailboxes success
        cases h
        rw [(Table.insert_eq_some success).1]
      · cases h

/-- The address of the account is known, and so are the accounts that a look-up by it may find. -/
structure Holdings.Addresses (holdings : Holdings) (lib : Libraries) (db : Db) : Prop where
  own : ∀ row ∈ db.accounts.rows, row.id = holdings.account → holdings.address row.data.emailAddress
  namesakes : ∀ row ∈ db.accounts.rows, ∀ address, holdings.address address →
    lib.lower row.data.emailAddress = lib.lower address → holdings.namesake row.data

namespace World
variable {lib : Libraries} {world : World} {holdings : Holdings} {op : Op} {readOnly : Bool}

theorem perform_expected {value : op.Ret} (holds : holdings.Holds world.db)
    (addresses : holdings.Addresses lib world.db) (within : op.Within holdings)
    (records : ∀ row ∈ (world.perform lib op).2.db.messages.rows, row.data.accountId = holdings.account →
      holdings.message row.id)
    (ok : (world.perform lib op).1 = .ok value) : (sessionContract holdings readOnly).expects op value := by
  have committed {α : Type} {result : Except Error (α × Db)} {value : α}
      (ok : (world.commit result).1 = .ok value) : ∃ db, result = .ok (value, db) := by
    unfold commit at ok
    split at ok
    · cases ok
      exact ⟨_, rfl⟩
    · cases ok
  cases op with
  | findAccountByIdAnyState accountId =>
      have own := within.accounts accountId (List.mem_singleton_self _)
      cases ok
      intro account found
      obtain ⟨member, same⟩ := Table.mem_of_find found
      exact addresses.own account member ((beq_iff_eq.mp same).trans own)
  | findAccountByEmailAddressAnyState emailAddress =>
      have own := within.addresses emailAddress (List.mem_singleton_self _)
      cases ok
      intro account found
      obtain ⟨member, same⟩ := List.mem_filter.mp (Db.mem_of_newest found)
      exact addresses.namesakes account member emailAddress own (beq_iff_eq.mp same)
  | findMailbox accountId mailboxName =>
      have own := within.accounts accountId (List.mem_singleton_self _)
      cases ok
      intro mailbox found
      obtain ⟨member, account⟩ := Db.mem_of_findMailbox found
      exact (holds mailbox member).mpr (account.trans own)
  | accountIdForMailbox mailboxId =>
      have held := within.mailboxes mailboxId (List.mem_singleton_self _)
      cases ok
      intro accountId found
      obtain ⟨row, here, rfl⟩ := Option.map_eq_some_iff.mp found
      obtain ⟨member, rfl⟩ := Db.mailbox_some.mp here
      exact (holds row member).mp held
  | createMailbox input =>
      have own := within.accounts input.accountId (List.mem_singleton_self _)
      obtain ⟨db, h⟩ := committed ok
      rintro mailbox rfl
      exact (Db.createMailbox_own h).trans own
  | renameMailbox accountId mailboxName newName =>
      have own := within.accounts accountId (List.mem_singleton_self _)
      obtain ⟨db, h⟩ := committed ok
      rintro mailbox rfl
      unfold Db.renameMailbox at h
      refine (Db.updateNamedMailbox_own ?_ h).trans own
      exact fun _ => rfl
  | setMailboxSubscribed accountId mailboxName subscribed =>
      have own := within.accounts accountId (List.mem_singleton_self _)
      obtain ⟨db, h⟩ := committed ok
      rintro mailbox rfl
      unfold Db.setMailboxSubscribed at h
      refine (Db.updateNamedMailbox_own ?_ h).trans own
      exact fun _ => rfl
  | upsertMessage input =>
      have own := within.accounts input.accountId (List.mem_singleton_self _)
      obtain ⟨db, h⟩ := committed ok
      have after : (world.perform lib (.upsertMessage input)).2 = { world with db } :=
        congrArg Prod.snd (commit_of_ok h)
      obtain ⟨messages, rfl, rfl, rows, -⟩ := Db.upsertMessage_ok h
      rw [after, rows] at records
      exact ⟨own, records _ (List.mem_append_right _ (List.mem_singleton_self _)) own⟩
  | enqueueMutation input =>
      have own := within.accounts input.accountId (List.mem_singleton_self _)
      obtain ⟨db, h⟩ := committed ok
      obtain ⟨_, -, rfl, -⟩ := Db.enqueueMutation_ok h
      exact own
  | insertMailboxMessage input =>
      have held := within.mailboxes input.mailboxId (List.mem_singleton_self _)
      obtain ⟨db, h⟩ := committed ok
      obtain ⟨-, ⟨modseq, data⟩, -⟩ := Db.insertMailboxMessage_ok h
      change holdings.mailbox value.1.data.mailboxId
      rw [data]
      exact held
  | updateMailboxMessageFlags mailboxId localUid flags =>
      have held := within.mailboxes mailboxId (List.mem_singleton_self _)
      obtain ⟨db, h⟩ := committed ok
      rintro found rfl
      rcases Db.updateMailboxMessageFlags_ok h with ⟨none, -⟩ | ⟨old, -, live, modseq, position, is, -⟩
      · cases none
      · cases is
        rw [← (Db.isLiveAt_iff.mp live).1] at held
        exact held
  | _ => trivial

end World

namespace Session
open System

variable {server : Server}

/-! ## Runs -/

/-- What has belonged to an account at some time of a run, and the accounts that share its address. -/
def held (start : World) (trace : List (Transition (sessionSystem server))) (account : Int) : Holdings where
  lib := server.lib
  account := account
  mailbox id := ∃ t ∈ trace, ∃ world, t.Passes world ∧
    ∃ row ∈ world.db.mailboxes.rows, row.id = id ∧ row.data.accountId = account
  message id := ∃ t ∈ trace, ∃ world, t.Passes world ∧
    ∃ row ∈ world.db.messages.rows, row.id = id ∧ row.data.accountId = account
  address text := ∃ own, (account, own) ∈ start.db.settings ∧ own.emailAddress = text
  namesake other := ∃ own id, (account, own) ∈ start.db.settings ∧ (id, other.settings) ∈ start.db.settings ∧
    server.lib.lower other.emailAddress = server.lib.lower own.emailAddress

section Runs
variable {start : World} {trace : List (Transition (sessionSystem server))} {c : Config (sessionSystem server)}
  (run : Run (idle (sessionSystem server) start) trace c)
include run

/-- A mailbox never goes to another account. -/
theorem held_holds (account : Int) {t : Transition (sessionSystem server)} (member : t ∈ trace) {world : World}
    (passes : t.Passes world) : (held start trace account).Holds world.db := by
  intro row here
  constructor
  · rintro ⟨t', member', world', passes', row', there, same, own⟩
    rw [← own]
    exact run.column_eq (World.answer_mailboxes_succeed server.lib) World.disturb_mailboxes_succeed member member'
      passes passes' here there same.symm
  · exact fun own => ⟨t, member, world, passes, row, here, rfl, own⟩

theorem held_message (account : Int) {t : Transition (sessionSystem server)} (member : t ∈ trace) {world : World}
    (passes : t.Passes world) {row : Row Message} (here : row ∈ world.db.messages.rows)
    (is : (held start trace account).message row.id) : row.data.accountId = account := by
  obtain ⟨t', member', world', passes', row', there, same, own⟩ := is
  rw [← own]
  exact run.column_eq (World.answer_messages_succeed server.lib) World.disturb_messages_succeed member member'
    passes passes' here there same.symm

/-- The accounts are configured in every state as they were at the start. -/
theorem settings_constant {t : Transition (sessionSystem server)} (member : t ∈ trace) {world : World}
    (passes : t.Passes world) : world.db.settings = start.db.settings :=
  @Run.constant _ _ _ _ (fun world : World => world.db.settings) (World.answer_settings server.lib) World.disturb_settings _ _ _ run t member
    world passes

theorem held_addresses (account : Int) {t : Transition (sessionSystem server)} (member : t ∈ trace) {world : World}
    (passes : t.Passes world) : (held start trace account).Addresses server.lib world.db := by
  have settings := settings_constant run member passes
  constructor
  · rintro row here rfl
    exact ⟨row.data.settings, settings ▸ Db.mem_settings here, rfl⟩
  · rintro row here address ⟨own, isOwn, rfl⟩ same
    exact ⟨own, row.id, isOwn, settings ▸ Db.mem_settings here, same⟩

end Runs

theorem Moves.account {lib : Libraries} {services : AppServices} {known : Knowledge cacheSignature}
    {offered : Option (String × String)} {session session' : ImapSession} {name : String}
    (moves : Moves lib services known offered session name session') :
    session'.accountId = session.accountId ∨ session'.selectedMailboxSnapshot = none := by
  cases moves with
  | login named offers granted => exact .inr rfl
  | _ => exact .inl rfl

theorem Moves.of_login {lib : Libraries} {services : AppServices} {known : Knowledge cacheSignature}
    {offered : Option (String × String)} {session session' : ImapSession} {name : String}
    (moves : Moves lib services known offered session name session') (named : name = "LOGIN" ∨ name = "AUTHENTICATE") :
    session' = session ∨ session'.selectedMailboxSnapshot = none := by
  cases moves with
  | stays => exact .inl rfl
  | login named offers granted => exact .inr rfl
  | leave => exact .inr rfl
  | logout => exact .inr rfl
  | select | examine | rename | secure | count => simp at named

/-- The session has an account, which the mailbox it has selected belongs to. -/
def Resident (start : World) (trace : List (Transition (sessionSystem server))) (session : ImapSession) : Prop :=
  session.accountId = some (session.accountId.getD 0) ∧
    Owns (held start trace (session.accountId.getD 0)) session

section Contracts
variable (server) (known : Knowledge cacheSignature) (holdings : Holdings) (connection : Connection)
  (input : Option Input)

/-- What a round touches is what the account holds, or what its session needs. -/
def roundContract : Contract cacheSignature where
  permits op := (sessionContract holdings connection.session.view.isReadOnly).permits op ∨
    SessionUse server.lib server.services known connection.session input op
  expects op value := ((sessionContract holdings connection.session.view.isReadOnly).permits op →
    (sessionContract holdings connection.session.view.isReadOnly).expects op value) ∧ known op value

variable {server known holdings connection input}

theorem serveCommand_rounds (repository : server.services.repository = true) (library : server.lib = holdings.lib)
    (account : connection.session.accountId = some holdings.account) (owns : Owns holdings connection.session)
    (command : Input) :
    (serveCommand server connection command).Honours (roundContract server known holdings connection (some command))
      fun served => Owns holdings served.connection.session := by
  by_cases login : command.name = "LOGIN" ∨ command.name = "AUTHENTICATE"
  · have asks : (serveCommand server connection command).Honours
        (roundContract server known holdings connection (some command)) fun _ => True :=
      (serveCommand_logs_in login).weaken (fun op use => .inr use) fun op value _ expected => expected.2
    refine (asks.and_ends (serveCommand_moves server connection command)).mono fun served ends => ?_
    rcases ends.2.of_login login with same | nothing
    · exact same ▸ owns
    · exact owns_nothing nothing
  · have serves := serveCommand_serves library repository (not_or.mp login) account owns rfl
    exact serves.weaken (fun op permitted => .inl permitted) fun op value permitted expected => expected.1 permitted

end Contracts

/-- The contract of a round in the session of an account. -/
def clientContract (start : World) (trace : List (Transition (sessionSystem server))) (pid : Nat)
    (task : SessionTask) : Contract cacheSignature :=
  (roundContract server (answered trace pid task) (held start trace (task.connection.session.accountId.getD 0))
    task.connection task.input).when (Resident start trace task.connection.session)

/-- What a round leaves of the session it was served in. -/
def clientServed (start : World) (trace : List (Transition (sessionSystem server))) (_ : Nat) (task : SessionTask)
    (served : Served) : Prop :=
  Resident start trace task.connection.session →
    Owns (held start trace (task.connection.session.accountId.getD 0)) served.connection.session

theorem code_honours (repository : server.services.repository = true) (start : World)
    (trace : List (Transition (sessionSystem server))) (pid : Nat) (task : SessionTask) :
    ((sessionSystem server).code pid task).Honours (clientContract start trace pid task)
      (clientServed start trace pid task) := by
  refine honours_when fun resident => ?_
  obtain ⟨connection, input⟩ := task
  refine serveRound_honours (.inr .disconnect) resident.2 fun command is => ?_
  rw [Option.mem_def.mp is]
  exact @serveCommand_rounds { server with connection := pid } _ _ connection repository rfl resident.1 resident.2
    command

section Runs
variable {start : World} {trace : List (Transition (sessionSystem server))} {c : Config (sessionSystem server)}
  (run : Run (idle (sessionSystem server) start) trace c)
include run

theorem call_state {t : Transition (sessionSystem server)} (member : t ∈ trace) {pid : Nat} {task : SessionTask}
    {op : Op} {fault : Fault Error} (event : t.event = .call pid task op fault) :
    t.after.state = ((cacheHandler server.lib).answer fault op t.before.state).2 := by
  obtain ⟨newer, older, rfl⟩ := List.append_of_mem member
  obtain ⟨-, step⟩ := run.split
  obtain ⟨before, event', after⟩ := t
  obtain rfl : event' = .call pid task op fault := event
  change Step before (.call pid task op fault) after at step
  cases step with
  | call fault here => rfl

theorem answered_as_expected : ∀ t ∈ trace, AnsweredAs (clientContract start trace) t := by
  intro t member pid task op fault event _ value ok resident
  refine ⟨fun permitted => ?_, t, member, fault, event, ok⟩
  have within := permitted.1
  have holds := held_holds run (task.connection.session.accountId.getD 0) member (.inl rfl)
  have addresses := held_addresses run (task.connection.session.accountId.getD 0) member (.inl rfl)
  have answered := Handler.answer_ok ok
  have after : t.after.state = (t.before.state.perform server.lib op).2 :=
    (call_state run member event).trans (congrArg Prod.snd answered)
  rw [answered] at ok
  refine World.perform_expected holds addresses within (fun row here own => ?_) ok
  exact ⟨t, member, _, .inr rfl, row, by rwa [after], rfl, own⟩

variable (repository : server.services.repository = true)
include repository

theorem client_resident {history : List Exchange} {connection : Connection}
    (client : Client trace history connection) (account : connection.session.accountId.isSome = true) :
    Resident start trace connection.session := by
  have kept := run.honours (code_honours repository start trace) (answered_as_expected run)
  have named {session : ImapSession} (account : session.accountId.isSome = true) :
      session.accountId = some (session.accountId.getD 0) := by
    obtain ⟨accountId, is⟩ := Option.isSome_iff_exists.mp account
    rw [is]
    rfl
  refine ⟨named account, ?_⟩
  induction client with
  | accepted listener connectionId peerAddr => cases listener <;> exact owns_nothing rfl
  | @served _ t exchange earlier _ member event ih =>
      have moves := run.ends (fun pid task => serveRound_moves { server with connection := pid } task.connection
        task.input) member event exchange.input rfl
      rcases moves.account with same | nothing
      · rw [same] at account ⊢
        exact (kept t member).2 exchange.pid exchange.task exchange.served event ⟨named account, ih account⟩
      · exact owns_nothing nothing

theorem client_call_within {history : List Exchange} {connection : Connection}
    (client : Client trace history connection) {account : Int} (own : connection.session.accountId = some account)
    {t : Transition (sessionSystem server)} (member : t ∈ trace) {pid : Nat} {input : Option Input} {op : Op}
    {fault : Fault Error} (event : t.event = .call pid ⟨connection, input⟩ op fault) :
    (op.Within (held start trace account) ∧ (connection.session.view.isReadOnly = true → op.Harmless)) ∨
      SessionUse server.lib server.services (answered trace pid ⟨connection, input⟩) connection.session input op := by
  have resident := client_resident run repository client (by rw [own]; rfl)
  have kept := run.honours (code_honours repository start trace) (answered_as_expected run) t member
  have permitted := kept.1 pid ⟨connection, input⟩ op fault event resident
  rwa [show connection.session.accountId.getD 0 = account by rw [own]; rfl] at permitted

end Runs

/-! ## Two users -/

def sharedServer : Server := ⟨Sample.libraries, ⟨.postgres, ⟨5, 60000000000⟩, true, true, false⟩, 0⟩

def sharedDb : Db :=
  { Sample.db [Sample.mailbox "Work" none, { Sample.mailbox "Play" none with accountId := 2 }]
      [Sample.row 1 1 none [], Sample.row 2 1 none []] with
    accounts := .ofList [Sample.account, { Sample.account with userId := 2, emailAddress := "b@example.com" }]
    users := .ofList [⟨"a@example.com", "pw", none⟩, ⟨"b@example.com", "pw", none⟩] }

def shared : Config (sessionSystem sharedServer) :=
  (sessionSystem sharedServer).idle (Sample.world sharedDb (Sample.emptyServer none))

def firstUser : Connection :=
  { newcomer with session := newcomer.session.activate ⟨1, some 1, "a@example.com"⟩ true }

def firstUserIn : Served := ⟨writeLines [Commands.ok "a" "LOGIN completed"], firstUser⟩

def deletesWork : List (Label (sessionSystem sharedServer)) :=
  [Label.spawn 0 (command newcomer "LOGIN" ["a@example.com", "pw"])] ++ List.replicate 6 (Label.step 0 .none) ++
    [Label.finish 0, Label.spawn 0 (command firstUser "DELETE" ["Work"]), Label.step 0 .none]

def callsOf (connection : Connection) {server : Server} (trace : List (Transition (sessionSystem server))) :
    List Op :=
  trace.filterMap fun t => match t.event with
    | .call _ task op _ => if task.connection = connection then some op else none
    | _ => none

theorem mem_callsOf {connection : Connection} {server : Server} {trace : List (Transition (sessionSystem server))}
    {op : Op} (member : op ∈ callsOf connection trace) :
    ∃ t ∈ trace, ∃ pid input fault, t.event = .call pid ⟨connection, input⟩ op fault := by
  obtain ⟨t, inTrace, found⟩ := List.mem_filterMap.mp member
  refine ⟨t, inTrace, ?_⟩
  split at found
  · rename_i pid task op' fault event
    split at found
    · rename_i same
      cases found
      exact ⟨pid, task.input, fault, by rw [event, ← same]⟩
    · cases found
  · cases found

theorem deletesWork_runs : ∃ trace c history t pid input op fault, Run shared trace c ∧
    Client trace history firstUser ∧ t ∈ trace ∧ t.event = .call pid ⟨firstUser, input⟩ op fault ∧
    Component.mailboxMessages ∈ op.writes := by
  have evaluated : (schedule [] shared deletesWork).map (fun run =>
      decide ((newcomer, firstUserIn) ∈ finished run.1) &&
        (callsOf firstUser run.1).any fun op => decide (Component.mailboxMessages ∈ op.writes)) = some true := by
    decide +kernel
  obtain ⟨⟨trace, c⟩, followed, holds⟩ := Option.map_eq_some_iff.mp evaluated
  simp only [Bool.and_eq_true, decide_eq_true_eq, List.any_eq_true] at holds
  obtain ⟨served, op, called, writes⟩ := holds
  obtain ⟨login, loginMember, loginPid, loginInput, logged⟩ := mem_finished served
  obtain ⟨t, member, pid, input, fault, event⟩ := mem_callsOf called
  have client : Client trace [⟨loginPid, newcomer, loginInput, firstUserIn⟩] firstUser :=
    .served (.accepted (.plaintext false) 1 none) nofun loginMember logged
  exact ⟨trace, c, _, t, pid, input, op, fault, schedule_run .start followed, client, member, event, writes⟩

/-! ## What belongs to others -/

def ofAnother (account : Int) (db : Db) (mailboxId : Int) : Prop :=
  ∃ mailbox ∈ db.mailboxes.rows, mailbox.id = mailboxId ∧ mailbox.data.accountId ≠ account

/-- Every row of another account is there afterwards as before, and no other row of one. -/
structure LeavesOthers (account : Int) (db db' : Db) : Prop where
  accounts : db.accounts.Spares (fun row => row.id ≠ account) db'.accounts
  mailboxes : db.mailboxes.Spares (fun row => row.data.accountId ≠ account) db'.mailboxes
  messages : db.messages.Spares (fun row => row.data.accountId ≠ account) db'.messages
  mailboxMessages : db.mailboxMessages.Spares (fun row => ofAnother account db row.data.mailboxId) db'.mailboxMessages
  mimeParts : db.mimeParts.Spares (fun row => ∃ message ∈ db.messages.rows,
    message.id = row.data.messageId ∧ message.data.accountId ≠ account) db'.mimeParts
  uidMappings : db.uidMappings.Spares (fun row => ofAnother account db row.data.mailboxId) db'.uidMappings
  syncStates : db.syncStates.Spares (fun row => row.data.accountId ≠ account ∧
    ∀ mailboxId ∈ row.data.mailboxId, ofAnother account db mailboxId) db'.syncStates
  pendingMutations : db.pendingMutations.Spares (fun row => ofAnother account db row.data.mailboxId) db'.pendingMutations
  cacheObjects : db.cacheObjects.Spares (fun row => row.data.accountId ≠ some account) db'.cacheObjects
  quotas : db.quotas.Spares (fun row => row.data.accountId ≠ some account) db'.quotas
  users : db'.users = db.users

theorem LeavesOthers.refl (account : Int) (db : Db) : LeavesOthers account db db :=
  ⟨.refl _, .refl _, .refl _, .refl _, .refl _, .refl _, .refl _, .refl _, .refl _, .refl _, rfl⟩

theorem SessionUse.writes {lib : Libraries} {services : AppServices} {known : Knowledge cacheSignature}
    {session : ImapSession} {input : Option Input} {op : Op} (use : SessionUse lib services known session input op)
    (k : Component) (written : k ∈ op.writes) : k = .attempts ∨ k = .auditLog ∨ k = .sessionRecords := by
  cases use with
  | login is offers use => cases use <;> simp_all [Op.writes]
  | disconnect => simp_all [Op.writes]

theorem SessionUse.leaves_others {lib : Libraries} {services : AppServices} {known : Knowledge cacheSignature}
    {session : ImapSession} {input : Option Input} {op : Op} (use : SessionUse lib services known session input op)
    (account : Int) (world : World) : LeavesOthers account world.db (world.perform lib op).2.db := by
  have frame (k : Component) (other : k ≠ .attempts ∧ k ≠ .auditLog ∧ k ≠ .sessionRecords) :
      (world.perform lib op).2.component k = world.component k := by
    refine World.perform_frame lib world op k fun written => ?_
    rcases use.writes k written with is | is | is
    · exact other.1 is
    · exact other.2.1 is
    · exact other.2.2 is
  exact ⟨.of_eq (frame .accounts (by decide)), .of_eq (frame .mailboxes (by decide)),
    .of_eq (frame .messages (by decide)), .of_eq (frame .mailboxMessages (by decide)),
    .of_eq (frame .mimeParts (by decide)), .of_eq (frame .uidMappings (by decide)),
    .of_eq (frame .syncStates (by decide)), .of_eq (frame .pendingMutations (by decide)),
    .of_eq (frame .cacheObjects (by decide)), .of_eq (frame .quotas (by decide)), frame .users (by decide)⟩

/-- No call of a command in the session of an account changes, adds or removes a row of another account: its
mailboxes and their messages, the parts, the objects, the quota and the queue of changes. -/
theorem account_clients_leave_others (server : Server) (repository : server.services.repository = true)
    (start : World) {trace : List (Transition (sessionSystem server))} {c : Config (sessionSystem server)}
    (run : Run (idle (sessionSystem server) start) trace c) {history : List Exchange}
    {connection : Connection} (client : Client trace history connection) {account : Int}
    (own : connection.session.accountId = some account) {t : Transition (sessionSystem server)} (member : t ∈ trace)
    {pid : Nat} {input : Option Input} {op : Op} {fault : Fault Error}
    (event : t.event = .call pid ⟨connection, input⟩ op fault) :
    LeavesOthers account t.before.state.db t.after.state.db := by
  rw [call_state run member event]
  rcases (cacheHandler server.lib).answer_state fault op t.before.state with same | same <;> rw [same]
  · exact .refl account _
  rcases client_call_within run repository client own member event with ⟨within, -⟩ | use
  · have holds := held_holds run account member (.inl rfl)
    have foreign {mailboxId : Int} (another : ofAnother account t.before.state.db mailboxId) :
        ¬ (held start trace account).mailbox mailboxId := by
      obtain ⟨mailbox, here, rfl, other⟩ := another
      exact fun is => other ((holds mailbox here).mp is)
    have spares := World.perform_spares server.lib holds within
    refine ⟨spares.accounts, spares.mailboxes, spares.messages, ?_, ?_, ?_, ?_, ?_, spares.cacheObjects,
      spares.quotas, spares.users⟩
    · exact spares.mailboxMessages.mono fun row another => foreign another
    · refine spares.mimeParts.mono ?_
      rintro row ⟨message, here, same, other⟩ is
      exact other (held_message run account member (.inl rfl) here (same ▸ is))
    · exact spares.uidMappings.mono fun row another => foreign another
    · exact spares.syncStates.mono fun row another =>
        ⟨another.1, fun mailboxId is => foreign (another.2 mailboxId is)⟩
    · exact spares.pendingMutations.mono fun row another => foreign another
  · exact use.leaves_others account t.before.state

theorem account_clients_leave_others_deletion : ∃ trace c t pid input op fault, Run shared trace c ∧ t ∈ trace ∧
    t.event = .call pid ⟨firstUser, input⟩ op fault ∧ Component.mailboxMessages ∈ op.writes ∧
    LeavesOthers 1 t.before.state.db t.after.state.db := by
  obtain ⟨trace, c, history, t, pid, input, op, fault, run, client, member, event, writes⟩ := deletesWork_runs
  exact ⟨trace, c, t, pid, input, op, fault, run, member, event, writes,
    account_clients_leave_others sharedServer rfl _ run client rfl member event⟩

end Session
end ImapCache
