import ImapCache.Proof.SelectedMailbox
import ImapCache.Proof.SessionMoves

/-!
# Sessions of clients

What holds of the session of a client after any commands, each served in the session that the one before
left, while other clients, syncs and workers go on.
-/

namespace ImapCache.Session
open Lib Prog System

variable {server : Server}

/-- A command of a client: the process that has served it, the connection it was sent on and what came of it. -/
structure Exchange where
  pid : Nat
  connection : Connection
  input : Input
  served : Served

def Exchange.task (exchange : Exchange) : SessionTask := ⟨exchange.connection, some exchange.input⟩

/-- A client in a run: the commands it has been served, the last one first, each in the session that the
one before left. -/
inductive Client (trace : List (Transition (sessionSystem server))) : List Exchange → Connection → Prop where
  | accepted (listener : Listener) (connectionId : Uuid) (peerAddr : Option String) :
      Client trace [] (listener.accept connectionId peerAddr)
  | served {history : List Exchange} {t : Transition (sessionSystem server)} {exchange : Exchange}
      (earlier : Client trace history exchange.connection)
      (staying : exchange.connection.session.state ≠ .logout) (member : t ∈ trace)
      (event : t.event = .finish exchange.pid exchange.task (.ok exchange.served)) :
      Client trace (exchange :: history) exchange.served.connection

/-- The command is a login: by the answers that it has got in the run, the authenticator has accepted the user
name and the password that the client has sent in it, and the session that it leaves is the user's. -/
def LogsIn (trace : List (Transition (sessionSystem server))) (exchange : Exchange) (context : Auth.AuthContext) :
    Prop :=
  (exchange.input.name = "LOGIN" ∨ exchange.input.name = "AUTHENTICATE") ∧
    (∃ username password,
      credentials server.lib exchange.connection.session exchange.input = some (username, password) ∧
        Granted server.lib (answered trace exchange.pid exchange.task) username password
          server.services.authenticator context) ∧
    exchange.served.connection.session.authenticated = some context ∧
    exchange.served.connection.session.state = .authenticated

/-- The session is settled: it is authenticated as one of its logins has been granted, it has a snapshot
exactly while a mailbox is selected, of a mailbox of its account, and without a login it is beyond its
first state only by a SELECT or an EXAMINE. -/
structure Settled (trace : List (Transition (sessionSystem server))) (history : List Exchange)
    (session : ImapSession) : Prop where
  granted : ∀ context ∈ session.authenticated, ∃ exchange ∈ history, LogsIn trace exchange context
  fresh : session.state = .notAuthenticated →
    session.authenticated = none ∧ session.selectedMailboxSnapshot = none
  snapshot : session.selectedMailboxSnapshot.isSome = session.selectedMailboxName.isSome
  owner : ∀ snapshot ∈ session.selectedMailboxSnapshot, snapshot.accountId = session.accountId.getD 0
  synthetic : session.accountId = none → ∀ snapshot ∈ session.selectedMailboxSnapshot, snapshot.mailboxId = 0
  beyond : session.authenticated = none → isAuthenticated session = true →
    ∃ exchange ∈ history, exchange.input.name = "SELECT" ∨ exchange.input.name = "EXAMINE"

variable {trace : List (Transition (sessionSystem server))}

theorem settled_accept (listener : Listener) (connectionId : Uuid) (peerAddr : Option String) :
    Settled trace [] (listener.accept connectionId peerAddr).session := by
  cases listener with
  | plaintext starttls => constructor <;> intros <;> simp_all [Listener.accept, ImapSession.new,
      ImapSession.selectedMailboxName, isAuthenticated]
  | tls => constructor <;> intros <;> simp_all [Listener.accept, ImapSession.new,
      ImapSession.selectedMailboxName, isAuthenticated]

section Steps
variable {history : List Exchange} {session : ImapSession} {exchange : Exchange}

theorem Settled.later (settled : Settled trace history session) : Settled trace (exchange :: history) session where
  granted context is := by
    obtain ⟨earlier, member, login⟩ := settled.granted context is
    exact ⟨earlier, List.mem_cons_of_mem _ member, login⟩
  fresh := settled.fresh
  snapshot := settled.snapshot
  owner := settled.owner
  synthetic := settled.synthetic
  beyond unknown beyond := by
    obtain ⟨earlier, member, selected⟩ := settled.beyond unknown beyond
    exact ⟨earlier, List.mem_cons_of_mem _ member, selected⟩

theorem Selectable.owner {pid : Nat} {task : SessionTask} {mailbox : Row Mailbox}
    (selectable : Selectable server.services (answered trace pid task) session mailbox) :
    mailbox.data.accountId = session.accountId.getD 0 := by
  cases selectable with
  | found name own found =>
      rw [own]
      obtain ⟨t, -, fault, -, ok⟩ := found
      have performed := (Handler.answer_ok ok).symm ▸ ok
      exact World.perform_answers server.lib t.before.state _ _ performed mailbox rfl
  | synthetic name without made =>
      rw [made]
      rfl

theorem Settled.entering (settled : Settled trace history session) {mailbox : Row Mailbox}
    (selectable : Selectable server.services (answered trace exchange.pid exchange.task) session mailbox)
    (readOnly : Bool) (named : exchange.input.name = "SELECT" ∨ exchange.input.name = "EXAMINE") :
    Settled trace (exchange :: history) (entering session readOnly mailbox) where
  granted := settled.later.granted
  fresh first := by cases first
  snapshot := rfl
  owner := by
    rintro _ ⟨⟩
    exact selectable.owner
  synthetic := by
    rintro without _ ⟨⟩
    cases selectable with
    | found name own found => cases own.symm.trans without
    | synthetic name without made => rw [made]; rfl
  beyond _ _ := ⟨exchange, List.mem_cons_self .., named⟩

theorem Settled.activate {context : Auth.AuthContext} {created : Bool}
    (login : LogsIn trace exchange context) :
    Settled trace (exchange :: history) (session.activate context created) where
  granted := by
    rintro _ ⟨⟩
    exact ⟨exchange, List.mem_cons_self .., login⟩
  fresh first := by cases first
  snapshot := rfl
  owner _ absent := by cases absent
  synthetic _ _ absent := by cases absent
  beyond unknown := by cases unknown

theorem Settled.moves (settled : Settled trace history exchange.connection.session)
    (moves : Moves server.lib server.services (answered trace exchange.pid exchange.task)
      (credentials server.lib exchange.connection.session exchange.input) exchange.connection.session
      exchange.input.name exchange.served.connection.session) :
    Settled trace (exchange :: history) exchange.served.connection.session := by
  have later : Settled trace (exchange :: history) exchange.connection.session := settled.later
  generalize named : exchange.input.name = name at moves
  generalize left : exchange.served.connection.session = session' at moves
  cases moves with
  | stays => exact later
  | login isLogin offers granted =>
      refine .activate ⟨named ▸ isLogin, ⟨_, _, offers, granted⟩, ?_, ?_⟩
      · rw [left]
        rfl
      · rw [left]
        rfl
  | select selectable => exact settled.entering selectable false (.inl named)
  | examine selectable => exact settled.entering selectable true (.inr named)
  | leave isLeave selected =>
      refine ⟨later.granted, nofun, rfl, nofun, nofun, fun unknown _ => later.beyond unknown ?_⟩
      unfold ImapSession.selectedMailboxName at selected
      unfold isAuthenticated
      split at selected
      · rename_i state
        rw [state]
      · cases selected
  | rename destination selected =>
      refine ⟨later.granted, nofun, ?_, later.owner, later.synthetic, fun unknown _ => later.beyond unknown ?_⟩
      · have snapshot := later.snapshot
        unfold ImapSession.selectedMailboxName at snapshot ⊢
        rw [selected] at snapshot
        exact snapshot
      · unfold isAuthenticated
        rw [selected]
  | logout => exact ⟨later.granted, nofun, rfl, nofun, nofun, nofun⟩
  | secure => exact ⟨later.granted, later.fresh, later.snapshot, later.owner, later.synthetic, later.beyond⟩
  | count existsCount =>
      refine ⟨later.granted, fun first => ⟨(later.fresh first).1, ?_⟩, ?_, ?_, ?_, later.beyond⟩
      · simp [withExists, (later.fresh first).2]
      · simp only [withExists, Option.isSome_map]
        exact later.snapshot
      · intro snapshot counted
        obtain ⟨before, is, rfl⟩ := Option.map_eq_some_iff.mp counted
        exact later.owner before is
      · intro without snapshot counted
        obtain ⟨before, is, rfl⟩ := Option.map_eq_some_iff.mp counted
        exact later.synthetic without before is

end Steps

theorem settled_of_client {start : World} {c : Config (sessionSystem server)}
    (run : Run (idle (sessionSystem server) start) trace c) {history : List Exchange}
    {connection : Connection} (client : Client trace history connection) :
    Settled trace history connection.session := by
  induction client with
  | accepted listener connectionId peerAddr => exact settled_accept listener connectionId peerAddr
  | @served _ _ exchange _ _ member event ih =>
      have moves := run.ends (fun pid task => serveRound_moves { server with connection := pid } task.connection
        task.input) member event exchange.input rfl
      exact ih.moves moves

/-- What the commands of a run have been served, each with the connection it was sent on. -/
def finished (trace : List (Transition (sessionSystem server))) : List (Connection × Served) :=
  trace.filterMap fun t => match t.event with
    | .finish _ ⟨connection, some _⟩ (.ok served) => some (connection, served)
    | _ => none

theorem mem_finished {connection : Connection} {served : Served} (member : (connection, served) ∈ finished trace) :
    ∃ t ∈ trace, ∃ pid input, t.event = .finish pid ⟨connection, some input⟩ (.ok served) := by
  obtain ⟨t, inTrace, found⟩ := List.mem_filterMap.mp member
  refine ⟨t, inTrace, ?_⟩
  split at found
  · rename_i pid connection' input value event
    cases found
    exact ⟨pid, input, event⟩
  · cases found

def newcomer : Connection := (Listener.plaintext false).accept 1 none

def loggedIn : Served :=
  ⟨writeLines [Commands.ok "a" "LOGIN completed"],
    { newcomer with session := newcomer.session.activate ⟨1, none, "a"⟩ false }⟩

end ImapCache.Session
