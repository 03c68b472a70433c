import ImapCache.Model.Session

/-!
# Connections

`handle_connection`: a line becomes a command, and a command goes to STARTTLS, to AUTHENTICATE, to
IDLE, to the raw FETCH path or to the dispatcher of the session. An error that is not answered ends
the connection.
-/

namespace ImapCache.Session
open Lib Prog Protocol

/-! ## Lines -/

/-- The most bytes that an allocation can ask for. -/
def maxAllocation : Nat := 9223372036854775807

/-- The command of a line, with the literal that its last argument announces. -/
def readCommandWithLiteral (line : String) (following : Bytes) :
    Action (Option (ParsedCommand × Option Bytes)) := do
  match ← ofExcept (parseCommand line) with
  | none => pure none
  | some command => do
      let marker ← match command.args.getLast? with
        | some value => orPanic (parseLiteralMarker value)
        | none => pure none
      match marker with
      | none => pure (some (command, none))
      | some (length, _) =>
          if length > maxAllocation then orPanic (.error .capacityOverflow)
          else if following.length < length then throw (.io "early eof")
          else pure (some (command, some (following.take length)))

/-- `read_line`: the bytes up to a line feed and the line feed, or all that are left. -/
def readLine : Bytes → Bytes × Bytes
  | [] => ([], [])
  | byte :: bytes =>
      if byte = 0x0A then ([byte], bytes)
      else
        let (line, rest) := readLine bytes
        (byte :: line, rest)

/-- A round of the loop that reads commands: nothing at the end of the stream, else the command of a
line, if it has one, and the bytes after it. -/
def readRound (stream : Bytes) : Action (Option (Option (ParsedCommand × Option Bytes) × Bytes)) :=
  let (line, following) := readLine stream
  if line.isEmpty then pure none
  else
    match fromUtf8 line with
    | none => throw (.io "stream did not contain valid UTF-8")
    | some line => do
        let command ← readCommandWithLiteral line following
        let literal := (command.bind (·.2)).getD []
        pure (some (command, following.drop literal.length))

/-- The commands of some rounds of the loop and the bytes that they leave. -/
def readRounds : Nat → Bytes → Action (List (ParsedCommand × Option Bytes) × Bytes)
  | 0, stream => pure ([], stream)
  | rounds + 1, stream => do
      match ← readRound stream with
      | none => pure ([], [])
      | some (command, rest) => do
          let (commands, rest) ← readRounds rounds rest
          pure (command.toList ++ commands, rest)

/-! ## AUTHENTICATE -/

def readSaslResponse (lib : Libraries) (line : Option String) : Except Error (Option Bytes) :=
  match line.map fun line => String.ofList (trimLineEnd line.toList) with
  | none | some "*" => .ok none
  | some response => (Auth.decodeSaslResponse lib response).map some

/-- What the client presents: in the command or, if it is not there, in the line that answers the
challenge. -/
def authBlob (lib : Libraries) (args : List String) (line : Option String) :
    Except Error (Option Bytes) :=
  match args[1]? with
  | some "=" => .ok (some [])
  | some response => (Auth.decodeSaslResponse lib response).map some
  | none => readSaslResponse lib line

/-- The credentials of an AUTHENTICATE, or the line that refuses it. -/
def saslCredentials (lib : Libraries) (session : ImapSession) (tag : String) (args : List String)
    (line : Option String) : Except Error (Except String (String × String)) :=
  if session.state ≠ .notAuthenticated then
    .ok (.error (Commands.no tag "BADSTATE" "AUTHENTICATE requires a not-authenticated session"))
  else
    match args.head? with
    | none => .ok (.error (Commands.bad tag "AUTHENTICATE requires a mechanism"))
    | some mechanism =>
        let upper := toAsciiUppercase mechanism
        if upper ≠ "PLAIN" ∧ upper ≠ "XOAUTH2" then
          .ok (.error (Commands.no tag "UNIMPLEMENTED"
            ("AUTHENTICATE " ++ mechanism ++ " is not yet implemented")))
        else if args.length > 2 then
          .ok (.error (Commands.bad tag "AUTHENTICATE accepts at most one initial response"))
        else do
          match ← authBlob lib args line with
          | none => pure (.error (Commands.bad tag "AUTHENTICATE canceled"))
          | some blob => do
              let credentials ← if upper = "XOAUTH2" then Auth.parseSaslXoauth2Auth blob
                else Auth.parseSaslPlainAuth blob
              pure (.ok credentials)

def handleAuthenticate (server : Server) (session : ImapSession) (tag : String) (args : List String)
    (line : Option String) : Action Response := do
  match ← ofExcept (saslCredentials server.lib session tag args line) with
  | .error refusal => pure ⟨[refusal], session⟩
  | .ok (username, password) => do
      match ← Auth.authenticate server.lib server.services.limits server.services.authenticator username
          password with
      | some context => do
          let session ← activateAuthenticatedSession server.services session context
          pure ⟨[Commands.ok tag "AUTHENTICATE completed"], session⟩
      | none =>
          pure ⟨[Commands.no tag "AUTHENTICATIONFAILED" "invalid credentials"], session⟩

/-! ## IDLE -/

/-- What ends a wait in IDLE; the stream is at its end when there is nothing more. -/
inductive IdleInput where
  | line (text : String)
  | timeout
  | event (event : MutationEvent)
  | lagged
  | closed

def countMessages (mailboxId : Int) : Action Int := do
  let messages ← await (.listMailboxMessages mailboxId)
  pure messages.length

def withExists (session : ImapSession) (existsCount : Int) : ImapSession :=
  { session with selectedMailboxSnapshot :=
      session.selectedMailboxSnapshot.map fun snapshot => { snapshot with existsCount } }

def mentions (event : MutationEvent) (detail : String) : Bool :=
  Search.containsText event.detail.toList detail.toList

/-- A change of the number of messages since the last one that was announced. -/
def existsNotification (session : ImapSession) (snapshot : SelectedMailboxSnapshot) :
    Action (Option String × ImapSession) := do
  let existsCount ← countMessages snapshot.mailboxId
  if existsCount > snapshot.existsCount then
    pure (some ("* " ++ toString existsCount ++ " EXISTS"), withExists session existsCount)
  else if existsCount < snapshot.existsCount then
    pure (some ("* " ++ toString (snapshot.existsCount - existsCount) ++ " EXPUNGE"),
      withExists session existsCount)
  else pure (none, session)

/-- The flags of a message that is still there. -/
def flagsNotification (session : ImapSession) (snapshot : SelectedMailboxSnapshot)
    (event : MutationEvent) : Action (Option (String × ImapSession)) := do
  let some localUid := event.localUid | pure none
  let some sequence ← Commands.sequenceNumberForLocalUid snapshot.mailboxId localUid | pure none
  let existsCount ← countMessages snapshot.mailboxId
  pure (some (Commands.fetchFlagsLine sequence event.flags, withExists session existsCount))

def selectedNotification (session : ImapSession) (snapshot : SelectedMailboxSnapshot)
    (event : MutationEvent) : Action (Option String × ImapSession) := do
  match (if mentions event "delete_mailbox_message" then event.sequenceNumber else none) with
  | some sequence => do
      let existsCount ← countMessages snapshot.mailboxId
      pure (some ("* " ++ toString sequence ++ " EXPUNGE"), withExists session existsCount)
  | none => do
      let flags ← if mentions event "update_mailbox_message_flags" || mentions event "store_flags" then
          flagsNotification session snapshot event
        else pure none
      match flags with
      | some (line, session) => pure (some line, session)
      | none => existsNotification session snapshot

def idleNotificationForEvent (server : Server) (session : ImapSession) (event : MutationEvent) :
    Action (Option String × ImapSession) :=
  match session.selectedMailboxSnapshot with
  | none => pure (none, session)
  | some snapshot =>
      if event.accountId = some snapshot.accountId ∧ event.mailboxId = some snapshot.mailboxId ∧
          server.services.repository = true then
        selectedNotification session snapshot event
      else pure (none, session)

def handleIdle (server : Server) (tag : String) (session : ImapSession) :
    List IdleInput → Action Response
  | [] => pure ⟨[], session⟩
  | .line text :: inputs =>
      if eqIgnoreAsciiCase (String.ofList (trimLineEnd text.toList)) "DONE" then
        pure ⟨[Commands.ok tag "IDLE terminated"], session⟩
      else handleIdle server tag session inputs
  | .timeout :: _ => pure ⟨["* BYE IDLE timeout"], session⟩
  | .event event :: inputs => do
      let (line, session) ← idleNotificationForEvent server session event
      let rest ← handleIdle server tag session inputs
      pure ⟨line.toList ++ rest.lines, rest.session⟩
  | .lagged :: inputs => handleIdle server tag session inputs
  | .closed :: _ => pure ⟨[], session⟩

/-! ## Commands -/

structure Connection where
  session : ImapSession
  /-- Whether the listener has a TLS acceptor for STARTTLS. -/
  acceptor : Bool
  /-- Whether the transport is not yet encrypted. -/
  plain : Bool
deriving DecidableEq, Repr

inductive Listener where
  | plaintext (starttls : Bool)
  | tls

/-- What `serve_plaintext` and `serve_tls` hand to `handle_connection`, with the session that it makes. -/
def Listener.accept (listener : Listener) (connectionId : Uuid) (peerAddr : Option String) : Connection :=
  let session := { ImapSession.new connectionId with remoteAddr := peerAddr }
  match listener with
  | plaintext starttls => ⟨{ session with starttlsAvailable := starttls }, starttls, true⟩
  | tls => ⟨{ session with starttlsAvailable := false, tlsActive := true }, false, false⟩

/-- A command and what the client sends while it is handled: its literal, the answer to a challenge,
a TLS handshake and what happens during IDLE. -/
structure Input where
  command : ParsedCommand
  literal : Option Bytes
  response : Option String
  handshake : Bool
  idle : List IdleInput

def Input.name (input : Input) : String := toAsciiUppercase input.command.name

structure Served where
  written : Bytes
  connection : Connection
deriving DecidableEq, Repr

def writeLines (lines : List String) : Bytes :=
  lines.flatMap fun line => Mutations.utf8 (line ++ "\r\n")

def Connection.serve (connection : Connection) (lines : List String) (session : ImapSession) :
    Served :=
  ⟨writeLines lines, { connection with session }⟩

/-- The line that a parse error or a bad command is answered with. -/
def errorLine (tag : String) : Error → Option String
  | .parse message => some (tag ++ " BAD " ++ message)
  | .imapCommand message =>
      match stripPrefix "BADCHARSET ".toList message.toList with
      | some rest => some (tag ++ " NO [BADCHARSET] " ++ String.ofList rest)
      | none => some (tag ++ " BAD " ++ message)
  | _ => none

/-- The dispatcher with the errors that are answered; any other goes on. -/
def respond (server : Server) (session : ImapSession) (command : ParsedCommand)
    (literal : Option Bytes) : Action Response := do
  match ← (handleParsedCommand server session command literal).attempt with
  | .ok response => pure response
  | .error failure =>
      match errorLine command.tag failure with
      | some line => pure ⟨[line], session⟩
      | none => throw failure

def serveStarttls (connection : Connection) (input : Input) : Action Served :=
  let session := connection.session
  let tag := input.command.tag
  if !connection.acceptor then
    pure (connection.serve [Commands.no tag "UNIMPLEMENTED" "STARTTLS is not enabled"] session)
  else if !session.tlsActive && session.starttlsAvailable && connection.plain &&
      session.state == .notAuthenticated then
    if input.handshake then
      pure ⟨writeLines [Commands.ok tag "Begin TLS negotiation now"],
        { connection with plain := false
                          session := { session with tlsActive := true, starttlsAvailable := false } }⟩
    else throw (.io "tls handshake")
  else pure (connection.serve [Commands.no tag "BADSTATE" "STARTTLS is not available"] session)

/-- The bytes of a raw FETCH, if the command is one. -/
def serveRawFetch (server : Server) (session : ImapSession) (input : Input) :
    Action (Option Bytes) :=
  if (input.name == "FETCH" || input.name == "UID") && server.services.repository then
    RawFetch.writeRawFetchResponse
      ⟨server.lib, server.services.mutationEngine, server.services.search, input.command.tag,
        session.view, server.connection⟩ input.command
  else pure none

def serveCommand (server : Server) (connection : Connection) (input : Input) : Action Served := do
  let session := connection.session
  let tag := input.command.tag
  if input.name = "STARTTLS" then serveStarttls connection input
  else if input.name = "AUTHENTICATE" then
    let response ← handleAuthenticate server session tag input.command.args input.response
    pure (connection.serve response.lines response.session)
  else if input.name = "IDLE" then
    let response ← handleIdle server tag session input.idle
    pure (connection.serve ("+ idling" :: response.lines) response.session)
  else
    match ← serveRawFetch server session input with
    | some written =>
        pure ⟨written ++ writeLines [Commands.ok tag "FETCH completed"], connection⟩
    | none => do
        let response ← respond server session input.command input.literal
        pure (connection.serve response.lines response.session)

/-- A round of the loop of `handle_connection`: the client has gone, or a command is served. When the loop
is left, at the end of the stream, after LOGOUT or by an error, the session is recorded as disconnected; a
panic takes the task with it. -/
def serveRound (server : Server) (connection : Connection) : Option Input → Action Served
  | none => do
      recordDisconnected server.services connection.session
      pure (connection.serve [] connection.session)
  | some input => do
      match ← (serveCommand server connection input).attempt with
      | .ok served => do
          onlyIf (served.connection.session.state == .logout)
            (recordDisconnected server.services served.connection.session)
          pure served
      | .error failure => do
          onlyIf (failure != panicked) (recordDisconnected server.services connection.session)
          throw failure

/-- The commands of a client that goes away after them, unless LOGOUT or an error comes first. -/
def handleConnection (server : Server) : Connection → List Input → Action Connection
  | connection, [] => do
      let served ← serveRound server connection none
      pure served.connection
  | connection, input :: inputs => do
      let served ← serveRound server connection (some input)
      if served.connection.session.state = .logout then pure served.connection
      else handleConnection server served.connection inputs

end ImapCache.Session
