import ImapCache.Model.Auth
import ImapCache.Model.Searching

/-!
# Sessions

`ImapSession` and the dispatcher of its commands. A command that fails leaves the session as it was;
one that succeeds answers with the lines that the client is sent and the session after it.
-/

namespace ImapCache.Session
open Lib Prog Repository Protocol
open Commands (SessionState ok bad no)

/-! ## Sessions and services -/

structure SelectedMailboxSnapshot where
  accountId : Int
  mailboxId : Int
  existsCount : Int
deriving DecidableEq, Repr

structure ImapSession where
  state : SessionState
  authenticated : Option Auth.AuthContext
  connectionId : Uuid
  remoteAddr : Option String
  sessionRecordCreated : Bool
  selectedMailboxSnapshot : Option SelectedMailboxSnapshot
  starttlsAvailable : Bool
  tlsActive : Bool
deriving DecidableEq, Repr

/-- Which services the server was started with. -/
structure AppServices where
  authenticator : Auth.Authenticator
  /-- The limits of the authenticator's throttle. -/
  limits : Auth.LoginLimits
  repository : Bool
  search : Bool
  mutationEngine : Bool
deriving DecidableEq, Repr

namespace ImapSession

def new (connectionId : Uuid) : ImapSession :=
  { state := .notAuthenticated, authenticated := none, connectionId, remoteAddr := none
    sessionRecordCreated := false, selectedMailboxSnapshot := none, starttlsAvailable := true
    tlsActive := false }

def capabilities (session : ImapSession) : List String :=
  match session.state with
  | .notAuthenticated =>
      ["IMAP4rev1"] ++
        (if session.starttlsAvailable && !session.tlsActive then ["STARTTLS"] else []) ++
        ["AUTH=PLAIN", "AUTH=XOAUTH2"]
  | .authenticated | .selectedMailbox .. =>
      ["IMAP4rev1", "UIDPLUS", "NAMESPACE", "SPECIAL-USE", "LIST-STATUS", "IDLE", "CONDSTORE",
        "ENABLE", "ID", "ESEARCH", "MOVE", "SORT", "THREAD=REFERENCES", "THREAD=ORDEREDSUBJECT",
        "UNSELECT", "AUTH=PLAIN", "AUTH=XOAUTH2"]
  | .logout => ["IMAP4rev1"]

def accountId (session : ImapSession) : Option Int := session.authenticated.bind (·.accountId)

def selectedMailboxName (session : ImapSession) : Option String :=
  match session.state with
  | .selectedMailbox mailbox _ => some mailbox
  | _ => none

def activate (session : ImapSession) (context : Auth.AuthContext) (sessionRecordCreated : Bool) :
    ImapSession :=
  { session with authenticated := some context, state := .authenticated, sessionRecordCreated
                 selectedMailboxSnapshot := none }

/-- The part of a session that the message commands read. -/
def view (session : ImapSession) : Commands.Session :=
  ⟨session.accountId, session.state, session.selectedMailboxSnapshot.map (·.mailboxId)⟩

/-- The session after a message command. -/
def adopt (session : ImapSession) (view : Commands.Session) : ImapSession :=
  { session with
    state := view.state
    selectedMailboxSnapshot := if view.snapshotMailboxId.isNone then none
      else session.selectedMailboxSnapshot }

end ImapSession

/-- What `handle_parsed_command` is called with; the name is in upper case. -/
structure Request where
  lib : Libraries
  services : AppServices
  connection : Nat
  session : ImapSession
  tag : String
  name : String
  args : List String
  literal : Option Bytes

structure Response where
  lines : List String
  session : ImapSession
deriving DecidableEq, Repr

namespace Request

def context (request : Request) : Commands.Context :=
  ⟨request.lib, request.services.mutationEngine, request.services.search, request.tag,
    request.session.view, request.connection⟩

def reply (request : Request) (lines : List String) : Action Response :=
  pure ⟨lines, request.session⟩

/-- A message command answers for the session. -/
def delegate (request : Request) (command : Action Commands.Reply) : Action Response := do
  let reply ← command
  pure ⟨reply.lines, request.session.adopt reply.session⟩

def requires (request : Request) (what : String) : String :=
  no request.tag "BADSTATE" (request.name ++ " requires " ++ what)

def searcher (request : Request) (mailboxName : String) : Search.Searcher :=
  ⟨request.lib, request.services.repository, request.services.search, request.session.accountId,
    mailboxName, request.connection⟩

/-- The commands on mailboxes work without a repository, in their own way, and with one for an
account only. -/
def withAccount (request : Request) (without : Action Response) (body : Int → Action Response) :
    Action Response :=
  if request.services.repository then
    match request.session.accountId with
    | none => request.reply [request.requires "an authenticated account"]
    | some accountId => body accountId
  else without

/-- The commands on messages ask for an account, then for a selected mailbox, then for a
repository. -/
def withRepository (request : Request) (command : Action Commands.Reply) : Action Response :=
  if request.services.repository then request.delegate command
  else
    match request.session.accountId, request.session.selectedMailboxName with
    | none, _ => request.reply [request.requires "an authenticated account"]
    | some _, none => request.reply [request.requires "a selected mailbox"]
    | some _, some _ => request.reply [request.requires "a database-backed repository"]

/-- The commands that only ask for a selected mailbox. -/
def withSelected (request : Request) (body : String → Action Response) : Action Response :=
  match request.session.selectedMailboxName with
  | none => request.reply [request.requires "a selected mailbox"]
  | some mailbox => body mailbox

end Request

/-! ## Sessions and logins -/

def logout (request : Request) : Action Response :=
  pure ⟨["* BYE IMAP cache proxy logging out", ok request.tag "LOGOUT completed"],
    { request.session with state := .logout, selectedMailboxSnapshot := none }⟩

/-- The session is recorded once; if that fails, the next login tries again. -/
def createSession (services : AppServices) (session : ImapSession) (context : Auth.AuthContext) :
    Action Bool := do
  if services.repository && !session.sessionRecordCreated then
    match ← (await (.createSession
        { userId := context.userId, accountId := context.accountId, connectionId := session.connectionId
          remoteAddr := session.remoteAddr, authenticatedAt := none, disconnectedAt := none })).attempt with
    | .ok _ => pure true
    | .error _ => pure false
  else pure session.sessionRecordCreated

def activateAuthenticatedSession (services : AppServices) (session : ImapSession)
    (context : Auth.AuthContext) : Action ImapSession := do
  let created ← createSession services session context
  pure (session.activate context created)

def recordDisconnected (services : AppServices) (session : ImapSession) : Action Unit :=
  onlyIf (session.sessionRecordCreated && services.repository)
    (tell (.markSessionDisconnected session.connectionId))

def login (request : Request) : Action Response := do
  if request.args.length < 2 then
    request.reply [bad request.tag "LOGIN requires username and password"]
  else
    let username ← orPanic (argAt request.args 0)
    let password ← orPanic (argAt request.args 1)
    match ← Auth.authenticate request.lib request.services.limits request.services.authenticator username
        password with
    | some context => do
        let session ← activateAuthenticatedSession request.services request.session context
        pure ⟨[ok request.tag "LOGIN completed"], session⟩
    | none => request.reply [no request.tag "AUTHENTICATIONFAILED" "invalid credentials"]

def starttls (request : Request) : Action Response :=
  if request.session.tlsActive then
    request.reply [no request.tag "BADSTATE" "STARTTLS is already active"]
  else if !request.session.starttlsAvailable then
    request.reply [no request.tag "BADSTATE" "STARTTLS is not available"]
  else if request.session.state ≠ .notAuthenticated then
    request.reply [request.requires "a not-authenticated session"]
  else request.reply [ok request.tag "Begin TLS negotiation now"]

/-! ## Mailboxes -/

def canonicalMailboxName (name : String) : String :=
  if eqIgnoreAsciiCase name "INBOX" then "inbox" else toAsciiLowercase name

/-- The mailbox that is selected without a database or an account. -/
def syntheticMailbox (session : ImapSession) (name : String) : Row Mailbox :=
  ⟨0, { accountId := session.accountId.getD 0, name, canonicalName := canonicalMailboxName name
        delimiter := some "/", attributes := ["\\HasNoChildren"], subscribed := true
        specialUse := if eqIgnoreAsciiCase name "INBOX" then some "\\Inbox" else none
        uidvalidity := some 1, uidnext := some 1, highestmodseq := some 0, existsCount := 0
        recentCount := 0, unseenCount := 0 }⟩

def selectLines (mailbox : Mailbox) : List String :=
  ["* FLAGS (\\Answered \\Flagged \\Deleted \\Seen \\Draft)",
    "* " ++ toString mailbox.existsCount ++ " EXISTS",
    "* " ++ toString mailbox.recentCount ++ " RECENT",
    "* OK [UIDVALIDITY " ++ toString (mailbox.uidvalidity.getD 1) ++ "] UIDs valid",
    "* OK [UIDNEXT " ++ toString (mailbox.uidnext.getD 1) ++ "] Predicted next UID"] ++
  (mailbox.highestmodseq.map fun highestmodseq => "* OK [HIGHESTMODSEQ " ++ toString highestmodseq ++
    "] Highest mod-sequence value").toList ++
  ["* OK [UNSEEN " ++ toString mailbox.unseenCount ++ "] First unseen message"]

def selected (request : Request) (readOnly : Bool) (mailbox : Row Mailbox) : Response :=
  ⟨selectLines mailbox.data ++ [ok request.tag (if readOnly then "[READ-ONLY] EXAMINE completed"
      else "[READ-WRITE] SELECT completed")],
    { request.session with
      state := .selectedMailbox mailbox.data.name readOnly
      selectedMailboxSnapshot :=
        some ⟨mailbox.data.accountId, mailbox.id, mailbox.data.existsCount⟩ }⟩

/-- SELECT and EXAMINE. Only a session with an account looks for the mailbox; any other selects
whatever it names. -/
def select (request : Request) (readOnly : Bool) : Action Response := do
  let name := request.args.head?.getD "INBOX"
  match (if request.services.repository then request.session.accountId else none) with
  | none => pure (selected request readOnly (syntheticMailbox request.session name))
  | some accountId => do
      let some mailbox ← await (.findMailbox accountId name)
        | request.reply [no request.tag "NONEXISTENT" "mailbox not found"]
      pure (selected request readOnly mailbox)

/-- The offset after the parenthesis that closes the first one. -/
def closingOffset : Nat → List Char → Option Nat
  | _, [] => none
  | depth, c :: rest =>
      let after := depthAfter '(' ')' depth c
      if c = ')' && after == 0 then some 0
      else (closingOffset after rest).map (c.utf8Size + ·)

/-- The status items of a RETURN clause. -/
def parseReturnClause (clause : List Char) :
    Except Panic (Except Error (Option (List String))) := do
  match Slice.findOffset (startsWith "STATUS") (clause.map Char.toUpper) with
  | none => pure (.ok none)
  | some position => do
      let rest ← textFrom clause (position + 6)
      match Slice.findOffset (fun rest => rest.head? == some '(') rest with
      | none => pure (.error (.parse "STATUS return option requires items"))
      | some opening => do
          let parenthesized ← textFrom rest opening
          match closingOffset 0 parenthesized with
          | none => pure (.error (.parse "STATUS return option requires items"))
          | some closing => do
              let items ← textBetween rest opening (opening + closing + 1)
              pure ((parseStatusItems [String.ofList items]).map some)

def parseListRequest (args : List String) :
    Except Panic (Except Error (String × Option (List String))) := do
  let isReturn (arg : String) : Bool := eqIgnoreAsciiCase arg "RETURN"
  let pattern := ((args.takeWhile (!isReturn ·))[1]?.or args.head?).getD "*"
  match args.findIdx? isReturn with
  | none => pure (.ok (pattern, none))
  | some index => do
      let options ← argsFrom args (index + 1)
      let items ← parseReturnClause (Responses.join options).toList
      pure (items.map fun items => (pattern, items))

/-- The rests of a name that a `%` can leave: none is beyond the first delimiter. -/
def restsWithin (delimiter : Char) : List Char → List (List Char)
  | [] => [[]]
  | c :: rest => (c :: rest) :: if c = delimiter then [] else restsWithin delimiter rest

def patternMatches (delimiter : Char) : List Char → List Char → Bool
  | [], name => name.isEmpty
  | '*' :: pattern, name => name.tails.any (patternMatches delimiter pattern)
  | '%' :: pattern, name => (restsWithin delimiter name).any (patternMatches delimiter pattern)
  | _ :: _, [] => false
  | c :: pattern, c' :: name => c == c' && patternMatches delimiter pattern name

def imapListPatternMatches (pattern name delimiter : String) : Bool :=
  patternMatches (delimiter.toList.head?.getD '/') (toAsciiLowercase pattern).toList
    (toAsciiLowercase name).toList

def mailboxListLine (name : String) (mailbox : Mailbox) : String :=
  let attributes := if mailbox.attributes.any fun value =>
      eqIgnoreAsciiCase value "\\haschildren" || eqIgnoreAsciiCase value "\\hasnochildren"
    then mailbox.attributes else mailbox.attributes ++ ["\\HasNoChildren"]
  let attributes := attributes ++ (mailbox.specialUse.filter fun specialUse =>
    !attributes.any (eqIgnoreAsciiCase · specialUse)).toList
  "* " ++ name ++ " (" ++ Responses.join attributes ++ ") " ++
    Responses.quoteImapString (mailbox.delimiter.getD "/") ++ " " ++
    Responses.quoteImapString mailbox.name

/-- The lines of one mailbox of a list. -/
def listLines (name : String) (items : Option (List String)) (mailbox : Mailbox) : List String :=
  mailboxListLine name mailbox :: (items.map (formatStatusResponse mailbox)).toList

/-- LIST and LSUB. -/
def list (request : Request) : Action Response :=
  let completed := ok request.tag (request.name ++ " completed")
  request.withAccount
    (request.reply ["* LIST (\\HasNoChildren) \"/\" \"INBOX\"", completed])
    fun accountId => do
      let mailboxes ← await (.listMailboxes accountId)
      let (pattern, items) ← (do ofExcept (← orPanic (parseListRequest request.args)))
      let listed := (mailboxes.filter fun mailbox =>
        (request.name != "LSUB" || mailbox.data.subscribed) &&
          imapListPatternMatches pattern mailbox.data.name (mailbox.data.delimiter.getD "/"))
      request.reply (listed.flatMap (fun mailbox => listLines request.name items mailbox.data) ++
        [completed])

/-- The items are read from the arguments after the first, of which there may be none. -/
def statusItems (request : Request) : Action (List String) := do
  ofExcept (parseStatusItems (← orPanic (argsFrom request.args 1)))

def status (request : Request) : Action Response := do
  let name := request.args.head?.getD "INBOX"
  let completed := ok request.tag "STATUS completed"
  request.withAccount
    (do
      let items ← statusItems request
      request.reply [formatStatusResponseWithDefaults name items, completed])
    fun accountId => do
      let some mailbox ← await (.findMailbox accountId name)
        | request.reply [no request.tag "NONEXISTENT" "mailbox not found"]
      let items ← statusItems request
      request.reply [formatStatusResponse mailbox.data items, completed]

def newMailbox (accountId : Int) (name : String) : Mailbox :=
  { accountId, name, canonicalName := canonicalMailboxName name, delimiter := some "/"
    attributes := ["\\HasNoChildren"], subscribed := false, specialUse := none
    uidvalidity := some 1, uidnext := some 1, highestmodseq := some 0, existsCount := 0
    recentCount := 0, unseenCount := 0 }

/-- A command on the mailbox that its first argument names. -/
def onMailbox (request : Request) (body : Int → String → Action Response) : Action Response :=
  request.withAccount (request.reply [ok request.tag (request.name ++ " completed")])
    fun accountId =>
      match request.args.head? with
      | none => request.reply [bad request.tag (request.name ++ " requires a mailbox name")]
      | some name => body accountId name

def create (request : Request) : Action Response :=
  onMailbox request fun accountId name => do
    match ← createMailbox (newMailbox accountId name) with
    | some _ => request.reply [ok request.tag "CREATE completed"]
    | none => request.reply [no request.tag "ALREADYEXISTS" "mailbox already exists"]

def delete (request : Request) : Action Response :=
  onMailbox request fun accountId name => do
    let rows ← deleteMailbox accountId name
    if rows = 0 then request.reply [no request.tag "NONEXISTENT" "mailbox not found"]
    else request.reply [ok request.tag "DELETE completed"]

/-- SUBSCRIBE and UNSUBSCRIBE. -/
def subscribe (request : Request) : Action Response :=
  onMailbox request fun accountId name => do
    match ← setMailboxSubscribed accountId name (request.name == "SUBSCRIBE") with
    | some _ => request.reply [ok request.tag (request.name ++ " completed")]
    | none => request.reply [no request.tag "NONEXISTENT" "mailbox not found"]

/-- The selected mailbox is renamed too. -/
def renamed (session : ImapSession) (source destination : String) : ImapSession :=
  match session.state with
  | .selectedMailbox mailbox readOnly =>
      if eqIgnoreAsciiCase mailbox source then
        { session with state := .selectedMailbox destination readOnly }
      else session
  | _ => session

def rename (request : Request) : Action Response :=
  let completed := ok request.tag "RENAME completed"
  request.withAccount (request.reply [completed]) fun accountId => do
    let some source := request.args.head?
      | request.reply [bad request.tag "RENAME requires a source mailbox"]
    let some destination := request.args[1]?
      | request.reply [bad request.tag "RENAME requires a destination mailbox"]
    match ← renameMailbox accountId source destination with
    | some _ => pure ⟨[completed], renamed request.session source destination⟩
    | none => request.reply [no request.tag "NONEXISTENT"
        "mailbox not found or destination already exists"]

/-! ## Searching -/

def numbersLine (name : String) (results : List Nat) : String :=
  if results.isEmpty then "* " ++ name else "* " ++ name ++ " " ++ Responses.join (results.map toString)

def uidName (isUid : Bool) (name : String) : String := if isUid then "UID " ++ name else name

def completedLine (tag name : String) (isUid : Bool) : String :=
  ok tag (uidName isUid name ++ " completed")

def searchLines (tag : String) (isUid : Bool) (options : Option Search.SearchReturnOptions)
    (results : List Nat) : List String :=
  [match options with
    | some options => "* ESEARCH (TAG \"" ++ tag ++ "\")" ++ Search.formatEsearchSummary results options
    | none => numbersLine "SEARCH" results,
   completedLine tag "SEARCH" isUid]

/-- SEARCH and UID SEARCH once the mailbox is known. -/
def search (lib : Libraries) (tag : String) (isUid : Bool) (searcher : Search.Searcher)
    (args : List String) : Action (List String) := do
  let (query, options) ← ofExcept (Search.parseSearchRequest lib none args)
  let results ← Search.executeSearch searcher query isUid
  pure (searchLines tag isUid options results)

def sort (lib : Libraries) (tag : String) (isUid : Bool) (searcher : Search.Searcher)
    (args : List String) : Action (List String) := do
  match ← ofExcept (Search.parseSortRequest lib args) with
  | none => pure [bad tag (uidName isUid "SORT" ++
      " requires sort criteria, charset, and search criteria")]
  | some request => do
      let results ← Search.executeSort searcher request isUid
      pure [numbersLine "SORT" results, completedLine tag "SORT" isUid]

def thread (lib : Libraries) (tag : String) (isUid : Bool) (searcher : Search.Searcher)
    (args : List String) : Action (List String) := do
  match ← ofExcept (Search.parseThreadRequest lib args) with
  | none => pure [bad tag (uidName isUid "THREAD" ++
      " requires a threading algorithm, charset, and search criteria")]
  | some (algorithm, query) => do
      let results ← Search.executeThread searcher algorithm query isUid
      let line := if results.isEmpty then "* THREAD" else "* THREAD " ++ Responses.join results
      pure [line, completedLine tag "THREAD" isUid]

/-- A search command on the selected mailbox. -/
def onSelected (request : Request)
    (body : Libraries → String → Bool → Search.Searcher → List String → Action (List String)) :
    Action Response :=
  request.withSelected fun mailbox => do
    let lines ← body request.lib request.tag false (request.searcher mailbox) request.args
    request.reply lines

/-! ## FETCH -/

def fetchLines (lib : Libraries) (views : List (Int × MailboxMessageView)) (items : List String) :
    List String :=
  views.map fun view => Responses.formatFetchResponse lib view.1 view.2 items

/-- FETCH of metadata. -/
def fetch (context : Commands.Context) (args : List String) : Action Commands.Reply := do
  let some accountId := context.session.accountId
    | context.reply [no context.tag "BADSTATE" "FETCH requires an authenticated account"]
  let some selectedMailbox := context.session.selectedMailboxName
    | context.reply [no context.tag "BADSTATE" "FETCH requires a selected mailbox"]
  let some mailbox ← await (.findMailbox accountId selectedMailbox)
    | context.reply [no context.tag "NONEXISTENT" "selected mailbox not found"]
  let some set := args.head? | context.reply [bad context.tag "FETCH requires a message set"]
  let items ← orPanic (argsFrom args 1)
  let views ← RawFetch.resolveSequenceViews mailbox.id set
  context.reply (fetchLines context.lib views (parseFetchItems items) ++
    [ok context.tag "FETCH completed"])

/-- UID FETCH of metadata; each message is announced under its UID. -/
def uidFetch (context : Commands.Context) (args : List String) (mailbox : Row Mailbox) :
    Action Commands.Reply := do
  let some set := args[1]? | context.reply [bad context.tag "UID FETCH requires a UID set"]
  let items ← orPanic (argsFrom args 2)
  let views ← RawFetch.resolveUidViews mailbox.id set
  context.reply (fetchLines context.lib (views.map fun view => (view.localUid, view))
    (parseFetchItems items) ++ [ok context.tag "UID FETCH completed"])

/-! ## UID -/

/-- The search commands under UID, which the account and the mailbox are known for. -/
def uidSearching (context : Commands.Context) (args : List String) (accountId : Int)
    (body : Libraries → String → Bool → Search.Searcher → List String → Action (List String)) :
    Action Commands.Reply := do
  let args ← orPanic (argsFrom args 1)
  let searcher : Search.Searcher := ⟨context.lib, true, context.search, some accountId,
    context.session.selectedMailboxName.getD "", context.connection⟩
  let lines ← body context.lib context.tag true searcher args
  context.reply lines

/-- `args` starts with the subcommand, which is also there in upper case. -/
def uidCommand (context : Commands.Context) (subcommand : String) (args : List String) :
    Action Commands.Reply :=
  match subcommand with
  | "FETCH" => Commands.withUidMailbox context fun _ mailbox => uidFetch context args mailbox
  | "SEARCH" => Commands.withUidMailbox context fun accountId _ =>
      uidSearching context args accountId search
  | "SORT" => Commands.withUidMailbox context fun accountId _ =>
      uidSearching context args accountId sort
  | "THREAD" => Commands.withUidMailbox context fun accountId _ =>
      uidSearching context args accountId thread
  | "COPY" => Commands.uidTransfer context false args.tail
  | "MOVE" => Commands.uidTransfer context true args.tail
  | "EXPUNGE" => Commands.uidExpunge context args.tail
  | "STORE" => Commands.uidStore context args.tail
  | other => Commands.withUidMailbox context fun _ _ =>
      context.reply [no context.tag "UNIMPLEMENTED" ("UID " ++ other ++ " is not yet implemented")]

def uid (request : Request) : Action Response :=
  match request.args.head? with
  | none => request.reply [bad request.tag "UID requires a subcommand"]
  | some subcommand => request.withRepository
      (uidCommand request.context (toAsciiUppercase subcommand) request.args)

/-! ## The other commands -/

/-- APPEND asks for an account, then for a repository. -/
def append (request : Request) : Action Response :=
  if request.services.repository || request.session.accountId.isNone then
    request.delegate (Commands.append request.context request.args request.literal)
  else request.reply [request.requires "a database-backed repository"]

def unselect (request : Request) : Action Response :=
  request.withSelected fun _ => pure ⟨[ok request.tag "UNSELECT completed"],
    { request.session with state := .authenticated, selectedMailboxSnapshot := none }⟩

/-- CLOSE without a repository removes no messages. -/
def close (request : Request) : Action Response :=
  if request.services.repository then request.delegate (Commands.close request.context)
  else request.withSelected fun _ => pure ⟨[ok request.tag "CLOSE completed"],
    { request.session with state := .authenticated, selectedMailboxSnapshot := none }⟩

def isAuthenticated (session : ImapSession) : Bool :=
  match session.state with
  | .authenticated | .selectedMailbox .. => true
  | _ => false

def enable (request : Request) : Action Response :=
  if isAuthenticated request.session then
    let enabled := (request.args.filter (eqIgnoreAsciiCase · "CONDSTORE")).map toAsciiUppercase
    request.reply ((if enabled.isEmpty then [] else ["* ENABLED " ++ Responses.join enabled]) ++
      [ok request.tag "ENABLE completed"])
  else request.reply [request.requires "an authenticated session"]

def condstore (request : Request) : Action Response :=
  if isAuthenticated request.session then request.reply [ok request.tag "CONDSTORE completed"]
  else request.reply [request.requires "an authenticated session"]

/-! ## The dispatcher -/

def dispatch (request : Request) : Action Response :=
  let answer (lines : List String) (text : String) : Action Response :=
    request.reply (lines ++ [ok request.tag text])
  match request.name with
  | "CAPABILITY" => answer ["* CAPABILITY " ++ Responses.join request.session.capabilities]
      "CAPABILITY completed"
  | "NOOP" => answer [] "NOOP completed"
  | "LOGOUT" => logout request
  | "LOGIN" => login request
  | "STARTTLS" => starttls request
  | "SELECT" => select request false
  | "EXAMINE" => select request true
  | "LIST" => list request
  | "LSUB" => list request
  | "STATUS" => status request
  | "SEARCH" => onSelected request search
  | "SORT" => onSelected request sort
  | "THREAD" => onSelected request thread
  | "FETCH" => request.withRepository (fetch request.context request.args)
  | "STORE" => request.withRepository (Commands.store request.context request.args)
  | "UID" => uid request
  | "APPEND" => append request
  | "IDLE" => request.withSelected fun _ => answer ["+ idling"] "IDLE terminated"
  | "CHECK" => request.withSelected fun _ => answer [] "CHECK completed"
  | "UNSELECT" => unselect request
  | "CLOSE" => close request
  | "EXPUNGE" => request.withRepository (Commands.expunge request.context request.args)
  | "CREATE" => create request
  | "DELETE" => delete request
  | "RENAME" => rename request
  | "SUBSCRIBE" => subscribe request
  | "UNSUBSCRIBE" => subscribe request
  | "COPY" => request.withRepository (Commands.transfer request.context false request.args)
  | "MOVE" => request.withRepository (Commands.transfer request.context true request.args)
  | "NAMESPACE" => answer ["* NAMESPACE ((\"\" \"/\")) NIL NIL"] "NAMESPACE completed"
  | "ID" => answer ["* ID (\"name\" \"imap-cache-rs\" \"vendor\" \"openai\" \"support-url\" " ++
      "\"https://openai.com\")"] "ID completed"
  | "ENABLE" => enable request
  | "CONDSTORE" => condstore request
  | other => request.reply [no request.tag "UNIMPLEMENTED" (other ++ " is not yet implemented")]

/-- The server: its libraries and services, and the number of the upstream connection that a command
opens if it has to. -/
structure Server where
  lib : Libraries
  services : AppServices
  connection : Nat

def handleParsedCommand (server : Server) (session : ImapSession) (command : ParsedCommand)
    (literal : Option Bytes) : Action Response :=
  dispatch ⟨server.lib, server.services, server.connection, session, command.tag,
    toAsciiUppercase command.name, command.args, literal⟩

end ImapCache.Session
