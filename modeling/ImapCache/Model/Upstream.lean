import ImapCache.Model.Domain

/-!
# The upstream server

The server that the cache mirrors, as far as the commands of `UpstreamClient` see it: RFC 3501
with the UIDPLUS response codes where the server has them. Every connection has its own selected
mailbox. The definitions follow the client's methods: what the server does and what the method
makes of the answer.
-/

namespace ImapCache

structure UpstreamMessage where
  uid : Nat
  flags : List String
  internalDate : Option Int
  body : Bytes
deriving DecidableEq, Repr

/-- A mailbox of the server; `messages` is in the order in which it lists UIDs. -/
structure UpstreamMailbox where
  name : String
  info : SelectedMailboxInfo
  messages : List UpstreamMessage
  uidnext : Nat
  distinct : (messages.map (·.uid)).Nodup
  bounded : ∀ message ∈ messages, 0 < message.uid ∧ message.uid < uidnext
  positive : 0 < uidnext
deriving DecidableEq

/-- INBOX is one mailbox in any letter case; other names are compared as they are. -/
def sameMailboxName (a b : String) : Bool :=
  a == b || (toAsciiLowercase a == "inbox" && toAsciiLowercase b == "inbox")

structure Upstream where
  mailboxes : List UpstreamMailbox
  /-- Whether the server sends APPENDUID and COPYUID. -/
  uidplus : Bool
  distinct : (mailboxes.map (·.name)).Pairwise fun a b => sameMailboxName a b = false
deriving DecidableEq

namespace UpstreamMailbox

def find (mailbox : UpstreamMailbox) (uid : Nat) : Option UpstreamMessage :=
  mailbox.messages.find? (·.uid == uid)

/-- The mailbox with one more message, under the next UID. -/
def deliver (mailbox : UpstreamMailbox) (flags : List String) (internalDate : Option Int)
    (body : Bytes) : UpstreamMailbox where
  name := mailbox.name
  info := mailbox.info
  messages := mailbox.messages ++ [⟨mailbox.uidnext, flags, internalDate, body⟩]
  uidnext := mailbox.uidnext + 1
  distinct := by
    rw [List.map_append, List.nodup_append]
    refine ⟨mailbox.distinct, List.nodup_singleton _, ?_⟩
    rintro uid member _ new rfl
    obtain ⟨message, inMailbox, rfl⟩ := List.mem_map.mp member
    have := (mailbox.bounded message inMailbox).2
    simp only [List.map_cons, List.map_nil, List.mem_singleton] at new
    omega
  bounded := by
    intro message member
    rcases List.mem_append.mp member with old | new
    · have := mailbox.bounded message old
      omega
    · rw [List.mem_singleton.mp new]
      exact ⟨mailbox.positive, Nat.lt_succ_self _⟩
  positive := Nat.succ_pos _

def setFlags (uid : Nat) (flags : List String) (message : UpstreamMessage) : UpstreamMessage :=
  if message.uid = uid then { message with flags } else message

@[simp] theorem setFlags_uid (uid : Nat) (flags : List String) (message : UpstreamMessage) :
    (setFlags uid flags message).uid = message.uid := by
  unfold setFlags
  split <;> rfl

def storeFlags (mailbox : UpstreamMailbox) (uid : Nat) (flags : List String) : UpstreamMailbox where
  name := mailbox.name
  info := mailbox.info
  messages := mailbox.messages.map (setFlags uid flags)
  uidnext := mailbox.uidnext
  distinct := by
    simpa [Function.comp_def] using mailbox.distinct
  bounded := by
    intro message member
    obtain ⟨old, inMailbox, rfl⟩ := List.mem_map.mp member
    simpa using mailbox.bounded old inMailbox
  positive := mailbox.positive

def isDeleted (message : UpstreamMessage) : Bool :=
  message.flags.any (eqIgnoreAsciiCase · "\\Deleted")

def expunge (mailbox : UpstreamMailbox) : UpstreamMailbox where
  name := mailbox.name
  info := mailbox.info
  messages := mailbox.messages.filter fun message => !isDeleted message
  uidnext := mailbox.uidnext
  distinct := mailbox.distinct.sublist (List.filter_sublist.map _)
  bounded message member := mailbox.bounded message (List.mem_of_mem_filter member)
  positive := mailbox.positive

@[simp] theorem deliver_name (mailbox : UpstreamMailbox) (flags : List String)
    (internalDate : Option Int) (body : Bytes) :
    (mailbox.deliver flags internalDate body).name = mailbox.name := (rfl)

@[simp] theorem storeFlags_name (mailbox : UpstreamMailbox) (uid : Nat) (flags : List String) :
    (mailbox.storeFlags uid flags).name = mailbox.name := (rfl)

@[simp] theorem expunge_name (mailbox : UpstreamMailbox) : mailbox.expunge.name = mailbox.name := (rfl)

end UpstreamMailbox

namespace Upstream

def find (server : Upstream) (name : String) : Option UpstreamMailbox :=
  server.mailboxes.find? (sameMailboxName ·.name name)

/-- Change the contents of the mailbox of that name. -/
def update (server : Upstream) (name : String) (f : UpstreamMailbox → UpstreamMailbox)
    (keepsName : ∀ mailbox, (f mailbox).name = mailbox.name := by simp) : Upstream where
  mailboxes := server.mailboxes.map fun mailbox =>
    if sameMailboxName mailbox.name name then f mailbox else mailbox
  uidplus := server.uidplus
  distinct := by
    have names : ∀ mailbox : UpstreamMailbox,
        (if sameMailboxName mailbox.name name then f mailbox else mailbox).name = mailbox.name := by
      intro mailbox
      split
      · exact keepsName mailbox
      · rfl
    simpa [Function.comp_def, names] using server.distinct

/-- The mailbox a connection has selected; a command without one is answered BAD, and NO when the
mailbox has been deleted since. -/
def selected (server : Upstream) (session : Option String) : Except Error (String × UpstreamMailbox) :=
  match session with
  | none => .error (.imapCommand "no mailbox selected")
  | some name =>
      match server.find name with
      | none => .error .authenticationFailed
      | some mailbox => .ok (name, mailbox)

/-- `select_mailbox`: a failed SELECT leaves nothing selected. -/
def selectMailbox (server : Upstream) (mailbox : String) :
    Except Error SelectedMailboxInfo × Option String :=
  match server.find mailbox with
  | some found => (.ok found.info, some mailbox)
  | none => (.error .authenticationFailed, none)

def uidSearchAll (server : Upstream) (session : Option String) : Except Error (List Nat) :=
  (server.selected session).map fun selected => selected.2.messages.map (·.uid)

def uidFetchFlags (server : Upstream) (session : Option String) (uid : Nat) :
    Except Error (List String) := do
  let (_, mailbox) ← server.selected session
  match mailbox.find uid with
  | some message => pure message.flags
  | none => throw (.parse ("FETCH response missing flags for UID " ++ toString uid))

def uidFetchRfc822 (server : Upstream) (session : Option String) (uid : Nat) :
    Except Error Bytes := do
  let (_, mailbox) ← server.selected session
  match mailbox.find uid with
  | some message => pure message.body
  | none => throw (.parse "FETCH completed without a literal body")

/-- `append_with_internal_date`: the UID of the new message if the server tells it. -/
def append (server : Upstream) (mailbox : String) (flags : List String) (internalDate : Option Int)
    (data : Bytes) : Except Error (Option Nat) × Upstream :=
  match server.find mailbox with
  | none => (.error .authenticationFailed, server)
  | some found =>
      (.ok (if server.uidplus then some found.uidnext else none),
        server.update mailbox (·.deliver flags internalDate data))

/-- `uid_copy_message`: the method needs the COPYUID of the answer, which is missing for a UID
that does not exist and from a server without UIDPLUS. -/
def uidCopyMessage (server : Upstream) (session : Option String) (uid : Nat) (mailbox : String) :
    Except Error Nat × Upstream :=
  match server.selected session, server.find mailbox with
  | .error failure, _ => (.error failure, server)
  | .ok _, none => (.error .authenticationFailed, server)
  | .ok (_, source), some found =>
      match source.find uid with
      | none => (.error (.parse "COPYUID response missing destination uid"), server)
      | some message =>
          (if server.uidplus then .ok found.uidnext
            else .error (.parse "COPYUID response missing destination uid"),
            server.update mailbox (·.deliver message.flags message.internalDate message.body))

/-- `uid_store_flags`: a UID that does not exist is ignored. -/
def uidStoreFlags (server : Upstream) (session : Option String) (uid : Nat) (flags : List String) :
    Except Error Unit × Upstream :=
  match server.selected session with
  | .error failure => (.error failure, server)
  | .ok (name, _) => (.ok (), server.update name (·.storeFlags uid flags))

def expungeSelected (server : Upstream) (session : Option String) :
    Except Error Unit × Upstream :=
  match server.selected session with
  | .error failure => (.error failure, server)
  | .ok (name, _) => (.ok (), server.update name (·.expunge))

end Upstream
end ImapCache
