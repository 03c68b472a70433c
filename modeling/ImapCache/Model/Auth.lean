import ImapCache.Model.Protocol

/-!
# Authentication

The authenticators, with the throttle that counts failed logins and the audit log of their outcomes, and
the SASL responses of AUTHENTICATE.
-/

namespace ImapCache.Auth
open Lib Prog Protocol

structure AuthContext where
  userId : Int
  accountId : Option Int
  username : String
deriving DecidableEq, Repr

inductive Authenticator where
  | denyAll
  | static (expectedUsername expectedPasswordHash : String)
  | postgres
deriving DecidableEq, Repr

/-! ## The throttle and the audit log -/

def isBlocked (username : String) : Action Bool := await (.isBlocked username)

def recordFailure (limits : LoginLimits) (username : String) : Action Unit :=
  await (.recordFailure limits username)

def recordSuccess (username : String) : Action Unit := await (.recordSuccess username)

/-- The outcome of a login is logged, whatever comes of that. -/
def logAttempt (userId accountId : Option Int) (action : String) (metadata : List (String × Json)) :
    Action Unit :=
  tell (.recordAuditLog { userId, accountId, action, metadataJson := .obj metadata, createdAt := 0 })

def logFailure (userId : Option Int) (username reason : String) : Action Unit :=
  logAttempt userId none "login_failure" [("username_email", .str username), ("reason", .str reason)]

/-! ## Authenticators -/

def staticAuthenticate (lib : Libraries) (limits : LoginLimits) (expectedUsername expectedPasswordHash username
    password : String) : Action (Option AuthContext) := do
  if ← isBlocked username then pure none
  else
    let accepted ← if username = expectedUsername then
        ofExcept (lib.verifyPassword expectedPasswordHash password)
      else pure false
    if accepted then do
      recordSuccess username
      pure (some ⟨1, none, username⟩)
    else do
      recordFailure limits username
      pure none

/-- The account of a user: the one with the user name as its address or else the only one. -/
def accountOf (userId : Int) (username : String) : Action (Option Int) := do
  match ← await (.findAccountByEmailAddress username) with
  | some account => pure (some account.id)
  | none => do
      match ← await (.listAccountsForUser userId) with
      | [account] => pure (some account.id)
      | _ => pure none

/-- The account is looked up by the name that the client sent. -/
def postgresAuthenticate (lib : Libraries) (limits : LoginLimits) (username password : String) :
    Action (Option AuthContext) := do
  if ← isBlocked username then pure none
  else
    match ← await (.findUserByUsername username) with
    | none => do
        recordFailure limits username
        logFailure none username "user_not_found"
        pure none
    | some user =>
        if user.data.disabledAt.isSome then do
          logFailure (some user.id) username "user_disabled"
          pure none
        else
          let verified ← ofExcept (lib.verifyPassword user.data.passwordHash password)
          if verified then do
            recordSuccess username
            let accountId ← accountOf user.id username
            logAttempt (some user.id) accountId "login_success"
              [("username_email", .str user.data.usernameEmail)]
            pure (some ⟨user.id, accountId, user.data.usernameEmail⟩)
          else do
            recordFailure limits username
            logFailure (some user.id) username "invalid_password"
            pure none

def authenticate (lib : Libraries) (limits : LoginLimits) (authenticator : Authenticator)
    (username password : String) : Action (Option AuthContext) :=
  match authenticator with
  | .denyAll => pure none
  | .static expectedUsername expectedPasswordHash =>
      staticAuthenticate lib limits expectedUsername expectedPasswordHash username password
  | .postgres => postgresAuthenticate lib limits username password

/-! ## SASL -/

def decodeSaslResponse (lib : Libraries) (value : String) : Except Error Bytes :=
  match lib.decodeBase64 value with
  | .ok bytes => .ok bytes
  | .error err => .error (.parse ("invalid base64 SASL response: " ++ err))

/-- `std::str::from_utf8`. -/
def readUtf8 (bytes : Bytes) : Except Error String :=
  match fromUtf8 bytes with
  | some text => .ok text
  | none => .error (.utf8 "invalid utf-8 sequence")

def parseSaslPlainAuth (authBlob : Bytes) : Except Error (String × String) :=
  match authBlob.splitOn 0 with
  | _ :: authcid :: password :: _ => do
      let authcid ← readUtf8 authcid
      let password ← readUtf8 password
      pure (authcid, password)
  | [_, _] => .error (.parse "AUTHENTICATE PLAIN response missing password")
  | _ => .error (.parse "AUTHENTICATE PLAIN response missing authcid")

/-- The last user and the last bearer token of the segments. -/
def xoauth2Segment (found : Option (List Char) × Option (List Char)) (part : List Char) :
    Option (List Char) × Option (List Char) :=
  match stripPrefix "user=".toList part with
  | some value => (some value, found.2)
  | none =>
      match stripPrefix "auth=Bearer ".toList part with
      | some value => (found.1, some value)
      | none => found

def parseSaslXoauth2Auth (authBlob : Bytes) : Except Error (String × String) := do
  let decoded ← readUtf8 authBlob
  match (decoded.toList.splitOn '\x01').foldl xoauth2Segment (none, none) with
  | (none, _) => throw (.parse "AUTHENTICATE XOAUTH2 response missing user")
  | (some _, none) => throw (.parse "AUTHENTICATE XOAUTH2 response missing bearer token")
  | (some username, some bearer) => pure (String.ofList username, String.ofList bearer)

end ImapCache.Auth
