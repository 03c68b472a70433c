import ImapCache.Model.Auth

/-!
# Logins in parallel

The steps of `authenticate` between its await points, with the in-memory throttle and the limits of
the configuration. Hashing takes long, so the check of the password is a step of its own: calls for
the same user name can stand at any of the steps at the same time.
-/

namespace ImapCache.Auth
open Lib

inductive Phase where
  | check
  | findUser
  | verify (passwordHash : String)
  | recordFailure
  | recordSuccess
  | finished
deriving DecidableEq, Repr

structure Login where
  username : String
  password : String
  phase : Phase
deriving DecidableEq, Repr

/-- What follows the check of the throttle. -/
def Phase.unblocked (authenticator : Authenticator) (username : String) : Phase :=
  match authenticator with
  | .denyAll => .finished
  | .static expectedUsername expectedPasswordHash =>
      if username = expectedUsername then .verify expectedPasswordHash else .recordFailure
  | .postgres => .findUser

/-- One step of a call. `found` is what the database says, where the step asks it. -/
def Login.next (lib : Libraries) (limits : LoginLimits) (authenticator : Authenticator) (login : Login)
    (attempts : Attempts) (now : Time) (found : Except Error (Option (Row User))) : Attempts × Phase :=
  match login.phase with
  | .check =>
      if authenticator = .denyAll then (attempts, .finished)
      else
        let (blocked, attempts) := attempts.isBlocked now login.username
        (attempts, if blocked then .finished else .unblocked authenticator login.username)
  | .findUser =>
      match found with
      | .error _ => (attempts, .finished)
      | .ok none => (attempts, .recordFailure)
      | .ok (some user) =>
          (attempts, if user.data.disabledAt.isSome then .finished else .verify user.data.passwordHash)
  | .verify passwordHash =>
      match lib.verifyPassword passwordHash login.password with
      | .ok true => (attempts, .recordSuccess)
      | .ok false => (attempts, .recordFailure)
      | .error _ => (attempts, .finished)
  | .recordFailure => (attempts.recordFailure limits now login.username, .finished)
  | .recordSuccess => (attempts.recordSuccess login.username, .finished)
  | .finished => (attempts, .finished)

/-- The throttle and every call made so far. -/
structure Logins where
  attempts : Attempts
  now : Time
  calls : List Login

def Logins.start : Logins := ⟨fun _ => none, 0, []⟩

inductive Turn where
  | call (username password : String)
  | advance (index : Nat) (found : Except Error (Option (Row User)))
  | elapse (duration : Time)

/-- Any call may take the next step. -/
def Logins.step (lib : Libraries) (limits : LoginLimits) (authenticator : Authenticator)
    (logins : Logins) : Turn → Logins
  | .call username password => { logins with calls := logins.calls ++ [⟨username, password, .check⟩] }
  | .elapse duration => { logins with now := logins.now + duration }
  | .advance index found =>
      match logins.calls[index]? with
      | none => logins
      | some login =>
          let (attempts, phase) := login.next lib limits authenticator logins.attempts logins.now found
          { logins with attempts, calls := logins.calls.set index { login with phase } }

end ImapCache.Auth
