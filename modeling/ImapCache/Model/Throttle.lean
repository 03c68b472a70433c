import ImapCache.Lib.Expiring
import ImapCache.Model.Domain

/-!
# Login throttles

The two implementations of `LoginThrottle` in `crates/auth`, with their limits as parameters, and the
calls that the authenticators make on them. Redis counts in seconds, of 1000000000 units of the clock
each; the throttle in memory takes the clock in any unit.
-/

namespace ImapCache.Auth
open Lib

/-- `max_failures` and `lockout` of `with_limits`. -/
structure LoginLimits where
  maxFailures : UInt32
  lockout : Time
deriving DecidableEq, Repr

/-- The failed logins of a user name since the last success or lockout. -/
structure AttemptState where
  failures : Nat
  blockedUntil : Option Time
deriving DecidableEq, Repr

/-- `LoginThrottle` over the state it shares. -/
structure LoginThrottle (S : Type) where
  empty : S
  isBlocked : S → (now : Time) → (username : String) → Bool × S
  recordFailure : S → (now : Time) → (username : String) → Except Error Unit × S
  recordSuccess : S → (username : String) → S

/-! ## In memory -/

abbrev Attempts := String → Option AttemptState

def Attempts.isBlocked (attempts : Attempts) (now : Time) (username : String) : Bool × Attempts :=
  let username := toAsciiLowercase username
  match attempts username with
  | none => (false, attempts)
  | some state =>
      match state.blockedUntil with
      | none => (false, attempts)
      | some blockedUntil =>
          if blockedUntil > now then (true, attempts)
          else (false, Function.update attempts username (some ⟨0, none⟩))

/-- A failure that is counted, from the state with no lockout. -/
def countFailure (limits : LoginLimits) (now : Time) (failures : Nat) : AttemptState :=
  let failures := min (failures + 1) 4294967295
  if failures ≥ limits.maxFailures.toNat then ⟨0, some (now + limits.lockout)⟩ else ⟨failures, none⟩

def Attempts.recordFailure (limits : LoginLimits) (attempts : Attempts) (now : Time)
    (username : String) : Attempts :=
  let username := toAsciiLowercase username
  let state := (attempts username).getD ⟨0, none⟩
  match state.blockedUntil with
  | none => Function.update attempts username (some (countFailure limits now state.failures))
  | some blockedUntil =>
      if blockedUntil > now then Function.update attempts username (some state)
      else Function.update attempts username (some (countFailure limits now 0))

def Attempts.recordSuccess (attempts : Attempts) (username : String) : Attempts :=
  Function.update attempts (toAsciiLowercase username) none

def memoryLoginThrottle (limits : LoginLimits) : LoginThrottle Attempts where
  empty := fun _ => none
  isBlocked := Attempts.isBlocked
  recordFailure attempts now username := (.ok (), attempts.recordFailure limits now username)
  recordSuccess := Attempts.recordSuccess

/-! ## Redis -/

/-- The keys of Redis that hold numbers. -/
abbrev Counters := Expiring String Int

def blockedKey (username : String) : String := "imap-cache-rs:login:blocked:" ++ username
def failuresKey (username : String) : String := "imap-cache-rs:login:failures:" ++ username

def lockoutSeconds (limits : LoginLimits) : Int := u64AsI64 (max (limits.lockout / 1000000000) 1)

/-- `INCR`: the expiry of a key that exists is kept. -/
def Counters.incr (keys : Counters) (now : Time) (key : String) : Int × Counters :=
  match (keys key).filter (Timed.live now) with
  | some entry => (entry.value + 1, keys.set key (entry.value + 1) entry.expiresAt)
  | none => (1, keys.set key 1 none)

/-- `EXPIRE`: a key is deleted when the time to live is not positive. -/
def Counters.expire (keys : Counters) (now : Time) (key : String) (seconds : Int) : Counters :=
  match (keys key).filter (Timed.live now) with
  | some entry =>
      if seconds ≤ 0 then keys.del key
      else keys.set key entry.value (some (now + seconds.toNat * 1000000000))
  | none => keys

/-- `SET key value EX seconds`. -/
def Counters.setEx (keys : Counters) (now : Time) (key : String) (value seconds : Int) :
    Except Error Unit × Counters :=
  if seconds ≤ 0 then
    (.error (.storage "updating login throttle in redis: invalid expire time in 'set' command"), keys)
  else (.ok (), keys.set key value (some (now + seconds.toNat * 1000000000)))

/-- The script of `record_failure`. What it has written stays when a later command of it fails. -/
def Counters.recordFailure (limits : LoginLimits) (keys : Counters) (now : Time) (username : String) :
    Except Error Unit × Counters :=
  let username := toAsciiLowercase username
  if (keys.get now (blockedKey username)).isSome then (.ok (), keys)
  else
    let (failures, keys) := keys.incr now (failuresKey username)
    let keys := if failures = 1 then keys.expire now (failuresKey username) (lockoutSeconds limits)
      else keys
    if failures ≥ limits.maxFailures.toNat then
      match keys.setEx now (blockedKey username) 1 (lockoutSeconds limits) with
      | (.ok (), keys) => (.ok (), keys.del (failuresKey username))
      | (.error failure, keys) => (.error failure, keys)
    else (.ok (), keys)

def Counters.recordSuccess (keys : Counters) (username : String) : Counters :=
  (keys.del (blockedKey (toAsciiLowercase username))).del (failuresKey (toAsciiLowercase username))

def redisLoginThrottle (limits : LoginLimits) : LoginThrottle Counters where
  empty := fun _ => none
  isBlocked keys now username := ((keys.get now (blockedKey (toAsciiLowercase username))).isSome, keys)
  recordFailure := Counters.recordFailure limits
  recordSuccess := Counters.recordSuccess

/-! ## Timed calls -/

inductive ThrottleCall where
  | isBlocked
  | recordFailure
  | recordSuccess
deriving DecidableEq, Repr

/-- The answer of a call, where it has one, and the state after it. -/
def LoginThrottle.perform {S : Type} (throttle : LoginThrottle S) (username : String) (state : S)
    (now : Time) : ThrottleCall → Option Bool × S
  | .isBlocked => ((throttle.isBlocked state now username).map some id)
  | .recordFailure => (none, (throttle.recordFailure state now username).2)
  | .recordSuccess => (none, throttle.recordSuccess state username)

/-- The answers to the calls for a user name, each with its delay after the one before it. -/
def LoginThrottle.answers {S : Type} (throttle : LoginThrottle S) (username : String) :
    S → Time → List (Time × ThrottleCall) → List (Option Bool)
  | _, _, [] => []
  | state, now, (delay, call) :: calls =>
      let reply := throttle.perform username state (now + delay) call
      reply.1 :: throttle.answers username reply.2 (now + delay) calls

end ImapCache.Auth
