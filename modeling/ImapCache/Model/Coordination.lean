import ImapCache.Lib.Expiring
import ImapCache.Model.Domain
import Mathlib.Logic.Relation

/-!
# Lock managers

`crates/coordination`: the in-memory and the Redis lock manager behind `SyncLockManager`, and the
runs of their clients. A dropped guard only spawns its release, which runs later or not at all, and
in any order with the other calls.
-/

namespace ImapCache.Coordination
open Lib

structure SyncLockGuard where
  key : String
  token : String
deriving DecidableEq, Repr

/-- `SyncLockManager` over the state it shares. The token is the UUID that `acquire` draws, and
`now` the clock of the server that keeps the locks. -/
structure SyncLockManager (S : Type) where
  empty : S
  acquire : S → (now : Time) → (key : String) → (ttl : Time) → (token : String) →
    Except Error (Option SyncLockGuard) × S
  release : S → (now : Time) → (key token : String) → Except Error Unit × S

/-! ## In memory -/

/-- The set of locked keys. The time to live and the token are not used. -/
def memorySyncLockManager : SyncLockManager (List String) where
  empty := []
  acquire locks _ key _ token :=
    if key ∈ locks then (.ok none, locks) else (.ok (some ⟨key, token⟩), key :: locks)
  release locks _ key _ := (.ok (), locks.filter (· ≠ key))

/-! ## Redis -/

/-- `SET key token NX PX ttl`. A time to live of zero is refused. -/
def setNxPx (keys : Expiring String String) (now : Time) (key token : String) (ttl : Time) :
    Except Error Bool × Expiring String String :=
  if ttl = 0 then (.error (.storage "acquiring redis lock: invalid expire time in 'set' command"), keys)
  else if (keys.get now key).isSome then (.ok false, keys)
  else (.ok true, keys.set key token (some (now + ttl)))

/-- The script of `release`: compare, then delete. -/
def compareAndDelete (keys : Expiring String String) (now : Time) (key token : String) :
    Expiring String String :=
  if keys.get now key = some token then keys.del key else keys

/-- Times are in milliseconds, and a time to live is at most what an `i64` holds. -/
def redisSyncLockManager : SyncLockManager (Expiring String String) where
  empty := fun _ => none
  acquire keys now key ttl token :=
    match setNxPx keys now key token (min ttl (2 ^ 63 - 1)) with
    | (.ok acquired, keys) => (.ok (if acquired then some ⟨key, token⟩ else none), keys)
    | (.error failure, keys) => (.error failure, keys)
  release keys now key token := (.ok (), compareAndDelete keys now key token)

/-! ## Runs of the clients -/

/-- The state of a manager with its clients: the guards that somebody holds, the releases that are
spawned and have not run, and the tokens drawn so far. -/
structure Clients (S : Type) where
  locks : S
  now : Time
  guards : List SyncLockGuard
  releases : List SyncLockGuard
  tokens : List String

/-- What becomes of a call on its way to the server of the locks and back. In memory there is no such
way and every call is answered. -/
inductive Delivery where
  | answered
  | lost
  | unanswered
deriving DecidableEq, Repr

variable {S : Type}

def SyncLockManager.start (manager : SyncLockManager S) : Clients S := ⟨manager.empty, 0, [], [], []⟩

/-- `acquire`: a guard is made where the caller sees that the lock is granted. -/
def Clients.acquire (manager : SyncLockManager S) (clients : Clients S) (key : String) (ttl : Time)
    (token : String) (delivery : Delivery) : Clients S :=
  let drawn := { clients with tokens := token :: clients.tokens }
  match delivery with
  | .lost => drawn
  | .unanswered => { drawn with locks := (manager.acquire clients.locks clients.now key ttl token).2 }
  | .answered =>
      let reply := manager.acquire clients.locks clients.now key ttl token
      match reply.1 with
      | .ok (some guard) => { drawn with locks := reply.2, guards := guard :: clients.guards }
      | _ => { drawn with locks := reply.2 }

/-- `Drop` outside a runtime releases nothing. -/
def Clients.drop (clients : Clients S) (guard : SyncLockGuard) (inRuntime : Bool) : Clients S :=
  { clients with
    guards := clients.guards.erase guard
    releases := if inRuntime then guard :: clients.releases else clients.releases }

/-- A spawned release that runs. Its result is ignored. -/
def Clients.release (manager : SyncLockManager S) (clients : Clients S) (guard : SyncLockGuard)
    (delivery : Delivery) : Clients S :=
  { clients with
    locks := match delivery with
      | .lost => clients.locks
      | _ => (manager.release clients.locks clients.now guard.key guard.token).2
    releases := clients.releases.erase guard }

inductive Step (manager : SyncLockManager S) : Clients S → Clients S → Prop where
  | acquire {clients} (key ttl token delivery) (fresh : token ∉ clients.tokens) :
      Step manager clients (clients.acquire manager key ttl token delivery)
  | drop {clients guard} (inRuntime) (held : guard ∈ clients.guards) :
      Step manager clients (clients.drop guard inRuntime)
  | release {clients guard} (delivery) (spawned : guard ∈ clients.releases) :
      Step manager clients (clients.release manager guard delivery)
  | elapse {clients} (duration) : Step manager clients { clients with now := clients.now + duration }

/-- The states that the clients of a manager can reach, from no locks. -/
def Reachable (manager : SyncLockManager S) : Clients S → Prop :=
  Relation.ReflTransGen (Step manager) manager.start

end ImapCache.Coordination
