import ImapCache.Model.Coordination

/-!
# What a release can remove

The in-memory manager ignores tokens: it is safe because a key stays locked until the one guard made
for it is released. The Redis manager is safe because the script compares the token first.
-/

namespace ImapCache.Coordination
open Lib

def Clients.unreleased {S : Type} (clients : Clients S) : List SyncLockGuard :=
  clients.guards ++ clients.releases

/-- No key has two guards, and the key of every guard is locked. -/
structure Sole (clients : Clients (List String)) : Prop where
  nodup : (clients.unreleased.map SyncLockGuard.key).Nodup
  locked : ∀ guard ∈ clients.unreleased, guard.key ∈ clients.locks

theorem Sole.key_ne {clients : Clients (List String)} (sole : Sole clients) {guard other : SyncLockGuard}
    (member : guard ∈ clients.unreleased) (otherMember : other ∈ clients.unreleased) (ne : other ≠ guard) :
    other.key ≠ guard.key := fun same =>
  ne (List.inj_on_of_nodup_map sole.nodup otherMember member same)

theorem memory_release_locks (clients : Clients (List String)) (guard : SyncLockGuard)
    (delivery : Delivery) {key : String} (locked : key ∈ clients.locks) (ne : key ≠ guard.key) :
    key ∈ (clients.release memorySyncLockManager guard delivery).locks := by
  cases delivery with
  | lost => exact locked
  | answered => simpa [Clients.release, memorySyncLockManager, ne] using locked
  | unanswered => simpa [Clients.release, memorySyncLockManager, ne] using locked

/-! ## One step in memory -/

theorem Sole.start : Sole memorySyncLockManager.start :=
  ⟨List.nodup_nil, fun _ member => absurd member List.not_mem_nil⟩

theorem Sole.acquire {clients : Clients (List String)} (sole : Sole clients) (key : String) (ttl : Time)
    (token : String) (delivery : Delivery) :
    Sole (clients.acquire memorySyncLockManager key ttl token delivery) := by
  by_cases taken : key ∈ clients.locks
  · have same : (clients.acquire memorySyncLockManager key ttl token delivery) =
        { clients with tokens := token :: clients.tokens } := by
      cases delivery <;> simp [Clients.acquire, memorySyncLockManager, taken]
    rw [same]
    exact ⟨sole.nodup, sole.locked⟩
  · have grown (guard) (member : guard ∈ clients.unreleased) : guard.key ∈ key :: clients.locks :=
      List.mem_cons_of_mem _ (sole.locked guard member)
    cases delivery with
    | lost => exact ⟨sole.nodup, sole.locked⟩
    | unanswered =>
        simp only [Clients.acquire, memorySyncLockManager, taken, if_false]
        exact ⟨sole.nodup, grown⟩
    | answered =>
        simp only [Clients.acquire, memorySyncLockManager, taken, if_false]
        constructor
        · change (key :: clients.unreleased.map SyncLockGuard.key).Nodup
          refine List.nodup_cons.mpr ⟨fun member => ?_, sole.nodup⟩
          obtain ⟨guard, unreleased, rfl⟩ := List.mem_map.mp member
          exact taken (sole.locked guard unreleased)
        · intro guard member
          change guard ∈ ⟨key, token⟩ :: clients.unreleased at member
          rcases List.mem_cons.mp member with rfl | member
          · exact List.mem_cons_self ..
          · exact grown guard member

theorem Sole.of_unreleased {clients after : Clients (List String)} (sole : Sole clients)
    (fewer : after.unreleased.Subperm clients.unreleased)
    (locked : ∀ guard ∈ after.unreleased, guard.key ∈ after.locks) : Sole after := by
  obtain ⟨kept, perm, sublist⟩ := fewer
  have nodup := sole.nodup.sublist (sublist.map SyncLockGuard.key)
  exact ⟨(perm.map SyncLockGuard.key).nodup_iff.mp nodup, locked⟩

theorem Sole.drop {clients : Clients (List String)} (sole : Sole clients) {guard : SyncLockGuard}
    (held : guard ∈ clients.guards) (inRuntime : Bool) : Sole (clients.drop guard inRuntime) := by
  have split : clients.unreleased.Perm (guard :: (clients.guards.erase guard ++ clients.releases)) :=
    (List.perm_cons_erase held).append_right _
  have fewer : (clients.drop guard inRuntime).unreleased.Subperm clients.unreleased := by
    cases inRuntime with
    | true => exact (List.perm_middle.trans split.symm).subperm
    | false => exact (List.sublist_cons_self ..).subperm.trans split.symm.subperm
  exact sole.of_unreleased fewer fun other member => sole.locked other (fewer.subset member)

theorem Sole.release {clients : Clients (List String)} (sole : Sole clients) {guard : SyncLockGuard}
    (spawned : guard ∈ clients.releases) (delivery : Delivery) :
    Sole (clients.release memorySyncLockManager guard delivery) := by
  have split : clients.unreleased.Perm (guard :: (clients.guards ++ clients.releases.erase guard)) :=
    ((List.perm_cons_erase spawned).append_left _).trans List.perm_middle
  have distinct := List.nodup_cons.mp ((split.map SyncLockGuard.key).nodup_iff.mp sole.nodup)
  refine sole.of_unreleased ((List.sublist_cons_self ..).subperm.trans split.symm.subperm)
    fun other member => memory_release_locks clients guard delivery ?_ ?_
  · exact sole.locked other (split.mem_iff.mpr (List.mem_cons_of_mem _ member))
  · intro same
    exact distinct.1 (same ▸ List.mem_map_of_mem member)

theorem sole_step {clients after : Clients (List String)} (sole : Sole clients)
    (step : Step memorySyncLockManager clients after) : Sole after := by
  cases step with
  | acquire key ttl token delivery fresh => exact sole.acquire key ttl token delivery
  | drop inRuntime held => exact sole.drop held inRuntime
  | release delivery spawned => exact sole.release spawned delivery
  | elapse duration => exact ⟨sole.nodup, sole.locked⟩

theorem sole_of_reachable {clients : Clients (List String)}
    (reachable : Reachable memorySyncLockManager clients) : Sole clients := by
  induction reachable with
  | refl => exact Sole.start
  | tail _ step ih => exact sole_step ih step

/-! ## Redis -/

theorem get_compareAndDelete (keys : Expiring String String) (now : Time)
    {key released token other : String} (held : keys.get now key = some other) (ne : other ≠ token) :
    (compareAndDelete keys now released token).get now key = some other := by
  unfold compareAndDelete
  split
  · rename_i found
    have elsewhere : key ≠ released := by
      rintro rfl
      rw [held, Option.some.injEq] at found
      exact ne found
    rw [Expiring.get_del_ne keys now elsewhere]
    exact held
  · exact held

/-! ## Safety -/

/-- With either manager a release leaves every lock held under another token, and in memory no key
ever has two guards. -/
theorem lock_safety :
    (∀ clients, Reachable memorySyncLockManager clients →
      (∀ released ∈ clients.releases, ∀ delivery, ∀ other ∈ clients.unreleased,
        other.token ≠ released.token →
        other.key ∈ (clients.release memorySyncLockManager released delivery).locks) ∧
      ∀ key, (clients.guards.filter (·.key = key)).length ≤ 1) ∧
    ∀ clients, Reachable redisSyncLockManager clients →
      ∀ released ∈ clients.releases, ∀ delivery key token,
        clients.locks.get clients.now key = some token → token ≠ released.token →
        (clients.release redisSyncLockManager released delivery).locks.get clients.now key = some token := by
  constructor
  · intro clients reachable
    have sole := sole_of_reachable reachable
    constructor
    · intro released spawned delivery other member ne
      have apart : other.key ≠ released.key := by
        refine sole.key_ne (List.mem_append_right _ spawned) member ?_
        rintro rfl
        exact ne rfl
      exact memory_release_locks clients released delivery (sole.locked other member) apart
    · intro key
      have held : (clients.guards.map SyncLockGuard.key).Nodup :=
        sole.nodup.sublist ((List.sublist_append_left ..).map _)
      have count := List.nodup_iff_count_le_one.mp held key
      rw [List.count, List.countP_map, List.countP_eq_length_filter] at count
      exact count
  · intro clients _ released _ delivery key token held ne
    cases delivery with
    | lost => exact held
    | answered => exact get_compareAndDelete _ _ held ne
    | unanswered => exact get_compareAndDelete _ _ held ne

end ImapCache.Coordination
