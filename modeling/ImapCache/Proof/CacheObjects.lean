import Mathlib.Algebra.GroupWithZero.Nat
import ImapCache.Lib.Rows
import ImapCache.Model.Admin

/-!
# Giving up a cache object

Everything `delete_cache_object_for_account` can do, and what follows for the keys an account caches
and the references it still has to give up.
-/

namespace ImapCache
open Lib

/-- The rows of an account for a key, one for each type of object. -/
def CacheObject.holds (accountId : Int) (blobKey : String) (object : CacheObject) : Bool :=
  object.accountId == some accountId && object.blobKey == blobKey

def CacheObject.release (now : Time) (object : CacheObject) : CacheObject :=
  { object with refCount := object.refCount - 1, lastAccessedAt := some now }

/-- What giving up a reference leaves: nothing changes when the account has no row for the key;
otherwise its first row has a reference less or is gone, and then the answer says whether other
accounts still use the blob. -/
inductive Releases (db : Db) (now : Time) (accountId : Int) (blobKey : String) : Bool → Db → Prop where
  | absent (none : ∀ row ∈ db.cacheObjects.rows, row.data.holds accountId blobKey = false) :
      Releases db now accountId blobKey false db
  | counted {before row after cacheObjects} (split : db.cacheObjects.rows = before ++ row :: after)
      (first : ∀ other ∈ before, other.data.holds accountId blobKey = false)
      (holds : row.data.holds accountId blobKey = true) (many : 1 < row.data.refCount)
      (rows : cacheObjects.rows = before ++ ⟨row.id, row.data.release now⟩ :: after) :
      Releases db now accountId blobKey false { db with cacheObjects }
  | removed {before row after cacheObjects} (split : db.cacheObjects.rows = before ++ row :: after)
      (first : ∀ other ∈ before, other.data.holds accountId blobKey = false)
      (holds : row.data.holds accountId blobKey = true) (last : row.data.refCount ≤ 1)
      (rows : cacheObjects.rows = before ++ after) :
      Releases db now accountId blobKey (db.countBlobKeyReferencesElsewhere blobKey accountId == 0)
        { db with cacheObjects }

theorem Db.deleteCacheObjectForAccount_releases (db : Db) (now : Time) (accountId : Int) (blobKey : String) :
    ∃ givenUp db', db.deleteCacheObjectForAccount now accountId blobKey = .ok (givenUp, db') ∧
      Releases db now accountId blobKey givenUp db' := by
  unfold Db.deleteCacheObjectForAccount
  cases found : db.cacheObjects.find fun row =>
      row.data.accountId == some accountId && row.data.blobKey == blobKey with
  | none => exact ⟨false, db, rfl, .absent (Table.find_none.mp found)⟩
  | some row =>
      obtain ⟨holds, before, after, split, earlier⟩ := List.find?_eq_some_iff_append.mp found
      have first : ∀ other ∈ before, other.data.holds accountId blobKey = false := by
        intro other member
        exact (Bool.not_eq_true' _).mp (earlier other member)
      by_cases many : row.data.refCount > 1
      · obtain ⟨cacheObjects, changed⟩ : ∃ t, db.cacheObjects.modify (·.id == row.id)
            (CacheObject.release now) = some t :=
          Table.modify_of_keeps _ _ fun _ _ => rfl
        refine ⟨false, { db with cacheObjects }, ?_, .counted split first holds many
          (Table.modify_split split changed)⟩
        simp only [many, if_true]
        rw [show (fun object : CacheObject => { object with
          refCount := object.refCount - 1, lastAccessedAt := some now }) = CacheObject.release now from rfl,
          changed]
      · refine ⟨_, _, if_neg many, .removed split first holds (not_lt.mp many) (Table.remove_split split)⟩

/-! ## Keys and references of an account -/

def Db.Cached (db : Db) (accountId : Int) (blobKey : String) : Prop :=
  ∃ row ∈ db.cacheObjects.rows, row.data.holds accountId blobKey = true

/-- The references that a purge gives up one after the other. -/
def CacheObject.references (accountId : Int) (object : CacheObject) : Nat :=
  if object.accountId == some accountId then (max object.refCount 1).toNat else 0

def Db.references (db : Db) (accountId : Int) : Nat :=
  (db.cacheObjects.rows.map fun row => row.data.references accountId).sum

def Db.otherCacheObjects (db : Db) (accountId : Int) : List (Row CacheObject) :=
  db.cacheObjects.rows.filter fun row => row.data.accountId != some accountId

section
variable {db db' : Db} {now : Time} {accountId : Int} {blobKey : String} {givenUp : Bool}

theorem CacheObject.holds_iff {object : CacheObject} :
    object.holds accountId blobKey = true ↔ object.accountId = some accountId ∧ object.blobKey = blobKey := by
  simp [CacheObject.holds]

theorem Releases.others (releases : Releases db now accountId blobKey givenUp db') :
    db' = { db with cacheObjects := db'.cacheObjects } := by
  cases releases with
  | absent none => rfl
  | counted split first holds many rows => rfl
  | removed split first holds last rows => rfl

theorem Releases.otherCacheObjects (releases : Releases db now accountId blobKey givenUp db') :
    db'.otherCacheObjects accountId = db.otherCacheObjects accountId := by
  cases releases with
  | absent none => rfl
  | counted split first holds many rows =>
      have own := (CacheObject.holds_iff.mp holds).1
      simp only [Db.otherCacheObjects, split, rows]
      simp [CacheObject.release, own]
  | removed split first holds last rows =>
      have own := (CacheObject.holds_iff.mp holds).1
      simp only [Db.otherCacheObjects, split, rows]
      simp [own]

theorem Releases.cached_of (releases : Releases db now accountId blobKey givenUp db') {key : String}
    (cached : db'.Cached accountId key) : db.Cached accountId key := by
  cases releases with
  | absent none => exact cached
  | @counted before row after cacheObjects split first holds many rows =>
      obtain ⟨found, member, same⟩ := cached
      simp only [rows] at member
      rcases List.mem_append.mp member with left | right
      · exact ⟨found, by rw [split]; exact List.mem_append_left _ left, same⟩
      · rcases List.mem_cons.mp right with rfl | right
        · exact ⟨row, by rw [split]; simp, same⟩
        · exact ⟨found, by rw [split]; simp [right], same⟩
  | @removed before row after cacheObjects split first holds last rows =>
      obtain ⟨found, member, same⟩ := cached
      simp only [rows] at member
      refine ⟨found, ?_, same⟩
      rw [split]
      rcases List.mem_append.mp member with left | right
      · exact List.mem_append_left _ left
      · exact List.mem_append_right _ (List.mem_cons_of_mem _ right)

/-- A key that is no longer cached was the given one, and its blob is given up unless it is used
elsewhere. -/
theorem Releases.cached_or (releases : Releases db now accountId blobKey givenUp db') {key : String}
    (cached : db.Cached accountId key) : db'.Cached accountId key ∨
      key = blobKey ∧ givenUp = (db.countBlobKeyReferencesElsewhere blobKey accountId == 0) := by
  cases releases with
  | absent none => exact .inl cached
  | @counted before row after cacheObjects split first holds many rows =>
      obtain ⟨found, member, same⟩ := cached
      rw [split] at member
      refine .inl ?_
      rcases List.mem_append.mp member with left | right
      · exact ⟨found, by simp [rows, left], same⟩
      · rcases List.mem_cons.mp right with rfl | right
        · exact ⟨⟨found.id, found.data.release now⟩, by simp [rows], same⟩
        · exact ⟨found, by simp [rows, right], same⟩
  | @removed before row after cacheObjects split first holds last rows =>
      obtain ⟨found, member, same⟩ := cached
      rw [split] at member
      rcases List.mem_append.mp member with left | right
      · exact .inl ⟨found, by simp [rows, left], same⟩
      · rcases List.mem_cons.mp right with rfl | right
        · refine .inr ⟨?_, rfl⟩
          rw [← (CacheObject.holds_iff.mp same).2, (CacheObject.holds_iff.mp holds).2]
        · exact .inl ⟨found, by simp [rows, right], same⟩

theorem Releases.gives (releases : Releases db now accountId blobKey givenUp db') (given : givenUp = true) :
    db.Cached accountId blobKey ∧ db.countBlobKeyReferencesElsewhere blobKey accountId = 0 := by
  cases releases with
  | absent none => cases given
  | counted split first holds many rows => cases given
  | @removed before row after cacheObjects split first holds last rows =>
      exact ⟨⟨row, by rw [split]; simp, holds⟩, by simpa using given⟩

theorem Releases.references (releases : Releases db now accountId blobKey givenUp db') :
    db'.references accountId ≤ db.references accountId ∧
      (db.Cached accountId blobKey → db'.references accountId < db.references accountId) := by
  cases releases with
  | absent none =>
      refine ⟨le_refl _, fun ⟨row, member, holds⟩ => ?_⟩
      rw [none row member] at holds
      cases holds
  | @counted before row after cacheObjects split first holds many rows =>
      have own := (CacheObject.holds_iff.mp holds).1
      have less : (row.data.release now).references accountId < row.data.references accountId := by
        simp only [CacheObject.references, CacheObject.release, own, beq_self_eq_true, if_true]
        omega
      simp only [Db.references, split, rows, List.map_append, List.map_cons, List.sum_append, List.sum_cons]
      omega
  | @removed before row after cacheObjects split first holds last rows =>
      have own := (CacheObject.holds_iff.mp holds).1
      have some : 0 < row.data.references accountId := by
        simp only [CacheObject.references, own, beq_self_eq_true, if_true]
        omega
      simp only [Db.references, split, rows, List.map_append, List.map_cons, List.sum_append, List.sum_cons]
      omega

end

end ImapCache
