import ImapCache.Model.CacheCommands
import ImapCache.Proof.CacheObjects
import ImapCache.Proof.IngestAtomicity

/-!
# What the reference counts count

The counts of the cache objects and the uses of their keys by the current messages, and what each
statement that writes cache objects, messages, parts or rows does to either.
-/

namespace ImapCache
open Lib Prog

/-- The type of the objects that are stored under a key. -/
def keyType (key : String) : Option String :=
  match (splitOnce '/' key).map (·.1) with
  | some "Rfc822" => some "rfc822"
  | some "MimePart" => some "MimePart"
  | some "Attachment" => some "Attachment"
  | _ => none

/-- What the foreign keys promise, and what every statement of the code keeps: references are counted
from 1 on, and a key tells the type of its object. -/
structure Db.Consistent (db : Db) : Prop where
  counts : ∀ row ∈ db.cacheObjects.rows, 1 ≤ row.data.refCount
  objects : ∀ row ∈ db.cacheObjects.rows, keyType row.data.blobKey = some row.data.objectType
  messages : ∀ row ∈ db.messages.rows, keyType row.data.rfc822BlobKey = some "rfc822"
  parts : ∀ row ∈ db.mimeParts.rows,
    keyType row.data.blobKey = some (RawFetch.cacheObjectTypeForMimePart row.data)
  rowMessages : ∀ row ∈ db.mailboxMessages.rows, row.data.messageId < db.messages.nextId
  partMessages : ∀ row ∈ db.mimeParts.rows, row.data.messageId < db.messages.nextId
  accounts : ∀ row ∈ db.mailboxes.rows, db.hasAccount row.data.accountId = true

def Db.CountsRight (db : Db) : Prop :=
  ∀ accountId blobKey, db.countedReferences accountId blobKey = db.liveReferences accountId blobKey

/-! ## Counts -/

/-- The references that a list of cache objects counts. -/
def countIn (rows : List (Row CacheObject)) (accountId : Int) (blobKey : String) : Int :=
  ((rows.filter fun row => row.data.holds accountId blobKey).map (·.data.refCount)).sum

theorem Db.countedReferences_eq (db : Db) (accountId : Int) (blobKey : String) :
    db.countedReferences accountId blobKey = countIn db.cacheObjects.rows accountId blobKey := rfl

theorem countIn_append (rows others : List (Row CacheObject)) (accountId : Int) (blobKey : String) :
    countIn (rows ++ others) accountId blobKey =
      countIn rows accountId blobKey + countIn others accountId blobKey := by
  simp [countIn]

theorem countIn_cons (row : Row CacheObject) (rows : List (Row CacheObject)) (accountId : Int) (blobKey : String) :
    countIn (row :: rows) accountId blobKey =
      (if row.data.holds accountId blobKey then row.data.refCount else 0) + countIn rows accountId blobKey := by
  unfold countIn
  rw [List.filter_cons]
  split
  · rw [List.map_cons, List.sum_cons]
  · rw [Int.zero_add]

theorem countIn_nil (accountId : Int) (blobKey : String) : countIn [] accountId blobKey = 0 := rfl

theorem countIn_nonneg {rows : List (Row CacheObject)} (counts : ∀ row ∈ rows, 1 ≤ row.data.refCount)
    (accountId : Int) (blobKey : String) : 0 ≤ countIn rows accountId blobKey := by
  induction rows with
  | nil => exact le_rfl
  | cons row rows ih =>
      rw [countIn_cons]
      have first := counts row (List.mem_cons_self ..)
      have rest := ih fun other member => counts other (List.mem_cons_of_mem _ member)
      split <;> omega

theorem countIn_pos {rows : List (Row CacheObject)} (counts : ∀ row ∈ rows, 1 ≤ row.data.refCount)
    {accountId : Int} {blobKey : String} :
    0 < countIn rows accountId blobKey ↔ ∃ row ∈ rows, row.data.holds accountId blobKey = true := by
  induction rows with
  | nil => simp [countIn_nil]
  | cons row rows ih =>
      have first := counts row (List.mem_cons_self ..)
      have others : ∀ other ∈ rows, 1 ≤ other.data.refCount :=
        fun other member => counts other (List.mem_cons_of_mem _ member)
      have rest := countIn_nonneg others accountId blobKey
      rw [countIn_cons, List.exists_mem_cons_iff, ← ih others]
      by_cases holds : row.data.holds accountId blobKey = true
      · simp only [holds, if_true, true_or, iff_true]
        omega
      · simp [holds]

theorem Db.Consistent.withObjects {db : Db} (consistent : db.Consistent)
    {cacheObjects : Table CacheObject cacheObjectKeys}
    (counts : ∀ row ∈ cacheObjects.rows, 1 ≤ row.data.refCount)
    (objects : ∀ row ∈ cacheObjects.rows, keyType row.data.blobKey = some row.data.objectType) :
    { db with cacheObjects }.Consistent :=
  ⟨counts, objects, consistent.messages, consistent.parts, consistent.rowMessages, consistent.partMessages,
    consistent.accounts⟩

def CacheObject.conflicts (input : CacheObject) (row : Row CacheObject) : Bool :=
  row.data.accountId.isSome && row.data.accountId == input.accountId &&
    row.data.objectType == input.objectType && row.data.blobKey == input.blobKey

def CacheObject.add (input object : CacheObject) : CacheObject :=
  { object with
    sha256 := input.sha256
    sizeOctets := input.sizeOctets
    refCount := object.refCount + input.refCount
    lastAccessedAt := Db.laterTime (input.lastAccessedAt.or object.lastAccessedAt) object.lastAccessedAt }

theorem Db.upsertCacheObject_eq {db : Db} {input : CacheObject} {accountId : Int}
    (own : input.accountId = some accountId) (account : db.hasAccount accountId = true) :
    db.upsertCacheObject input =
      match db.cacheObjects.upsert (CacheObject.conflicts input) (CacheObject.add input) input with
      | some (_, cacheObjects) => .ok ((), { db with cacheObjects })
      | none => .error (uniqueViolation "cache_objects_account_object_type_blob_key_key") := by
  unfold Db.upsertCacheObject
  rw [if_neg (by simp [own, account])]
  rfl

theorem Db.upsertCacheObject_counts {db : Db} (consistent : db.Consistent) (input : CacheObject) {accountId : Int}
    (own : input.accountId = some accountId) (account : db.hasAccount accountId = true)
    (typed : keyType input.blobKey = some input.objectType) (one : input.refCount = 1) :
    ∃ cacheObjects : Table CacheObject cacheObjectKeys,
      db.upsertCacheObject input = .ok ((), { db with cacheObjects }) ∧
      { db with cacheObjects }.Consistent ∧
      ∀ other key, countIn cacheObjects.rows other key = countIn db.cacheObjects.rows other key +
        if other = accountId ∧ key = input.blobKey then 1 else 0 := by
  have holding (object : CacheObject) (same : object.accountId = some accountId) (key : object.blobKey = input.blobKey)
      (other : Int) (blobKey : String) :
      object.holds other blobKey = true ↔ other = accountId ∧ blobKey = input.blobKey := by
    rw [CacheObject.holds_iff, same, key, Option.some.injEq]
    exact and_congr eq_comm eq_comm
  rw [Db.upsertCacheObject_eq own account]
  cases found : db.cacheObjects.find (CacheObject.conflicts input) with
  | some old =>
      obtain ⟨clash, before, after, split, -⟩ := List.find?_eq_some_iff_append.mp found
      simp only [CacheObject.conflicts, Bool.and_eq_true, beq_iff_eq] at clash
      obtain ⟨⟨⟨-, sameAccount⟩, sameType⟩, sameKey⟩ := clash
      obtain ⟨cacheObjects, changed⟩ : ∃ t, db.cacheObjects.modify (·.id == old.id) (CacheObject.add input) = some t :=
        Table.modify_of_keeps _ _ fun _ _ => rfl
      have rows := Table.modify_split split changed
      have oldMember : old ∈ db.cacheObjects.rows := by
        rw [split]
        simp
      refine ⟨cacheObjects, ?_, consistent.withObjects ?_ ?_, fun other key => ?_⟩
      · simp only [Table.upsert, found, changed, Option.map_some]
      · intro row member
        rw [rows] at member
        rcases List.mem_append.mp member with left | right
        · exact consistent.counts row (by rw [split]; exact List.mem_append_left _ left)
        · rcases List.mem_cons.mp right with rfl | right
          · have positive := consistent.counts old oldMember
            simp only [CacheObject.add, one]
            omega
          · exact consistent.counts row (by rw [split]; simp [right])
      · intro row member
        rw [rows] at member
        rcases List.mem_append.mp member with left | right
        · exact consistent.objects row (by rw [split]; exact List.mem_append_left _ left)
        · rcases List.mem_cons.mp right with rfl | right
          · exact consistent.objects old oldMember
          · exact consistent.objects row (by rw [split]; simp [right])
      · have same := holding old.data (sameAccount.trans own) sameKey other key
        have added := holding (CacheObject.add input old.data) (sameAccount.trans own) sameKey other key
        rw [rows, split, countIn_append, countIn_append, countIn_cons, countIn_cons]
        by_cases hit : other = accountId ∧ key = input.blobKey
        · rw [if_pos (added.mpr hit), if_pos (same.mpr hit), if_pos hit]
          simp only [CacheObject.add, one]
          omega
        · rw [if_neg (mt added.mp hit), if_neg (mt same.mp hit), if_neg hit]
          omega
  | none =>
      have admitted : ∀ row ∈ db.cacheObjects.rows, cacheObjectKeys.admits row.data input = true := by
        intro row member
        have free := Table.find_none.mp found row member
        refine Constraint.unique_admits.mpr fun key rowKey inputKey => ?_
        simp only [own, Option.map_some, Option.some.injEq] at inputKey
        subst inputKey
        obtain ⟨account', rowAccount, same⟩ := Option.map_eq_some_iff.mp rowKey
        simp only [Prod.mk.injEq] at same
        obtain ⟨rfl, sameType, sameKey⟩ := same
        simp [CacheObject.conflicts, rowAccount, own, sameType, sameKey] at free
      obtain ⟨⟨row, cacheObjects⟩, inserted⟩ : ∃ result, db.cacheObjects.insert input = some result := by
        cases inserted : db.cacheObjects.insert input with
        | some result => exact ⟨result, rfl⟩
        | none =>
            obtain ⟨old, member, refused⟩ := Table.insert_eq_none.mp inserted
            rw [admitted old member] at refused
            cases refused
      obtain ⟨-, rows, -⟩ := Table.insert_eq_some inserted
      refine ⟨cacheObjects, ?_, consistent.withObjects ?_ ?_, fun other key => ?_⟩
      · simp only [Table.upsert, found, inserted]
      · intro row member
        rw [rows, List.mem_append, List.mem_singleton] at member
        rcases member with old | rfl
        · exact consistent.counts row old
        · exact le_of_eq one.symm
      · intro row member
        rw [rows, List.mem_append, List.mem_singleton] at member
        rcases member with old | rfl
        · exact consistent.objects row old
        · exact typed
      · have added := holding input own rfl other key
        rw [rows, countIn_append, countIn_cons, countIn_nil]
        by_cases hit : other = accountId ∧ key = input.blobKey
        · rw [if_pos (added.mpr hit), if_pos hit, one, Int.add_zero]
        · rw [if_neg (mt added.mp hit), if_neg hit]
          rfl

section
variable {db db' : Db} {now : Time} {accountId : Int} {blobKey : String} {givenUp : Bool}

theorem Db.Consistent.single (consistent : db.Consistent) {a b : Row CacheObject}
    (ha : a ∈ db.cacheObjects.rows) (hb : b ∈ db.cacheObjects.rows) (holdsA : a.data.holds accountId blobKey = true)
    (holdsB : b.data.holds accountId blobKey = true) : a = b := by
  obtain ⟨accountA, keyA⟩ := CacheObject.holds_iff.mp holdsA
  obtain ⟨accountB, keyB⟩ := CacheObject.holds_iff.mp holdsB
  have types : some a.data.objectType = some b.data.objectType := by
    rw [← consistent.objects a ha, ← consistent.objects b hb, keyA, keyB]
  refine Table.eq_of_clash ha hb ?_
  rw [Bool.eq_false_iff]
  intro admits
  refine Constraint.unique_admits.mp admits (accountId, a.data.objectType, blobKey) ?_ ?_
  · rw [accountA, Option.map_some, keyA]
  · rw [accountB, Option.map_some, keyB, ← Option.some.inj types]

theorem holds_congr {object : CacheObject} (holds : object.holds accountId blobKey = true) (other : Int)
    (key : String) : object.holds other key = true ↔ other = accountId ∧ key = blobKey := by
  obtain ⟨own, same⟩ := CacheObject.holds_iff.mp holds
  rw [CacheObject.holds_iff, own, same, Option.some.injEq]
  exact and_congr eq_comm eq_comm

theorem Releases.counts (consistent : db.Consistent) (releases : Releases db now accountId blobKey givenUp db') :
    db'.Consistent ∧ ∀ other key, countIn db'.cacheObjects.rows other key =
      countIn db.cacheObjects.rows other key -
        if other = accountId ∧ key = blobKey ∧ 0 < countIn db.cacheObjects.rows accountId blobKey then 1 else 0 := by
  cases releases with
  | absent none =>
      refine ⟨consistent, fun other key => ?_⟩
      have uncounted : ¬ 0 < countIn db.cacheObjects.rows accountId blobKey := by
        rw [countIn_pos consistent.counts]
        rintro ⟨row, member, holds⟩
        rw [none row member] at holds
        cases holds
      rw [if_neg fun hit => uncounted hit.2.2, Int.sub_zero]
  | @counted before row after cacheObjects split first holds many rows =>
      have member : row ∈ db.cacheObjects.rows := by
        rw [split]
        simp
      have positive : 0 < countIn db.cacheObjects.rows accountId blobKey :=
        (countIn_pos consistent.counts).mpr ⟨row, member, holds⟩
      refine ⟨consistent.withObjects ?_ ?_, fun other key => ?_⟩
      · intro other otherMember
        rw [rows] at otherMember
        rcases List.mem_append.mp otherMember with left | right
        · exact consistent.counts other (by rw [split]; exact List.mem_append_left _ left)
        · rcases List.mem_cons.mp right with rfl | right
          · simp only [CacheObject.release]
            omega
          · exact consistent.counts other (by rw [split]; simp [right])
      · intro other otherMember
        rw [rows] at otherMember
        rcases List.mem_append.mp otherMember with left | right
        · exact consistent.objects other (by rw [split]; exact List.mem_append_left _ left)
        · rcases List.mem_cons.mp right with rfl | right
          · exact consistent.objects row member
          · exact consistent.objects other (by rw [split]; simp [right])
      · have same := holds_congr holds other key
        have released : (row.data.release now).holds accountId blobKey = true := holds
        have released := holds_congr released other key
        simp only [positive, and_true]
        rw [rows, split, countIn_append, countIn_append, countIn_cons, countIn_cons]
        by_cases hit : other = accountId ∧ key = blobKey
        · rw [if_pos (released.mpr hit), if_pos (same.mpr hit), if_pos hit]
          simp only [CacheObject.release]
          omega
        · rw [if_neg (mt released.mp hit), if_neg (mt same.mp hit), if_neg hit, Int.sub_zero]
  | @removed before row after cacheObjects split first holds last rows =>
      have member : row ∈ db.cacheObjects.rows := by
        rw [split]
        simp
      have positive : 0 < countIn db.cacheObjects.rows accountId blobKey :=
        (countIn_pos consistent.counts).mpr ⟨row, member, holds⟩
      have one := consistent.counts row member
      have within (other : Row CacheObject) (otherMember : other ∈ cacheObjects.rows) :
          other ∈ db.cacheObjects.rows := by
        rw [rows] at otherMember
        rw [split]
        rcases List.mem_append.mp otherMember with left | right
        · exact List.mem_append_left _ left
        · exact List.mem_append_right _ (List.mem_cons_of_mem _ right)
      refine ⟨consistent.withObjects (fun other otherMember => consistent.counts other (within other otherMember))
        (fun other otherMember => consistent.objects other (within other otherMember)), fun other key => ?_⟩
      have same := holds_congr holds other key
      simp only [positive, and_true]
      rw [rows, split, countIn_append, countIn_append, countIn_cons]
      by_cases hit : other = accountId ∧ key = blobKey
      · rw [if_pos (same.mpr hit), if_pos hit]
        omega
      · rw [if_neg (mt same.mp hit), if_neg hit]
        omega

theorem Releases.last (consistent : db.Consistent) (releases : Releases db now accountId blobKey givenUp db')
    (given : givenUp = true) : countIn db.cacheObjects.rows accountId blobKey = 1 := by
  cases releases with
  | absent none => cases given
  | counted split first holds many rows => cases given
  | @removed before row after cacheObjects split first holds last rows =>
      have member : row ∈ db.cacheObjects.rows := by
        rw [split]
        simp
      have none (others : List (Row CacheObject)) (within : ∀ other ∈ others, other ∈ before ++ after) :
          countIn others accountId blobKey = 0 := by
        have uncounted : others.filter (fun other => other.data.holds accountId blobKey) = [] := by
          refine List.filter_eq_nil_iff.mpr fun other otherMember holdsOther => ?_
          have inRows : other ∈ db.cacheObjects.rows := by
            rw [split]
            rcases List.mem_append.mp (within other otherMember) with left | right
            · exact List.mem_append_left _ left
            · exact List.mem_append_right _ (List.mem_cons_of_mem _ right)
          have same := consistent.single inRows member holdsOther holds
          exact Table.apart_of_split split other (within other otherMember) (congrArg Row.id same)
        rw [countIn, uncounted]
        rfl
      have one := consistent.counts row member
      rw [split, countIn_append, countIn_cons, if_pos holds, none before fun _ => List.mem_append_left _,
        none after fun _ => List.mem_append_right _]
      omega

end

/-! ## Uses -/

def Db.partKeys (db : Db) (messageId : Int) : List String :=
  (db.mimeParts.rows.filter fun row => row.data.messageId == messageId).map (·.data.blobKey)

def Db.usedKeys (db : Db) (accountId messageId : Int) : List String :=
  match (db.message messageId).filter fun message => message.data.accountId == accountId with
  | some message => message.data.rfc822BlobKey :: db.partKeys messageId
  | none => []

section
variable {db : Db} {accountId messageId : Int}

theorem Db.listMessageCacheObjects_perm (db : Db) (accountId messageId : Int) :
    ((db.listMessageCacheObjects accountId messageId).map (·.blobKey)).Perm (db.usedKeys accountId messageId) := by
  have owned := Table.filter_id db.messages (·.data.accountId == accountId) messageId
  have sorted : ((db.listMessageCacheObjects accountId messageId).map (·.blobKey)).Perm
      (((db.messages.rows.filter fun row => row.data.accountId == accountId && row.id == messageId).map
          fun row => row.data.rfc822BlobKey) ++
        ((db.mimeParts.rows.filter fun row => row.data.messageId == messageId &&
          !(db.messages.rows.filter fun row => row.data.accountId == accountId && row.id == messageId).isEmpty).map
          fun row => row.data.blobKey)) := by
    refine ((List.perm_insertionSort _ _).map _).trans (List.Perm.of_eq ?_)
    rw [List.map_append, List.map_map, List.map_map]
    rfl
  refine sorted.trans (List.Perm.of_eq ?_)
  rw [owned, Db.usedKeys, Db.message]
  cases Option.filter (fun message : Row Message => message.data.accountId == accountId)
    (db.messages.find (·.id == messageId)) with
  | none => simp
  | some message => simp [Db.partKeys]

theorem Db.uses_eq (db : Db) (accountId messageId : Int) (blobKey : String) :
    db.uses accountId messageId blobKey = (db.usedKeys accountId messageId).count blobKey :=
  (db.listMessageCacheObjects_perm accountId messageId).count_eq blobKey

theorem Db.uses_congr {db' : Db} {accountId messageId : Int} (message : db'.message messageId = db.message messageId)
    (parts : db'.partKeys messageId = db.partKeys messageId) (blobKey : String) :
    db'.uses accountId messageId blobKey = db.uses accountId messageId blobKey := by
  rw [Db.uses_eq, Db.uses_eq, Db.usedKeys, Db.usedKeys, message, parts]

theorem Db.currentMessages_eq (db : Db) (accountId : Int) :
    db.currentMessages accountId = db.mailboxMessages.rows.filter fun row =>
      !row.data.isExpunged && db.accountIdForMailbox row.data.mailboxId == some accountId := by
  unfold Db.currentMessages Db.accountIdForMailbox
  refine List.filter_congr fun row _ => ?_
  cases db.mailbox row.data.mailboxId <;> rfl

/-- Live references depend on the rows, the owners of their mailboxes and the uses of their messages. -/
theorem Db.liveReferences_congr {db' : Db} (rows : db'.mailboxMessages.rows.Perm db.mailboxMessages.rows)
    (owners : ∀ row ∈ db.mailboxMessages.rows,
      db'.accountIdForMailbox row.data.mailboxId = db.accountIdForMailbox row.data.mailboxId)
    {accountId : Int} {blobKey : String}
    (uses : ∀ row ∈ db.mailboxMessages.rows,
      db'.uses accountId row.data.messageId blobKey = db.uses accountId row.data.messageId blobKey) :
    db'.liveReferences accountId blobKey = db.liveReferences accountId blobKey := by
  unfold Db.liveReferences
  rw [Db.currentMessages_eq, Db.currentMessages_eq]
  have same := ((rows.filter fun row => !row.data.isExpunged &&
    db'.accountIdForMailbox row.data.mailboxId == some accountId).map fun row =>
      db'.uses accountId row.data.messageId blobKey).sum_eq
  rw [same]
  have filters : db.mailboxMessages.rows.filter (fun row => !row.data.isExpunged &&
      db'.accountIdForMailbox row.data.mailboxId == some accountId) =
      db.mailboxMessages.rows.filter fun row => !row.data.isExpunged &&
        db.accountIdForMailbox row.data.mailboxId == some accountId :=
    List.filter_congr fun row member => by rw [owners row member]
  rw [filters]
  congr 1
  exact List.map_congr_left fun row member => uses row (List.mem_of_mem_filter member)

theorem Db.liveReferences_insert {db' : Db} {row : Row MailboxMessage}
    (rows : db'.mailboxMessages.rows.Perm (row :: db.mailboxMessages.rows))
    (owners : ∀ mailboxId, db'.accountIdForMailbox mailboxId = db.accountIdForMailbox mailboxId)
    (messages : db'.messages = db.messages) (parts : db'.mimeParts = db.mimeParts)
    (live : row.data.isExpunged = false) (accountId : Int) (blobKey : String) :
    db'.liveReferences accountId blobKey = db.liveReferences accountId blobKey +
      if db.accountIdForMailbox row.data.mailboxId = some accountId then
        db.uses accountId row.data.messageId blobKey else 0 := by
  have uses (messageId : Int) : db'.uses accountId messageId blobKey = db.uses accountId messageId blobKey := by
    refine Db.uses_congr ?_ ?_ blobKey
    · rw [Db.message, Db.message, messages]
    · rw [Db.partKeys, Db.partKeys, parts]
  unfold Db.liveReferences
  rw [Db.currentMessages_eq, Db.currentMessages_eq]
  simp only [uses, owners]
  rw [((rows.filter _).map _).sum_eq, List.filter_cons]
  by_cases owner : db.accountIdForMailbox row.data.mailboxId = some accountId
  · simp only [live, owner, beq_self_eq_true, Bool.not_false, Bool.and_self, if_true, List.map_cons, List.sum_cons]
    omega
  · simp [owner]

end

/-! ## Rows that are put and dropped -/

section
variable {db db' : Db}

theorem Db.PutRow.perm {row : Row MailboxMessage} (put : Db.PutRow db db' row)
    (free : ∀ other ∈ db.mailboxMessages.rows,
      ¬ (other.data.mailboxId = row.data.mailboxId ∧ other.data.localUid = row.data.localUid)) :
    db'.mailboxMessages.rows.Perm (row :: db.mailboxMessages.rows) := by
  have new : row ∉ db.mailboxMessages.rows := fun member => free row member ⟨rfl, rfl⟩
  refine (List.perm_ext_iff_of_nodup (Table.nodup _) (List.nodup_cons.mpr ⟨new, Table.nodup _⟩)).mpr fun other => ?_
  rw [put.rows, List.mem_cons]
  exact or_congr_right ⟨fun found => found.1, fun member => ⟨member, free other member⟩⟩

theorem Db.DropRow.perm {mailboxId localUid : Int} (drop : Db.DropRow db db' mailboxId localUid)
    {target : Row MailboxMessage} (member : target ∈ db.mailboxMessages.rows)
    (live : Db.isLiveAt mailboxId localUid target = true) :
    db.mailboxMessages.rows.Perm (target :: db'.mailboxMessages.rows) := by
  have gone : target ∉ db'.mailboxMessages.rows := by
    rw [drop.rows, live]
    simp
  refine (List.perm_ext_iff_of_nodup (Table.nodup _) (List.nodup_cons.mpr ⟨gone, Table.nodup _⟩)).mpr fun other => ?_
  rw [List.mem_cons, drop.rows]
  constructor
  · intro here
    by_cases liveOther : Db.isLiveAt mailboxId localUid other = true
    · have first := Db.rowAt_eq_some.mpr ⟨here, liveOther⟩
      have second := Db.rowAt_eq_some.mpr ⟨member, live⟩
      exact .inl (Option.some.inj (first.symm.trans second))
    · exact .inr ⟨here, by simpa using liveOther⟩
  · rintro (rfl | ⟨here, -⟩)
    · exact member
    · exact here

theorem Db.WritesRows.owner (frame : Db.WritesRows db db') (mailboxId : Int) :
    db'.accountIdForMailbox mailboxId = db.accountIdForMailbox mailboxId := by
  obtain ⟨mailboxes, mailboxMessages, rfl, p, modseq, rows⟩ := frame
  have found : mailboxes.rows.find? (·.id == mailboxId) =
      (db.mailboxes.rows.find? (·.id == mailboxId)).map
        (Table.modified p fun mailbox => { mailbox with highestmodseq := modseq }) := by
    rw [rows, List.find?_map]
    congr 2
    funext row
    simp
  unfold Db.accountIdForMailbox Db.mailbox Table.find
  rw [found, Option.map_map]
  refine congrArg (Option.map · _) (funext fun row => ?_)
  simp only [Function.comp, Table.modified]
  split <;> rfl

theorem Db.Consistent.writesRows (consistent : db.Consistent) (frame : Db.WritesRows db db')
    (rows : ∀ row ∈ db'.mailboxMessages.rows, row.data.messageId < db.messages.nextId) : db'.Consistent := by
  obtain ⟨mailboxes, mailboxMessages, rfl, p, modseq, mailboxRows⟩ := frame
  refine ⟨consistent.counts, consistent.objects, consistent.messages, consistent.parts, rows,
    consistent.partMessages, fun row member => ?_⟩
  rw [mailboxRows] at member
  obtain ⟨old, oldMember, rfl⟩ := List.mem_map.mp member
  have known := consistent.accounts old oldMember
  unfold Table.modified
  split <;> exact known

end

/-! ## References given up one after the other -/

theorem forEach_cons {β : Type} (item : β) (items : List β) (round : β → Action Unit) :
    forEach (item :: items) round = (round item).bind fun _ => forEach items round := rfl

def releaseEach (accountId : Int) (objects : List CacheObjectReference) : Action Unit :=
  forEach objects fun object => do
    let _ ← await (.deleteCacheObjectForAccount accountId object.blobKey)
    pure ()

theorem releaseEach_eval (lib : Libraries) (accountId : Int) (objects : List CacheObjectReference) (world : World)
    (consistent : world.db.Consistent)
    (counted : ∀ other key, world.db.countedReferences other key = world.db.liveReferences other key +
      if other = accountId then ((objects.map (·.blobKey)).count key : Int) else 0) :
    ∃ cacheObjects : Table CacheObject cacheObjectKeys,
      (releaseEach accountId objects).eval (cacheHandler lib) world =
        (.ok (), { world with db := { world.db with cacheObjects } }) ∧
      { world.db with cacheObjects }.Consistent ∧ { world.db with cacheObjects }.CountsRight ∧
      (releaseEach accountId objects).Avoids (cacheHandler lib) CacheCommand.GivesUpSafely.bad world := by
  induction objects generalizing world with
  | nil =>
      refine ⟨world.db.cacheObjects, rfl, consistent, fun other key => ?_, trivial⟩
      have right := counted other key
      simpa using right
  | cons object objects ih =>
      obtain ⟨givenUp, db', released, releases⟩ :=
        world.db.deleteCacheObjectForAccount_releases world.now accountId object.blobKey
      obtain ⟨consistent', counts⟩ := releases.counts consistent
      have same := releases.others
      have live (other : Int) (key : String) : db'.liveReferences other key = world.db.liveReferences other key := by
        rw [same]
        rfl
      have here : 0 < countIn world.db.cacheObjects.rows accountId object.blobKey := by
        have total := counted accountId object.blobKey
        rw [Db.countedReferences_eq, if_pos rfl, List.map_cons, List.count_cons_self] at total
        omega
      have performed : world.perform lib (.deleteCacheObjectForAccount accountId object.blobKey) =
          (.ok givenUp, { world with db := db' }) := World.commit_of_ok released
      have counted' (other : Int) (key : String) : db'.countedReferences other key =
          db'.liveReferences other key +
            if other = accountId then ((objects.map (·.blobKey)).count key : Int) else 0 := by
        have total := counted other key
        rw [Db.countedReferences_eq, List.map_cons, List.count_cons] at total
        rw [Db.countedReferences_eq, counts, live, total]
        by_cases own : other = accountId
        · by_cases hit : key = object.blobKey
          · subst hit
            simp [own, here]
            omega
          · have miss : ¬ object.blobKey = key := fun eq => hit eq.symm
            simp [own, hit, miss]
        · simp [own]
      obtain ⟨cacheObjects, evaluated, consistent'', right, avoids⟩ :=
        ih { world with db := db' } consistent' counted'
      have cut : ({ db' with cacheObjects } : Db) = { world.db with cacheObjects } := by
        rw [same]
      have first : releaseEach accountId (object :: objects) =
          (await (.deleteCacheObjectForAccount accountId object.blobKey)).bind fun _ =>
            releaseEach accountId objects := by
        simp only [releaseEach, forEach_cons, bind_eq, bind_assoc, pure_eq, ret_bind]
      have safe : ¬ CacheCommand.GivesUpSafely.bad (.deleteCacheObjectForAccount accountId object.blobKey) world := by
        rintro ⟨given, used⟩
        rw [released] at given
        cases given
        have last := releases.last consistent rfl
        have total := counted accountId object.blobKey
        rw [Db.countedReferences_eq, last, if_pos rfl, List.map_cons, List.count_cons_self] at total
        omega
      refine ⟨cacheObjects, ?_, cut ▸ consistent'', cut ▸ right, ?_⟩
      · rw [first, eval_await_bind performed, evaluated]
        simp only [cut]
      · rw [first, avoids_bind]
        refine ⟨⟨safe, ?_⟩, fun value after evaluated' => ?_⟩
        · rw [cacheHandler_exec, performed]
          trivial
        · rw [eval_ask, cacheHandler_exec, performed] at evaluated'
          cases evaluated'
          exact avoids

/-! ## References added one after the other -/

def CacheObjectReference.counted (accountId : Int) (object : CacheObjectReference) : CacheObject :=
  { accountId := some accountId, objectType := object.objectType, blobKey := object.blobKey
    sha256 := object.sha256, sizeOctets := object.sizeOctets, refCount := 1, lastAccessedAt := none }

def addEach (accountId : Int) (objects : List CacheObjectReference) : Action Unit :=
  forEach objects fun object => await (.upsertCacheObject (object.counted accountId))

theorem Db.Consistent.listed {db : Db} (consistent : db.Consistent) {accountId messageId : Int}
    {object : CacheObjectReference} (member : object ∈ db.listMessageCacheObjects accountId messageId) :
    keyType object.blobKey = some object.objectType := by
  unfold Db.listMessageCacheObjects at member
  rw [List.mem_insertionSort, List.mem_append] at member
  rcases member with raw | part
  · obtain ⟨row, here, rfl⟩ := List.mem_map.mp raw
    exact consistent.messages row (List.mem_of_mem_filter here)
  · obtain ⟨row, here, rfl⟩ := List.mem_map.mp part
    exact consistent.parts row (List.mem_of_mem_filter here)

theorem performUpsert (lib : Libraries) {world : World} (consistent : world.db.Consistent) (input : CacheObject)
    {accountId : Int} (own : input.accountId = some accountId) (account : world.db.hasAccount accountId = true)
    (typed : keyType input.blobKey = some input.objectType) (one : input.refCount = 1) :
    ∃ cacheObjects : Table CacheObject cacheObjectKeys,
      world.perform lib (.upsertCacheObject input) =
        (.ok (), { world with db := { world.db with cacheObjects } }) ∧
      { world.db with cacheObjects }.Consistent ∧
      ∀ other key, countIn cacheObjects.rows other key = countIn world.db.cacheObjects.rows other key +
        if other = accountId ∧ key = input.blobKey then 1 else 0 := by
  obtain ⟨cacheObjects, done, rest⟩ := Db.upsertCacheObject_counts consistent
    { input with lastAccessedAt := some world.now } own account typed one
  exact ⟨cacheObjects, World.commit_of_ok done, rest⟩

theorem addEach_eval (lib : Libraries) (accountId : Int) (objects : List CacheObjectReference) (world : World)
    (consistent : world.db.Consistent) (account : world.db.hasAccount accountId = true)
    (typed : ∀ object ∈ objects, keyType object.blobKey = some object.objectType) :
    ∃ cacheObjects : Table CacheObject cacheObjectKeys,
      (addEach accountId objects).eval (cacheHandler lib) world =
        (.ok (), { world with db := { world.db with cacheObjects } }) ∧
      { world.db with cacheObjects }.Consistent ∧
      ∀ other key, countIn cacheObjects.rows other key = countIn world.db.cacheObjects.rows other key +
        if other = accountId then ((objects.map (·.blobKey)).count key : Int) else 0 := by
  induction objects generalizing world with
  | nil =>
      refine ⟨world.db.cacheObjects, rfl, consistent, fun other key => ?_⟩
      simp
  | cons object objects ih =>
      obtain ⟨added, performed, consistent', counts⟩ := performUpsert lib consistent
        (object.counted accountId) rfl account (typed object (List.mem_cons_self ..)) rfl
      obtain ⟨cacheObjects, evaluated, consistent'', counts'⟩ :=
        ih { world with db := { world.db with cacheObjects := added } } consistent' account
          fun other member => typed other (List.mem_cons_of_mem _ member)
      refine ⟨cacheObjects, ?_, consistent'', fun other key => ?_⟩
      · have first : addEach accountId (object :: objects) =
            (await (.upsertCacheObject (object.counted accountId))).bind fun _ => addEach accountId objects := rfl
        rw [first, eval_await_bind performed, evaluated]
      · rw [counts', counts, List.map_cons, List.count_cons]
        by_cases own : other = accountId
        · by_cases hit : key = object.blobKey
          · subst hit
            simp [own, CacheObjectReference.counted]
            omega
          · have miss : ¬ object.blobKey = key := fun eq => hit eq.symm
            simp [own, hit, miss, CacheObjectReference.counted]
        · simp [own]

end ImapCache
