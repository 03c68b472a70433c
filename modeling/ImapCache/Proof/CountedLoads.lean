import ImapCache.Proof.CountedCommands
import Mathlib.Algebra.Order.BigOperators.Group.List

/-!
# Loads that keep the reference counts right

A load puts the objects back that the store has lost. Where the message is one of its account, their
records are still there, so that they are only touched.
-/

namespace ImapCache.CacheCommand
open Lib Prog

/-! ## Touched objects -/

def CacheObject.untimed (object : CacheObject) : CacheObject := { object with lastAccessedAt := none }

/-- The same objects, as far as they are counted: only times differ. -/
def SameObjects (rows others : List (Row CacheObject)) : Prop :=
  rows.map (fun row => (row.id, CacheObject.untimed row.data)) =
    others.map fun row => (row.id, CacheObject.untimed row.data)

/-- The tables are those of before, except for the times of the cache objects. -/
def Touched (db db' : Db) : Prop :=
  ∃ cacheObjects, db' = { db with cacheObjects } ∧ SameObjects cacheObjects.rows db.cacheObjects.rows

theorem Touched.refl (db : Db) : Touched db db := ⟨db.cacheObjects, rfl, rfl⟩

section
variable {db db' : Db}

theorem SameObjects.mem {rows others : List (Row CacheObject)} (same : SameObjects rows others) {row : Row CacheObject}
    (member : row ∈ rows) : ∃ other ∈ others, other.data.accountId = row.data.accountId ∧
      other.data.objectType = row.data.objectType ∧ other.data.blobKey = row.data.blobKey ∧
      other.data.refCount = row.data.refCount := by
  have image : (row.id, CacheObject.untimed row.data) ∈
      others.map fun row : Row CacheObject => (row.id, CacheObject.untimed row.data) :=
    same ▸ List.mem_map_of_mem member
  obtain ⟨other, otherMember, eq⟩ := List.mem_map.mp image
  have same := congrArg Prod.snd eq
  simp only [CacheObject.untimed, CacheObject.mk.injEq] at same
  obtain ⟨account, type, key, -, -, counts, -⟩ := same
  exact ⟨other, otherMember, account, type, key, counts⟩

theorem SameObjects.countIn {rows others : List (Row CacheObject)} (same : SameObjects rows others) (accountId : Int)
    (blobKey : String) : countIn rows accountId blobKey = countIn others accountId blobKey := by
  have through (objects : List (Row CacheObject)) : ImapCache.countIn objects accountId blobKey =
      (((objects.map fun row => (row.id, CacheObject.untimed row.data)).filter fun item =>
        item.2.holds accountId blobKey).map (·.2.refCount)).sum := by
    rw [List.filter_map, List.map_map]
    rfl
  rw [through, through, same]

theorem Touched.consistent (touched : Touched db db') (consistent : db.Consistent) : db'.Consistent := by
  obtain ⟨cacheObjects, rfl, same⟩ := touched
  refine consistent.withObjects (fun row member => ?_) fun row member => ?_
  · obtain ⟨other, otherMember, -, -, -, counts⟩ := same.mem member
    exact counts ▸ consistent.counts other otherMember
  · obtain ⟨other, otherMember, -, type, key, -⟩ := same.mem member
    exact key ▸ type ▸ consistent.objects other otherMember

theorem Touched.right (touched : Touched db db') (right : db.CountsRight) : db'.CountsRight := by
  obtain ⟨cacheObjects, rfl, same⟩ := touched
  intro accountId blobKey
  rw [Db.countedReferences_eq, same.countIn]
  exact right accountId blobKey

theorem Touched.trans {first second third : Db} (touched : Touched first second) (again : Touched second third) :
    Touched first third := by
  obtain ⟨cacheObjects, rfl, same⟩ := touched
  obtain ⟨cacheObjects', rfl, same'⟩ := again
  exact ⟨cacheObjects', rfl, Eq.trans same' same⟩

def Held (db : Db) (accountId : Int) (blobKey : String) : Prop :=
  ∃ row ∈ db.cacheObjects.rows, row.data.holds accountId blobKey = true

theorem Touched.held (touched : Touched db db') {accountId : Int} {blobKey : String}
    (held : Held db accountId blobKey) : Held db' accountId blobKey := by
  obtain ⟨cacheObjects, rfl, same⟩ := touched
  obtain ⟨row, member, holds⟩ := held
  obtain ⟨other, otherMember, account, -, key, -⟩ := SameObjects.mem same.symm member
  refine ⟨other, otherMember, ?_⟩
  rw [CacheObject.holds_iff] at holds ⊢
  exact ⟨account.trans holds.1, key.trans holds.2⟩

theorem touchCacheObject_touched (db : Db) (now : Time) (accountId : Int) (blobKey : String) :
    ∃ touched db', db.touchCacheObject now accountId blobKey = .ok (touched, db') ∧ Touched db db' := by
  unfold Db.touchCacheObject
  obtain ⟨cacheObjects, changed⟩ := Table.modify_of_keeps db.cacheObjects
    (fun row : Row CacheObject => row.data.accountId == some accountId && row.data.blobKey == blobKey)
    (f := fun object : CacheObject => { object with lastAccessedAt := some now }) fun _ _ => rfl
  obtain ⟨rows, -⟩ := Table.modify_eq_some changed
  simp only [changed]
  refine ⟨_, _, rfl, cacheObjects, rfl, ?_⟩
  unfold SameObjects
  rw [rows, List.map_map]
  refine List.map_congr_left fun row _ => ?_
  unfold Function.comp Table.modified
  split <;> rfl

end

/-! ## What a load does -/

/-- The operations of a load that write no table, and the one that touches a record. -/
def loads : Op → Bool
  | .getObject _ | .getObjectRange .. | .putObject .. | .touchCacheObject .. | .findAccountByIdAnyState _
  | .findAccountByEmailAddressAnyState _ | .findCacheObjectByAccountTypeAndBlobKey .. | .connectUpstream ..
  | .selectMailbox .. | .uidFetchRfc822 .. | .findMimePartByMessageAndPath .. => true
  | _ => false

/-- However the program runs, it leaves tables that are touched at most. -/
def Touches (lib : Libraries) (db : Db) {α : Type} (p : Action α) : Prop :=
  ∀ world : World, Touched db world.db → p.Ensures (cacheHandler lib) (anyFault Error)
    (fun _ world => Touched db world.db) (fun _ world => Touched db world.db) world

section
variable {lib : Libraries} {db : Db} {α β : Type}

theorem loads_touches {op : Op} (quiet : loads op = true) (world : World) (touched : Touched db world.db) :
    Touched db (world.perform lib op).2.db := by
  cases op with
  | touchCacheObject accountId blobKey =>
      obtain ⟨count, db', done, same⟩ := touchCacheObject_touched world.db world.now accountId blobKey
      rw [World.perform, World.commit_of_ok done]
      exact touched.trans same
  | putObject key bytes =>
      have same : (world.putObject lib key bytes).2.db = world.db := by
        unfold World.putObject
        split <;> rfl
      rw [World.perform, same]
      exact touched
  | getObject key =>
      have same : (world.getObject lib key).2.db = world.db := by
        unfold World.getObject
        split
        · rfl
        · split <;> rfl
      rw [World.perform, same]
      exact touched
  | _ => first | (cases quiet; done) | exact touched

theorem Touches.ret (value : α) : Touches lib db (.ret value : Action α) := fun _ touched => touched

theorem Touches.bind {p : Action α} {f : α → Action β} (first : Touches lib db p) (rest : ∀ value, Touches lib db (f value)) :
    Touches lib db (p.bind f) := by
  intro world touched
  rw [ensures_bind]
  exact (first world touched).mono (fun value world' touched' => rest value world' touched') fun _ _ => id

theorem Touches.of_uses {p : Action α} (uses : p.Uses fun op : Op => loads op = true) : Touches lib db p :=
  fun _ touched => uses.ensures (fun _ world quiet held => loads_touches quiet world held) touched

theorem Touches.await {op : Op} (quiet : loads op = true) {f : op.Ret → Action α}
    (rest : ∀ (world : World) value, Touched db world.db → (world.perform lib op).1 = .ok value →
      Touches lib db (f value)) : Touches lib db ((ImapCache.await op).bind f) := by
  intro world touched
  have after : Touched db (world.perform lib op).2.db := loads_touches quiet world touched
  rw [ensures_bind]
  apply ensures_ask
  · exact fun value answered => rest world value touched answered _ after
  · exact fun _ _ => after
  · exact fun _ _ => touched
  · exact fun _ _ => after

theorem Touches.ask {op : Op} (quiet : loads op = true) {f : op.Ret → Action α}
    (rest : ∀ value, Touches lib db (f value)) : Touches lib db ((ImapCache.await op).bind f) :=
  Touches.await quiet fun _ value _ _ => rest value

theorem Held.found {world : World} {accountId : Int} {objectType blobKey : String} (held : Held db accountId blobKey)
    (consistent : db.Consistent) (typed : keyType blobKey = some objectType) (touched : Touched db world.db) :
    (world.db.findCacheObjectByAccountTypeAndBlobKey accountId objectType blobKey).isSome = true := by
  obtain ⟨row, member, holds⟩ := touched.held held
  have type := (touched.consistent consistent).objects row member
  obtain ⟨account, key⟩ := CacheObject.holds_iff.mp holds
  rw [key, typed, Option.some.injEq] at type
  unfold Db.findCacheObjectByAccountTypeAndBlobKey Table.find
  rw [List.find?_isSome]
  exact ⟨row, member, by simp [account, key, type]⟩

theorem recordObject_touches (consistent : db.Consistent) {accountId : Int} {objectType : String}
    {metadata : ObjectMetadata} (held : Held db accountId metadata.key)
    (typed : keyType metadata.key = some objectType) :
    Touches lib db (RawFetch.recordObject accountId objectType metadata) := by
  refine Touches.await rfl fun world known touched answered => ?_
  have found := held.found consistent typed touched
  obtain rfl : world.db.findCacheObjectByAccountTypeAndBlobKey accountId objectType metadata.key = known :=
    Except.ok.inj answered
  rw [if_neg (by rw [Option.isNone_iff_eq_none]; exact Option.isSome_iff_ne_none.mp found)]
  exact Touches.ask rfl fun _ => .ret ()

theorem putObject_key {world : World} {key : String} {bytes : Bytes} {metadata : ObjectMetadata}
    (answered : (world.perform lib (.putObject key bytes)).1 = .ok metadata) : metadata.key = key := by
  rw [World.perform] at answered
  unfold World.putObject at answered
  split at answered
  · cases answered
  · cases answered
    rfl

theorem orLoad_touches {stored : Option Bytes} {fallback : Action (Option Bytes)} (touches : Touches lib db fallback) :
    Touches lib db (RawFetch.orLoad stored fallback) := by
  cases stored with
  | some raw => exact .ret (some raw)
  | none => exact touches

section
variable {source : RawFetch.Source} (consistent : db.Consistent)
  (held : Held db source.accountId source.view.rfc822BlobKey)
  (typed : keyType source.view.rfc822BlobKey = some "rfc822")
include consistent held typed

theorem rehydrate_touches : Touches lib db (RawFetch.rehydrateMissingRawBlob source) := by
  unfold RawFetch.rehydrateMissingRawBlob
  split
  · refine Touches.ask rfl fun account => ?_
    split
    · refine Touches.bind ?_ fun config => ?_
      · refine Touches.ask rfl fun account => ?_
        split
        · exact .ret none
        · exact Touches.of_uses ((Uses.ofExcept _).bind fun _ => trivial)
      · split
        · refine Touches.ask rfl fun _ => Touches.ask rfl fun _ => Touches.ask rfl fun raw => ?_
          refine Touches.await rfl fun world metadata _ answered => ?_
          have key := putObject_key answered
          exact (recordObject_touches consistent (key ▸ held) (key ▸ typed)).bind fun _ => .ret _
        · exact .ret none
    · exact .ret none
  · exact .ret none

theorem loadRaw_touches : Touches lib db (RawFetch.loadRaw source) := by
  refine Touches.ask rfl fun stored => ?_
  split
  · exact (Touches.of_uses (Uses.tell rfl)).bind fun _ => .ret _
  · exact rehydrate_touches consistent held typed

theorem restorePart_touches {part : MimePart} {storedPath : String} (heldPart : Held db source.accountId part.blobKey)
    (typedPart : keyType part.blobKey = some (RawFetch.cacheObjectTypeForMimePart part)) :
    Touches lib db (RawFetch.restorePart source part storedPath) := by
  refine Touches.ask rfl fun stored => (orLoad_touches (rehydrate_touches consistent held typed)).bind fun raw => ?_
  split
  · refine (Touches.of_uses (Uses.ofExcept _)).bind fun parsed => ?_
    split
    · refine Touches.await rfl fun world metadata _ answered => ?_
      have key := putObject_key answered
      exact (recordObject_touches consistent (key ▸ heldPart) (key ▸ typedPart)).bind fun _ => .ret _
    · exact .ret none
  · exact .ret none

/-- The parts of the loaded message are held like the message itself. -/
def PartsHeld (db : Db) (accountId messageId : Int) : Prop :=
  ∀ part ∈ db.mimeParts.rows, part.data.messageId = messageId → Held db accountId part.data.blobKey

theorem loadRawFetchBytes_touches (parts : PartsHeld db source.accountId source.view.messageId)
    (bodySection : Protocol.RawFetchSection) (range : Option (Nat × Option Nat)) :
    Touches lib db (RawFetch.loadRawFetchBytes source bodySection range) := by
  have loadRange (key : String) (offset : Nat) (count : Option Nat) :
      Touches lib db (RawFetch.loadRange source key offset count) :=
    Touches.ask rfl fun bytes =>
      Touches.bind (Touches.of_uses (Uses.onlyIf fun _ => Uses.tell rfl)) fun _ => .ret _
  unfold RawFetch.loadRawFetchBytes
  split
  · refine (loadRange _ _ _).bind fun bytes => ?_
    split
    · exact .ret _
    · exact (rehydrate_touches consistent held typed).bind fun _ => .ret _
  · exact (loadRaw_touches consistent held typed).bind fun _ => .ret _
  · rename_i path _
    refine Touches.await rfl fun world part touched answered => ?_
    split
    · rename_i part
      have found : world.db.findMimePartByMessageAndPath source.accountId source.view.messageId ("1." ++ path) =
          some part := Except.ok.inj answered
      have tables : world.db.mimeParts = db.mimeParts := by
        obtain ⟨_, same, -⟩ := touched
        rw [same]
      obtain ⟨member, matched⟩ := Table.mem_of_find found
      rw [tables] at member
      simp only [Bool.and_eq_true, beq_iff_eq] at matched
      have heldPart := parts part member matched.1.1
      split
      · exact loadRange _ _ _
      · refine Touches.ask rfl fun stored => Touches.bind ?_ fun raw => ?_
        · exact orLoad_touches (restorePart_touches consistent held typed heldPart (consistent.parts part member))
        · split
          · exact (Touches.of_uses (Uses.tell rfl)).bind fun _ => .ret _
          · exact .ret none
    · exact .ret none

end

/-! ## Loads of messages of the account -/

/-- The loaded message is one of the account that its mailbox belongs to. -/
def LoadsOwn (lib : Libraries) (world : World) (connection : Nat) (mailboxId localUid : Int) : Prop :=
  ∀ loaded, source lib world connection mailboxId localUid = some loaded →
    (world.db.message loaded.view.messageId).any (·.data.accountId == loaded.accountId) = true

theorem held_of_used (consistent : db.Consistent) (right : db.CountsRight) {accountId : Int}
    {row : Row MailboxMessage} (current : row ∈ db.currentMessages accountId) {blobKey : String}
    (used : blobKey ∈ db.usedKeys accountId row.data.messageId) : Held db accountId blobKey := by
  have uses : 0 < db.uses accountId row.data.messageId blobKey := by
    rw [Db.uses_eq]
    exact List.count_pos_iff.mpr used
  have live : db.uses accountId row.data.messageId blobKey ≤ db.liveReferences accountId blobKey :=
    List.le_sum_of_mem (List.mem_map_of_mem current)
  have counted := right accountId blobKey
  rw [Db.countedReferences_eq] at counted
  exact (countIn_pos consistent.counts).mp (by omega)

theorem load_touches {world : World} {connection : Nat} {mailboxId localUid : Int} (consistent : world.db.Consistent)
    (right : world.db.CountsRight) (own : LoadsOwn lib world connection mailboxId localUid)
    {loaded : RawFetch.Source} (found : source lib world connection mailboxId localUid = some loaded)
    (bodySection : Protocol.RawFetchSection) (range : Option (Nat × Option Nat)) :
    Touches lib world.db (RawFetch.loadRawFetchBytes loaded bodySection range) := by
  have owned := own loaded found
  unfold source at found
  obtain ⟨mailbox, mailboxFound, found⟩ := Option.bind_eq_some_iff.mp found
  obtain ⟨view, viewFound, rfl⟩ := Option.map_eq_some_iff.mp found
  obtain ⟨row, member, viewed⟩ := List.mem_filterMap.mp (List.mem_of_find?_eq_some viewFound)
  obtain ⟨message, messageFound, rfl⟩ := Option.map_eq_some_iff.mp viewed
  obtain ⟨inTable, place, live⟩ := Db.mem_liveMessages.mp (Db.mem_listMailboxMessages.mp member)
  change Option.any _ (world.db.message row.data.messageId) = true at owned
  rw [messageFound, Option.any_some, beq_iff_eq] at owned
  have current : row ∈ world.db.currentMessages mailbox.data.accountId := by
    rw [Db.currentMessages_eq, List.mem_filter]
    refine ⟨inTable, ?_⟩
    rw [place, Db.accountIdForMailbox, mailboxFound, live]
    simp
  have keys : world.db.usedKeys mailbox.data.accountId row.data.messageId =
      message.data.rfc822BlobKey :: world.db.partKeys row.data.messageId := by
    rw [Db.usedKeys, messageFound]
    simp [owned, Option.filter]
  have held {blobKey : String} (used : blobKey ∈ message.data.rfc822BlobKey :: world.db.partKeys row.data.messageId) :
      Held world.db mailbox.data.accountId blobKey := held_of_used consistent right current (keys ▸ used)
  refine loadRawFetchBytes_touches consistent (held (List.mem_cons_self ..)) ?_ (fun part partMember same => ?_)
    bodySection range
  · exact consistent.messages message (Table.mem_of_find messageFound).1
  · refine held (List.mem_cons_of_mem _ (List.mem_map.mpr ⟨part, List.mem_filter.mpr ⟨partMember, ?_⟩, rfl⟩))
    exact beq_iff_eq.mpr same

theorem load_kept {createdAt : Int → Time} {world : World} (consistent : world.db.Consistent)
    (right : world.db.CountsRight) {connection : Nat} {mailboxId localUid : Int}
    (own : LoadsOwn lib world connection mailboxId localUid) (bodySection : Protocol.RawFetchSection)
    (range : Option (Nat × Option Nat)) :
    Kept lib createdAt world (.load connection mailboxId localUid bodySection range) := by
  have touched : Touched world.db
      ((load connection mailboxId localUid bodySection range).apply lib createdAt world).db := by
    rw [apply]
    split
    · rename_i loaded found
      have ensures := load_touches consistent right own found bodySection range world (Touched.refl world.db)
      obtain ⟨ok, failed⟩ := ensures.run [] (by simp) trivial
      rw [run_nil] at ok failed
      cases ended : ((RawFetch.loadRawFetchBytes loaded bodySection range).eval (cacheHandler lib) world).1 with
      | ok value => exact ok value ended
      | error failure => exact failed failure ended
    · exact Touched.refl world.db
  refine ⟨touched.consistent consistent, touched.right right, fun loaded _ => avoids_of_uses ?_ world⟩
  refine RawFetch.loadRawFetchBytes_uses (fun op loading => ?_) (fun _ _ => rfl) loaded bodySection range
  cases op with
  | deleteCacheObjectForAccount _ _ => cases loading
  | _ => rfl

end
end ImapCache.CacheCommand
