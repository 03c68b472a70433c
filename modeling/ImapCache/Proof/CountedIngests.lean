import ImapCache.Proof.CountedLoads

/-!
# Ingestions that keep the reference counts right

An ingestion counts the references of its message part by part, and the one of the message last. They
are those of the message's row exactly when that row is a new one.
-/

namespace ImapCache
open Lib Prog

/-- The parts of a parsed message are addressed by their bytes and their type. -/
def KeyedParts (lib : Libraries) : Prop :=
  ∀ raw parsed, lib.parseMessage raw = .ok parsed → ∀ part ∈ parsed.mimeParts,
    part.blobKey = contentAddressedKey lib
      (if part.disposition == some "attachment" || part.filename.isSome then .attachment else .mimePart)
      part.rawBytes

namespace Ingest

/-- Neither a row nor a UID mapping of the mailbox stands in the way of a new row. -/
structure UidFree (db : Db) (mailboxId uid : Int) (upstreamUid : Option Int) : Prop where
  row : ∀ row ∈ db.mailboxMessages.rows, ¬ (row.data.mailboxId = mailboxId ∧ row.data.localUid = uid)
  upstream : ∀ upstream, upstreamUid = some upstream → ∀ row ∈ db.mailboxMessages.rows,
    ¬ (row.data.mailboxId = mailboxId ∧ row.data.upstreamUid = some upstream)
  mapping : ∀ upstream, upstreamUid = some upstream → ∀ row ∈ db.uidMappings.rows,
    row.data.mailboxId = mailboxId → row.data.upstreamUid = upstream → row.data.localUid = uid

/-- The row of the message is a new one in a mailbox of the account. -/
def RowFree (db : Db) (target : Target) : Prop :=
  db.accountIdForMailbox target.mailboxId = some target.accountId ∧
    ∃ uid, db.chooseLocalUid target.mailboxId target.localUid = .ok uid ∧
      UidFree db target.mailboxId uid target.upstreamUid

/-! ## The statements of a message that is recorded -/

section
variable {db : Db}

theorem assignMailboxModseq_succeeds {mailboxId : Int} {mailbox : Row Mailbox} (found : db.mailbox mailboxId = some mailbox) :
    ∃ modseq mailboxes, db.assignMailboxModseq mailboxId none = .ok (modseq, { db with mailboxes }) := by
  unfold Db.assignMailboxModseq
  rw [found]
  dsimp only
  split
  · exact ⟨_, db.mailboxes, rfl⟩
  · obtain ⟨mailboxes, changed⟩ := Table.modify_of_keeps db.mailboxes (·.id == mailboxId)
      (show ∀ a b : Mailbox, mailboxKeys.admits { a with highestmodseq := some (max
        (none.getD (saturatingSucc (mailbox.data.highestmodseq.getD 0))) (mailbox.data.highestmodseq.getD 0)) } b =
          mailboxKeys.admits a b from fun _ _ => rfl)
    rw [changed]
    exact ⟨_, mailboxes, rfl⟩

theorem insertMailboxMessage_succeeds {input : MailboxMessage} {mailbox : Row Mailbox} {uid : Int}
    (found : db.mailbox input.mailboxId = some mailbox) (modseq : input.modseq = none)
    (chosen : db.chooseLocalUid input.mailboxId input.localUid = .ok uid)
    (free : UidFree db input.mailboxId uid input.upstreamUid) (recorded : (db.message input.messageId).isSome = true) :
    ∃ row position db', db.insertMailboxMessage input = .ok ((row, position), db') ∧ row.data.localUid = uid := by
  obtain ⟨next, mailboxes, assigned⟩ := assignMailboxModseq_succeeds found
  cases upserted : db.mailboxMessages.upsert
      (fun row => row.data.mailboxId == input.mailboxId && row.data.localUid == uid)
      (fun _ => { input with localUid := uid, modseq := some next }) { input with localUid := uid, modseq := some next } with
  | none =>
      have unmatched : db.mailboxMessages.find (fun row => row.data.mailboxId == input.mailboxId &&
          row.data.localUid == uid) = none := by
        rw [Table.find_none]
        intro row member
        have apart := free.row row member
        simpa using apart
      rcases Table.upsert_eq_none upserted with ⟨old, matched, -⟩ | ⟨-, other, member, clash⟩
      · rw [unmatched] at matched
        cases matched
      · have admits : mailboxMessageKeys.admits other.data
            { input with localUid := uid, modseq := some next } = true :=
          (mailboxMessageKeys_admits _ _).mpr ⟨fun place same => free.row other member ⟨place, same⟩,
            fun upstream own place theirs => free.upstream upstream theirs other member ⟨place, own⟩⟩
        rw [admits] at clash
        cases clash
  | some written =>
      obtain ⟨row, mailboxMessages⟩ := written
      have uidRow : row.data.localUid = uid := by
        rcases Table.upsert_row upserted with ⟨old, -, rfl⟩ | ⟨-, rfl⟩ <;> rfl
      have known : ({ db with mailboxes } : Db).message input.messageId = db.message input.messageId := rfl
      unfold Db.insertMailboxMessage
      rw [modseq, chosen, assigned]
      simp only [Bind.bind, Except.bind, upserted, known]
      rw [if_neg (by rw [Option.isNone_iff_eq_none]; exact Option.isSome_iff_ne_none.mp recorded)]
      exact ⟨row, _, _, rfl, uidRow⟩

theorem upsertUidMapping_succeeds {mailboxId localUid upstreamUid : Int} (uidvalidity : Int)
    (known : (db.mailbox mailboxId).isSome = true)
    (free : ∀ row ∈ db.uidMappings.rows, row.data.mailboxId = mailboxId → row.data.upstreamUid = upstreamUid →
      row.data.localUid = localUid) :
    ∃ uidMappings, db.upsertUidMapping mailboxId localUid upstreamUid uidvalidity =
      .ok ((), { db with uidMappings }) := by
  unfold Db.upsertUidMapping
  rw [if_neg (by rw [Option.isNone_iff_eq_none]; exact Option.isSome_iff_ne_none.mp known)]
  cases upserted : db.uidMappings.upsert
      (fun row => row.data.mailboxId == mailboxId && row.data.localUid == localUid)
      (fun mapping => { mapping with upstreamUid, upstreamUidvalidity := uidvalidity })
      ⟨mailboxId, localUid, upstreamUid, uidvalidity⟩ with
  | some written => exact ⟨written.2, rfl⟩
  | none =>
      -- another row of the same upstream UID has the same UID
      have taken (other : Row UidMapping) (member : other ∈ db.uidMappings.rows)
          (apart : ¬ (other.data.mailboxId = mailboxId ∧ other.data.localUid = localUid)) :
          uidMappingKeys.admits other.data ⟨mailboxId, localUid, upstreamUid, uidvalidity⟩ = true := by
        refine (uidMappingKeys_admits _ _).mpr fun place => ⟨fun same => apart ⟨place, same⟩, fun same => ?_⟩
        exact apart ⟨place, free other member place same⟩
      rcases Table.upsert_eq_none upserted with ⟨old, matched, other, member, ne, clash⟩ | ⟨unmatched, other, member, clash⟩
      · obtain ⟨oldMember, place⟩ := Table.mem_of_find matched
        simp only [Bool.and_eq_true, beq_iff_eq] at place
        have updated : ({ old.data with upstreamUid, upstreamUidvalidity := uidvalidity } : UidMapping) =
            ⟨mailboxId, localUid, upstreamUid, uidvalidity⟩ := by
          rw [← place.1, ← place.2]
        have apart : ¬ (other.data.mailboxId = mailboxId ∧ other.data.localUid = localUid) := by
          rintro ⟨otherPlace, otherUid⟩
          have admits := (db.uidMappings.distinct.forall member oldMember ne).2
          exact ((uidMappingKeys_admits _ _).mp admits (otherPlace.trans place.1.symm)).1 (otherUid.trans place.2.symm)
        rw [updated, taken other member apart] at clash
        cases clash
      · have apart := Table.find_none.mp unmatched other member
        rw [taken other member (by simpa using apart)] at clash
        cases clash

theorem performPut_key (lib : Libraries) {key : String} {bytes : Bytes} (world : World)
    (valid : validateContentAddressedBytes lib key bytes = .ok ()) :
    ∃ metadata blobs, world.perform lib (.putObject key bytes) = (.ok metadata, { world with blobs }) ∧
      metadata.key = key := by
  simp only [World.perform, World.putObject, valid]
  exact ⟨_, _, rfl, rfl⟩

theorem keyType_part (lib : Libraries) (part : MimePartRecord) :
    keyType (contentAddressedKey lib
      (if part.disposition == some "attachment" || part.filename.isSome then .attachment else .mimePart)
      part.rawBytes) = some (cacheObjectTypeForMimePart part) := by
  rw [keyType, splitOnce_key, cacheObjectTypeForMimePart]
  cases part.disposition == some "attachment" || part.filename.isSome <;> rfl

theorem keyType_rfc822 (lib : Libraries) (raw : Bytes) :
    keyType (contentAddressedKey lib .rfc822 raw) = some "rfc822" := by
  rw [keyType, splitOnce_key]
  rfl

end

/-! ## While a message is recorded -/

/-- The message has its record, some of its parts and their references, but no row yet. -/
structure Recording (db : Db) (message : Row Message) (stored : List String) (now : Db) : Prop where
  consistent : now.Consistent
  rows : now.mailboxMessages = db.mailboxMessages
  mailboxes : now.mailboxes = db.mailboxes
  mappings : now.uidMappings = db.uidMappings
  accounts : now.accounts = db.accounts
  recorded : now.message message.id = some message
  parts : now.partKeys message.id = stored
  others : ∀ id < message.id, now.message id = db.message id ∧ now.partKeys id = db.partKeys id
  old : ∀ row ∈ db.mailboxMessages.rows, row.data.messageId < message.id
  counts : ∀ other key, countIn now.cacheObjects.rows other key = countIn db.cacheObjects.rows other key +
    if other = message.data.accountId then (stored.count key : Int) else 0

section
variable {db now : Db} {message : Row Message} {stored : List String}

theorem Recording.live (recording : Recording db message stored now) (accountId : Int) (blobKey : String) :
    now.liveReferences accountId blobKey = db.liveReferences accountId blobKey := by
  refine Db.liveReferences_congr (recording.rows ▸ List.Perm.refl _) (fun row _ => ?_) fun row member => ?_
  · rw [Db.accountIdForMailbox, Db.accountIdForMailbox, Db.mailbox, Db.mailbox, recording.mailboxes]
  · obtain ⟨same, parts⟩ := recording.others _ (recording.old row member)
    exact Db.uses_congr same parts blobKey

theorem Recording.start (consistent : db.Consistent) {input : Message} (typed : keyType input.rfc822BlobKey = some "rfc822")
    (inserted : db.upsertMessage input = .ok (message, now)) : Recording db message [] now := by
  obtain ⟨messages, rfl, rfl, rows, next⟩ := Db.upsertMessage_ok inserted
  have fresh : db.messages.rows.find? (·.id == db.messages.nextId) = none := by
    rw [List.find?_eq_none]
    intro row member same
    have below := db.messages.fresh row member
    rw [beq_iff_eq.mp same] at below
    exact absurd below (lt_irrefl _)
  refine ⟨⟨consistent.counts, consistent.objects, fun row member => ?_, consistent.parts, fun row member => ?_,
    fun row member => ?_, consistent.accounts⟩, rfl, rfl, rfl, rfl, ?_, ?_, fun id below => ⟨?_, rfl⟩,
    consistent.rowMessages, fun other key => ?_⟩
  · rw [rows, List.mem_append, List.mem_singleton] at member
    rcases member with old | rfl
    · exact consistent.messages row old
    · exact typed
  · have below := consistent.rowMessages row member
    change row.data.messageId < messages.nextId
    omega
  · have below := consistent.partMessages row member
    change row.data.messageId < messages.nextId
    omega
  · change messages.rows.find? _ = _
    rw [rows, List.find?_append, fresh]
    simp
  · refine List.map_eq_nil_iff.mpr (List.filter_eq_nil_iff.mpr fun row member same => ?_)
    have below := consistent.partMessages row member
    rw [beq_iff_eq.mp same] at below
    exact absurd below (lt_irrefl _)
  · change messages.rows.find? _ = db.messages.rows.find? _
    have other : ¬ db.messages.nextId = id := by
      have below' : id < db.messages.nextId := below
      omega
    rw [rows, List.find?_append, List.find?_cons_of_neg (by simpa using other)]
    simp
  · simp

theorem Recording.cleared (recording : Recording db message [] now) :
    now.deleteMimePartsForMessage message.id = ((), now) := by
  have none := List.filter_eq_nil_iff.mp (List.map_eq_nil_iff.mp recording.parts)
  have unmatched : now.mimeParts.find (fun row => row.data.messageId == message.id) = Option.none :=
    Table.find_none.mpr fun row member => by simpa using none row member
  rw [Db.deleteMimePartsForMessage, Table.remove_none unmatched]

theorem Recording.part (recording : Recording db message stored now) {part : MimePart}
    (own : part.messageId = message.id)
    (typed : keyType part.blobKey = some (RawFetch.cacheObjectTypeForMimePart part)) :
    ∃ mimeParts, now.insertMimePart part = .ok ((), { now with mimeParts }) ∧ { now with mimeParts }.Consistent ∧
      ∀ cacheObjects, { now with mimeParts, cacheObjects }.Consistent →
        (∀ other key, countIn cacheObjects.rows other key = countIn now.cacheObjects.rows other key +
          if other = message.data.accountId ∧ key = part.blobKey then 1 else 0) →
        Recording db message (stored ++ [part.blobKey]) { now with mimeParts, cacheObjects } := by
  have known : now.message part.messageId = some message := own ▸ recording.recorded
  obtain ⟨⟨row, mimeParts⟩, inserted⟩ : ∃ result, now.mimeParts.insert part = some result := by
    cases inserted : now.mimeParts.insert part with
    | some result => exact ⟨result, rfl⟩
    | none =>
        obtain ⟨old, -, clash⟩ := Table.insert_eq_none.mp inserted
        cases clash
  obtain ⟨rfl, rows, -, -⟩ := Table.insert_eq_some inserted
  have keysOf (id : Int) : ({ now with mimeParts } : Db).partKeys id =
      now.partKeys id ++ if message.id = id then [part.blobKey] else [] := by
    unfold Db.partKeys
    rw [show ({ now with mimeParts } : Db).mimeParts.rows = _ from rows, List.filter_append, List.map_append]
    congr 1
    by_cases same : message.id = id <;> simp [own, same]
  have member : message ∈ now.messages.rows := (Table.mem_of_find recording.recorded).1
  refine ⟨mimeParts, ?_, ?_, fun cacheObjects consistent counts => ?_⟩
  · unfold Db.insertMimePart
    rw [known, inserted]
    rfl
  · have before := recording.consistent
    refine ⟨before.counts, before.objects, before.messages, fun row here => ?_, before.rowMessages, fun row here => ?_,
      before.accounts⟩
    · change row ∈ mimeParts.rows at here
      rw [rows, List.mem_append, List.mem_singleton] at here
      rcases here with old | rfl
      · exact before.parts row old
      · exact typed
    · change row ∈ mimeParts.rows at here
      rw [rows, List.mem_append, List.mem_singleton] at here
      rcases here with old | rfl
      · exact before.partMessages row old
      · exact own ▸ now.messages.fresh message member
  · refine ⟨consistent, recording.rows, recording.mailboxes, recording.mappings, recording.accounts,
      recording.recorded, ?_, fun id below => ⟨(recording.others id below).1, ?_⟩, recording.old, fun other key => ?_⟩
    · refine (keysOf message.id).trans ?_
      rw [recording.parts, if_pos rfl]
    · refine (keysOf id).trans ?_
      have ne : ¬ message.id = id := by omega
      rw [if_neg ne, List.append_nil]
      exact (recording.others id below).2
    · rw [counts, recording.counts, List.count_append]
      by_cases same : other = message.data.accountId
      · by_cases hit : key = part.blobKey
        · subst hit
          simp [same]
          omega
        · have miss : ¬ part.blobKey = key := fun eq => hit eq.symm
          simp [same, hit, miss]
      · simp [same]

end

/-! ## The run of an ingestion -/

section
variable {lib : Libraries} {db : Db} {message : Row Message} {stored : List String} {world : World}

theorem ingestPart_eval (recording : Recording db message stored world.db)
    (account : db.hasAccount message.data.accountId = true) {part : MimePartRecord}
    (keyed : part.blobKey = contentAddressedKey lib
      (if part.disposition == some "attachment" || part.filename.isSome then .attachment else .mimePart)
      part.rawBytes) (bytes : Int) :
    ∃ total world', (ingestPart message.data.accountId message.id bytes part).eval (cacheHandler lib) world =
        (.ok total, world') ∧ Recording db message (stored ++ [part.blobKey]) world'.db := by
  obtain ⟨metadata, blobs, put, key⟩ := performPut_key lib world (keyed ▸ validate_key lib _ part.rawBytes)
  have typed : keyType metadata.key = some (cacheObjectTypeForMimePart part) := by
    rw [key, keyed]
    exact keyType_part lib part
  let input : MimePart :=
    { messageId := message.id, partPath := part.partPath, contentType := part.contentType
      charset := part.charset, disposition := part.disposition, filename := part.filename
      contentId := part.contentId, sizeOctets := part.sizeOctets, blobKey := metadata.key
      sha256 := metadata.sha256, transferEncoding := part.transferEncoding
      metadataJson := part.metadataJson }
  have own : input.messageId = message.id := rfl
  obtain ⟨mimeParts, inserted, partConsistent, counted⟩ := recording.part own typed
  have performed : ({ world with blobs } : World).perform lib (.insertMimePart input) =
      (.ok (), { world with blobs, db := { world.db with mimeParts } }) := World.commit_of_ok inserted
  have known : ({ world.db with mimeParts } : Db).hasAccount message.data.accountId = true := by
    rw [Db.hasAccount, recording.accounts]
    exact account
  have storedConsistent : ({ world with blobs, db := { world.db with mimeParts } } : World).db.Consistent :=
    partConsistent
  obtain ⟨cacheObjects, added, consistent, counts⟩ := performUpsert lib storedConsistent
    (newCacheObject message.data.accountId (cacheObjectTypeForMimePart part) metadata) rfl known typed rfl
  refine ⟨bytes + metadata.sizeOctets, { world with blobs, db := { world.db with mimeParts, cacheObjects } }, ?_, ?_⟩
  · unfold ingestPart
    simp only [bind_eq]
    rw [eval_await_bind put, eval_await_bind performed, eval_await_bind added]
    rfl
  · have recorded := counted cacheObjects consistent counts
    rw [← key]
    exact recorded

theorem ingestParts_eval (account : db.hasAccount message.data.accountId = true) {parts : List MimePartRecord}
    (keyed : ∀ part ∈ parts, part.blobKey = contentAddressedKey lib
      (if part.disposition == some "attachment" || part.filename.isSome then .attachment else .mimePart)
      part.rawBytes) {stored : List String} {world : World} (recording : Recording db message stored world.db)
    (bytes : Int) :
    ∃ total world', (parts.foldlM (ingestPart message.data.accountId message.id) bytes).eval (cacheHandler lib) world =
        (.ok total, world') ∧ Recording db message (stored ++ parts.map (·.blobKey)) world'.db := by
  induction parts generalizing stored world bytes with
  | nil => exact ⟨bytes, world, rfl, by simpa using recording⟩
  | cons part parts ih =>
      obtain ⟨total, world', first, recording'⟩ :=
        ingestPart_eval recording account (keyed part (List.mem_cons_self ..)) bytes
      obtain ⟨total', world'', rest, recording''⟩ :=
        ih (fun other member => keyed other (List.mem_cons_of_mem _ member)) recording' total
      refine ⟨total', world'', ?_, ?_⟩
      · rw [List.foldlM_cons, bind_eq, eval_bind, first]
        exact rest
      · rw [List.map_cons, List.append_cons]
        exact recording''

theorem recordRowMapping_eval {row : Row MailboxMessage} (known : (world.db.mailbox row.data.mailboxId).isSome = true)
    (free : ∀ upstream, row.data.upstreamUid = some upstream → ∀ mapping ∈ world.db.uidMappings.rows,
      mapping.data.mailboxId = row.data.mailboxId → mapping.data.upstreamUid = upstream →
        mapping.data.localUid = row.data.localUid) :
    ∃ uidMappings, (Repository.recordRowMapping row).eval (cacheHandler lib) world =
      (.ok (), { world with db := { world.db with uidMappings } }) := by
  unfold Repository.recordRowMapping
  cases upstream : row.data.upstreamUid with
  | none => exact ⟨world.db.uidMappings, rfl⟩
  | some upstreamUid =>
      have read : world.perform lib (.mailboxUidvalidity row.data.mailboxId) =
          (.ok (world.db.mailboxUidvalidity row.data.mailboxId), world) := rfl
      obtain ⟨uidMappings, mapped⟩ := upsertUidMapping_succeeds
        (world.db.mailboxUidvalidity row.data.mailboxId) known (free upstreamUid upstream)
      refine ⟨uidMappings, ?_⟩
      dsimp only [Repository.recordUidMapping]
      rw [bind_eq, eval_await_bind read, eval_ask, cacheHandler_exec]
      exact World.commit_of_ok mapped

theorem row_eval (lib : Libraries) {target : Target} (recording : Recording db message stored world.db) (free : RowFree db target) :
    ∃ row position written uidMappings world',
      (Repository.upsertMailboxMessage (newMailboxMessage target message.id)).eval (cacheHandler lib) world =
        (.ok row, world') ∧
      world.db.insertMailboxMessage (newMailboxMessage target message.id) = .ok ((row, position), written) ∧
      world'.db = { written with uidMappings } ∧
      ∀ other ∈ world.db.mailboxMessages.rows,
        ¬ (other.data.mailboxId = target.mailboxId ∧ other.data.localUid = row.data.localUid) := by
  obtain ⟨owner, uid, chosen, uidFree⟩ := free
  obtain ⟨mailbox, found, -⟩ := Option.map_eq_some_iff.mp owner
  have found' : world.db.mailbox target.mailboxId = some mailbox := by
    rw [Db.mailbox, recording.mailboxes]
    exact found
  have chosen' : world.db.chooseLocalUid target.mailboxId target.localUid = .ok uid := by
    rw [← chosen]
    unfold Db.chooseLocalUid Db.assignMailboxLocalUid Db.liveMessages Db.mailbox
    rw [recording.mailboxes, recording.rows]
  have uidFree' : UidFree world.db target.mailboxId uid target.upstreamUid :=
    ⟨recording.rows ▸ uidFree.row, recording.rows ▸ uidFree.upstream, recording.mappings ▸ uidFree.mapping⟩
  have recorded : (world.db.message message.id).isSome = true := by
    rw [recording.recorded]
    rfl
  have sequenced : (newMailboxMessage target message.id).modseq = none := rfl
  obtain ⟨row, position, written, inserted, rowUid⟩ :=
    insertMailboxMessage_succeeds found' sequenced chosen' uidFree' recorded
  have performed : world.perform lib (.insertMailboxMessage (newMailboxMessage target message.id)) =
      (.ok (row, position), { world with db := written }) := World.commit_of_ok inserted
  obtain ⟨put, ⟨modseq, data⟩, -⟩ := Db.insertMailboxMessage_ok inserted
  have place : row.data.mailboxId = target.mailboxId := by
    rw [data]
    rfl
  have upstream : row.data.upstreamUid = target.upstreamUid := by
    rw [data]
    rfl
  have mappings : written.uidMappings = world.db.uidMappings := by
    obtain ⟨_, _, same, -⟩ := put.frame
    rw [same]
  have owned : written.accountIdForMailbox row.data.mailboxId = world.db.accountIdForMailbox row.data.mailboxId :=
    put.frame.owner _
  have read : ({ world with db := written } : World).perform lib (.accountIdForMailbox row.data.mailboxId) =
      (.ok (written.accountIdForMailbox row.data.mailboxId), { world with db := written }) := rfl
  have known : (written.mailbox row.data.mailboxId).isSome = true := by
    have mapped : ((written.mailbox row.data.mailboxId).map (·.data.accountId)).isSome = true := by
      change (written.accountIdForMailbox row.data.mailboxId).isSome = true
      rw [owned, place, Db.accountIdForMailbox, found']
      rfl
    rwa [Option.isSome_map] at mapped
  obtain ⟨uidMappings, mapped⟩ := @recordRowMapping_eval lib { world with db := written } row known
    (by rw [mappings, upstream, rowUid, place]; exact uidFree'.mapping)
  obtain ⟨told, published, same⟩ := CacheCommand.publish_eval lib (.messageChangedWithContext
    (written.accountIdForMailbox row.data.mailboxId) (some row.data.mailboxId)
    (some row.data.messageId) (some row.data.localUid) (some position) row.data.flags
    "upsert_mailbox_message") row { world with db := { written with uidMappings } }
  refine ⟨row, position, written, uidMappings, told, ?_, inserted, same, rowUid ▸ uidFree'.row⟩
  unfold Repository.upsertMailboxMessage
  simp only [bind_eq]
  rw [eval_await_bind performed, eval_await_bind read, eval_bind, mapped]
  exact published

theorem adjust_eval (world : World) (target : Target) (parsed : ParsedMessage) (bytes : Int) (ingested : IngestedMessage) :
    ∃ quotas, (((onlyIf target.indexed (await (.indexMessage target.mailboxName (i64AsU64 target.localUid)
      { parsed with mimeParts := [] }))).bind fun _ =>
        await (.adjustAccountQuotaUsage target.accountId bytes)).bind fun _ =>
          (pure ingested : Action IngestedMessage)).eval (cacheHandler lib) world |>.2.db = { world.db with quotas } := by
  have indexes : ∃ world', (onlyIf target.indexed (await (.indexMessage target.mailboxName (i64AsU64 target.localUid)
      { parsed with mimeParts := [] })) : Action Unit).eval (cacheHandler lib) world = (.ok (), world') ∧
        world'.db = world.db := by
    cases target.indexed with
    | true => exact ⟨_, rfl, rfl⟩
    | false => exact ⟨_, rfl, rfl⟩
  obtain ⟨world', indexed, same⟩ := indexes
  rw [bind_assoc, eval_bind, indexed, ← same]
  dsimp only
  cases adjusted : world'.db.adjustAccountQuotaUsage target.accountId bytes with
  | error failure =>
      have performed : world'.perform lib (.adjustAccountQuotaUsage target.accountId bytes) =
          (.error failure, world') := World.commit_of_error adjusted
      rw [eval_await_bind_error performed]
      exact ⟨world'.db.quotas, rfl⟩
  | ok result =>
      obtain ⟨done, after⟩ := result
      have performed : world'.perform lib (.adjustAccountQuotaUsage target.accountId bytes) =
          (.ok done, { world' with db := after }) := World.commit_of_ok adjusted
      rw [eval_await_bind performed]
      unfold Db.adjustAccountQuotaUsage at adjusted
      split at adjusted
      · cases adjusted
      · split at adjusted
        · cases adjusted
          exact ⟨_, rfl⟩
        · cases adjusted

theorem counts_of_recorded {now written : Db} {row : Row MailboxMessage} {cacheObjects : Table CacheObject cacheObjectKeys}
    (right : db.CountsRight) (recording : Recording db message stored now) (frame : Db.WritesRows now written)
    (perm : written.mailboxMessages.rows.Perm (row :: now.mailboxMessages.rows)) (live : row.data.isExpunged = false)
    (same : row.data.messageId = message.id)
    (owner : db.accountIdForMailbox row.data.mailboxId = some message.data.accountId)
    (counts : ∀ other key, countIn cacheObjects.rows other key = countIn now.cacheObjects.rows other key +
      if other = message.data.accountId ∧ key = message.data.rfc822BlobKey then 1 else 0) :
    ({ written with cacheObjects } : Db).CountsRight := by
  let before : Db := { now with cacheObjects := db.cacheObjects }
  have rightBefore : before.CountsRight := by
    intro other key
    have before' : before.liveReferences other key = now.liveReferences other key := rfl
    rw [before', recording.live]
    exact right other key
  obtain ⟨mailboxes, mailboxMessages, rfl, rest⟩ := frame
  have framed : Db.WritesRows before { before with mailboxes, mailboxMessages } :=
    ⟨mailboxes, mailboxMessages, rfl, rest⟩
  have owned : before.accountIdForMailbox row.data.mailboxId = some message.data.accountId := by
    rw [← owner, Db.accountIdForMailbox, Db.accountIdForMailbox, Db.mailbox, Db.mailbox]
    change Option.map _ (now.mailboxes.find _) = _
    rw [recording.mailboxes]
  have uses (key : String) : before.uses message.data.accountId row.data.messageId key =
      (message.data.rfc822BlobKey :: stored).count key := by
    rw [Db.uses_eq, Db.usedKeys, same]
    have found : before.message message.id = some message := recording.recorded
    have parts : before.partKeys message.id = stored := recording.parts
    rw [found, parts]
    simp [Option.filter]
  have counted (other : Int) (key : String) : countIn cacheObjects.rows other key =
      countIn before.cacheObjects.rows other key + if other = message.data.accountId then
        (before.uses message.data.accountId row.data.messageId key : Int) else 0 := by
    change _ = countIn db.cacheObjects.rows other key + _
    rw [counts, recording.counts, uses, List.count_cons]
    by_cases own : other = message.data.accountId
    · by_cases hit : key = message.data.rfc822BlobKey
      · subst hit
        simp [own]
        omega
      · have miss : ¬ message.data.rfc822BlobKey = key := fun eq => hit eq.symm
        simp [own, hit, miss]
    · simp [own]
  have after : ({ { before with mailboxes, mailboxMessages } with cacheObjects } : Db).CountsRight :=
    CacheCommand.counts_of_inserted rightBefore framed perm live owned counted
  exact after

theorem afterRecord_kept (recording : Recording db message [] world.db) (right : db.CountsRight)
    (account : db.hasAccount message.data.accountId = true) {target : Target} (free : RowFree db target)
    (own : target.accountId = message.data.accountId) {parsed : ParsedMessage} {metadata : ObjectMetadata}
    (key : metadata.key = message.data.rfc822BlobKey) (typed : keyType metadata.key = some "rfc822")
    (keyed : ∀ part ∈ parsed.mimeParts, part.blobKey = contentAddressedKey lib
      (if part.disposition == some "attachment" || part.filename.isSome then .attachment else .mimePart)
      part.rawBytes) :
    ((afterRecord target parsed metadata message).eval (cacheHandler lib) world).2.db.Consistent ∧
      ((afterRecord target parsed metadata message).eval (cacheHandler lib) world).2.db.CountsRight := by
  let told : World := { world with
    events := world.events ++ [.messageChanged (some message.data.accountId) none (some message.id) "upsert_message"] }
  have cleared : (onlyIf (!parsed.mimeParts.isEmpty) (await (.deleteMimePartsForMessage message.id)) :
      Action Unit).eval (cacheHandler lib) told = (.ok (), told) := by
    have performed : told.perform lib (.deleteMimePartsForMessage message.id) = (.ok (), told) := by
      have none : told.db.deleteMimePartsForMessage message.id = ((), told.db) := recording.cleared
      rw [World.perform, none]
      rfl
    unfold onlyIf
    split
    · rw [eval_ask, cacheHandler_exec, performed]
    · rfl
  obtain ⟨total, second, stores, recording⟩ := @ingestParts_eval lib db message account parsed.mimeParts keyed [] told recording metadata.sizeOctets
  obtain ⟨row, position, written, uidMappings, third, rowed, inserted, mapped, new⟩ := row_eval lib recording free
  obtain ⟨put, ⟨modseq, data⟩, -⟩ := Db.insertMailboxMessage_ok inserted
  have place : row.data.mailboxId = target.mailboxId := by
    rw [data]
    rfl
  have same : row.data.messageId = message.id := by
    rw [data]
    rfl
  have live : row.data.isExpunged = false := by
    rw [data]
    rfl
  have perm := put.perm fun other member clash => new other member (place ▸ clash)
  have member : message ∈ second.db.messages.rows := (Table.mem_of_find recording.recorded).1
  have consistent : written.Consistent := by
    refine recording.consistent.writesRows put.frame fun other here => ?_
    rcases List.mem_cons.mp (perm.mem_iff.mp here) with rfl | old
    · rw [same]
      exact second.db.messages.fresh message member
    · exact recording.consistent.rowMessages other old
  have consistent' : third.db.Consistent := by
    rw [mapped]
    exact ⟨consistent.counts, consistent.objects, consistent.messages, consistent.parts, consistent.rowMessages,
      consistent.partMessages, consistent.accounts⟩
  have others : written.cacheObjects = second.db.cacheObjects ∧ written.accounts = second.db.accounts := by
    obtain ⟨_, _, cut, -⟩ := put.frame
    rw [cut]
    exact ⟨rfl, rfl⟩
  have known : third.db.hasAccount message.data.accountId = true := by
    rw [mapped, Db.hasAccount]
    change (written.accounts.find _).isSome = true
    rw [others.2, recording.accounts]
    exact account
  obtain ⟨cacheObjects, added, consistent'', counts⟩ := performUpsert lib consistent'
    (newCacheObject target.accountId "rfc822" metadata) (congrArg some own) known typed rfl
  obtain ⟨quotas, adjusted⟩ := @adjust_eval lib { third with db := { third.db with cacheObjects } } target
    parsed total ⟨message.id, row.id, row.data.localUid, metadata.key⟩
  have ended : ((afterRecord target parsed metadata message).eval (cacheHandler lib) world).2.db =
      { third.db with cacheObjects, quotas } := by
    rw [← adjusted]
    unfold afterRecord accountMessage
    simp only [bind_eq]
    change (((onlyIf (!parsed.mimeParts.isEmpty) (await (.deleteMimePartsForMessage message.id))).bind _).eval
      (cacheHandler lib) told).2.db = _
    rw [eval_bind, cleared]
    dsimp only
    rw [eval_bind, own, stores]
    dsimp only
    rw [eval_bind, rowed]
    dsimp only
    rw [bind_assoc, ← own, eval_await_bind added]
  have right' : ({ written with cacheObjects } : Db).CountsRight := by
    refine counts_of_recorded right recording put.frame perm live same (place ▸ own ▸ free.1) fun other blobKey => ?_
    rw [counts, mapped]
    change countIn written.cacheObjects.rows other blobKey + _ = _
    rw [others.1]
    congr 2
    rw [eq_iff_iff]
    exact and_congr_right fun _ => by rw [← key]; rfl
  rw [ended]
  refine ⟨?_, fun other blobKey => ?_⟩
  · exact ⟨consistent''.counts, consistent''.objects, consistent''.messages, consistent''.parts, consistent''.rowMessages,
      consistent''.partMessages, consistent''.accounts⟩
  · rw [mapped]
    exact right' other blobKey

end

/-- The ingestion fails before the message is recorded: it cannot be parsed, its size does not fit, the
quota does not leave room or there is no such account. -/
def Refused (lib : Libraries) (db : Db) (target : Target) (raw : Bytes) : Prop :=
  ∀ parsed, lib.parseMessage raw = .ok parsed → Unrecorded target raw parsed [] db

end Ingest

namespace CacheCommand
open Ingest

theorem ingest_keepsObjects (lib : Libraries) (target : Target) (raw : Bytes) :
    (ingestRawMessage lib target raw).Uses fun op : Op => keepsObjects op = true := by
  refine (Uses.ofExcept _).bind fun parsed => ?_
  rw [ingestParsedMessage_eq]
  refine (Uses.ofExcept _).bind fun incomingBytes => Uses.bind ?_ fun _ => ?_
  · refine (uses_await rfl).bind fun quota => ?_
    split
    · trivial
    · split
      · trivial
      · split <;> trivial
  · refine (uses_await rfl).bind fun metadata => (uses_await rfl).bind fun message => ?_
    refine Uses.bind (Uses.tell rfl) fun _ => (Uses.onlyIf fun _ => uses_await rfl).bind fun _ => ?_
    refine (Uses.foldlM _ fun bytes part _ => ?_).bind fun accountedBytes => ?_
    · exact (uses_await rfl).bind fun metadata => (uses_await rfl).bind fun _ => (uses_await rfl).bind fun _ => trivial
    · refine Uses.bind ?_ fun row => Uses.bind ?_ fun _ => trivial
      · refine (uses_await rfl).bind fun inserted => (uses_await rfl).bind fun accountId => ?_
        refine Uses.bind ?_ fun _ => Uses.bind (Uses.tell rfl) fun _ => trivial
        unfold Repository.recordRowMapping
        split
        · exact (uses_await rfl).bind fun uidvalidity => uses_await rfl
        · trivial
      · exact (uses_await rfl).bind fun _ => (Uses.onlyIf fun _ => uses_await rfl).bind fun _ => uses_await rfl

theorem ingest_kept {lib : Libraries} {createdAt : Int → Time} {world : World} (keyed : KeyedParts lib)
    (consistent : world.db.Consistent) (right : world.db.CountsRight) {target : Target} {raw : Bytes}
    (clean : Refused lib world.db target raw ∨ RowFree world.db target) :
    Kept lib createdAt world (.ingest target raw) := by
  suffices counted : ((ingestRawMessage lib target raw).eval (cacheHandler lib) world).2.db.Consistent ∧
      ((ingestRawMessage lib target raw).eval (cacheHandler lib) world).2.db.CountsRight from
    ⟨counted.1, counted.2, avoids_of_uses (ingest_keepsObjects lib target raw) world⟩
  have unchanged (same : ((ingestRawMessage lib target raw).eval (cacheHandler lib) world).2.db = world.db) :
      ((ingestRawMessage lib target raw).eval (cacheHandler lib) world).2.db.Consistent ∧
        ((ingestRawMessage lib target raw).eval (cacheHandler lib) world).2.db.CountsRight := by
    rw [same]
    exact ⟨consistent, right⟩
  cases parses : lib.parseMessage raw with
  | error failure =>
      refine unchanged ?_
      rw [ingestRawMessage, parses]
      rfl
  | ok parsed =>
      have started : (ingestRawMessage lib target raw).eval (cacheHandler lib) world =
          (ingestParsedMessage lib target raw parsed).run (cacheHandler lib) [] world := by
        rw [ingestRawMessage, parses, run_nil]
        rfl
      by_cases refused : Unrecorded target raw parsed [] world.db
      · refine unchanged ?_
        obtain ⟨failure, world', same, ended⟩ := ingest_unrecorded lib refused
        rw [started, ended]
        exact same
      · have free := clean.resolve_left fun early => refused (early parsed parses)
        have recorded := refused
        unfold Unrecorded at recorded
        cases estimated : estimateMessageBytes raw parsed with
        | error failure =>
            rw [estimated] at recorded
            exact absurd trivial recorded
        | ok incomingBytes =>
            rw [estimated] at recorded
            simp only [not_or, not_not, Bool.not_eq_false] at recorded
            obtain ⟨-, fits, -, -, account⟩ := recorded
            obtain ⟨metadata, blobs, put, key⟩ := performPut_key lib world (validate_key lib .rfc822 raw)
            have typed : keyType metadata.key = some "rfc822" := key ▸ keyType_rfc822 lib raw
            have addressed : metadata.key = (recordedMessage target parsed metadata).rfc822BlobKey := rfl
            have owned : target.accountId = (recordedMessage target parsed metadata).accountId := rfl
            cases inserted : world.db.upsertMessage (recordedMessage target parsed metadata) with
            | error failure =>
                obtain ⟨row, db', done, -⟩ := @performRecord world lib (recordedMessage target parsed metadata) account
                rw [World.perform, World.commit_of_error inserted] at done
                cases done
            | ok result =>
                obtain ⟨message, after⟩ := result
                have recording := Recording.start consistent (addressed ▸ typed) inserted
                obtain ⟨-, -, rfl, -, -⟩ := Db.upsertMessage_ok inserted
                have performed : ({ world with blobs } : World).perform lib
                    (.upsertMessage (recordedMessage target parsed metadata)) =
                      (.ok ⟨world.db.messages.nextId, recordedMessage target parsed metadata⟩,
                        { world with blobs, db := after }) := World.commit_of_ok inserted
                have recording' : Recording world.db ⟨world.db.messages.nextId, recordedMessage target parsed metadata⟩ []
                    ({ world with blobs, db := after } : World).db := recording
                have kept := afterRecord_kept recording' right account free owned addressed typed
                  (keyed raw parsed parses)
                rw [started, ingestParsedMessage_eq, estimated]
                simp only [Prog.ofExcept, ret_bind]
                rw [checkQuota_passes rfl fits]
                simp only [List.tail_nil]
                rw [run_nil, eval_await_bind put, eval_await_bind performed]
                exact kept

end CacheCommand
end ImapCache
