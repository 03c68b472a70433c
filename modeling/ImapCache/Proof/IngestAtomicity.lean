import ImapCache.Model.Sample
import ImapCache.Proof.Footprints
import ImapCache.Proof.Frames

/-!
# Ingestion that fails

The writes of `ingest_parsed_message` are statements of their own. A failure leaves the rows of the
account as they were only if it comes before the first of them, the record of the message.
-/

namespace ImapCache
open Lib Prog

/-- The rows of an account in the tables that ingestion writes. -/
structure AccountRows where
  messages : List (Row Message)
  mailboxMessages : List (Row MailboxMessage)
  mimeParts : List (Row MimePart)
  cacheObjects : List (Row CacheObject)
  quotas : List (Row Quota)

def Db.accountRows (db : Db) (accountId : Int) : AccountRows where
  messages := db.messages.rows.filter (·.data.accountId == accountId)
  mailboxMessages := db.mailboxMessages.rows.filter fun row =>
    (db.mailbox row.data.mailboxId).any (·.data.accountId == accountId)
  mimeParts := db.mimeParts.rows.filter fun row =>
    (db.message row.data.messageId).any (·.data.accountId == accountId)
  cacheObjects := db.cacheObjects.rows.filter (·.data.accountId == some accountId)
  quotas := db.quotas.rows.filter (·.data.accountId == some accountId)

namespace Ingest

/-! ## The calls up to the record of the message -/

section
variable {lib : Libraries} {α : Type} {faults : List (Fault Error)} {world : World}

theorem run_await_ok {op : Op} {next : op.Ret → Action α} {value : op.Ret} {world' : World}
    (answered : (cacheHandler lib).answer (faults.headD .none) op world = (.ok value, world')) :
    ((await op).bind next).run (cacheHandler lib) faults world =
      (next value).run (cacheHandler lib) faults.tail world' := by
  simp only [await, ask, call_bind, run]
  rw [answered]
  rfl

theorem run_await_error {op : Op} {next : op.Ret → Action α} {failure : Error} {world' : World}
    (answered : (cacheHandler lib).answer (faults.headD .none) op world = (.error failure, world')) :
    ((await op).bind next).run (cacheHandler lib) faults world = (.error failure, world') := by
  simp only [await, ask, call_bind, run]
  rw [answered]
  rfl

theorem answer_late {op : Op} {failure : Error} (fallible : op.fallible = true) :
    (cacheHandler lib).answer (.late failure) op world = (.error failure, (world.perform lib op).2) := by
  simp only [Handler.answer, cacheHandler_exec, fallible]

/-- The message does not fit into what the quota leaves. -/
def OverQuota (db : Db) (accountId incomingBytes : Int) : Prop :=
  ∃ quota, db.getAccountQuota accountId = some quota ∧
    (quota.data.usedBytes + incomingBytes > i64Max ∨
      quota.data.usedBytes + incomingBytes > quota.data.maxBytes)

theorem answer_quota (accountId : Int) (clean : faults.headD .none = .none) :
    (cacheHandler lib).answer (faults.headD .none) (.getAccountQuota accountId) world =
      (.ok (world.db.getAccountQuota accountId), world) := by
  rw [clean, Handler.answer_none]
  rfl

theorem checkQuota_passes {accountId incomingBytes : Int} {next : Unit → Action α}
    (clean : faults.headD .none = .none) (fits : ¬ OverQuota world.db accountId incomingBytes) :
    ((checkQuota accountId incomingBytes).bind next).run (cacheHandler lib) faults world =
      (next ()).run (cacheHandler lib) faults.tail world := by
  unfold checkQuota
  rw [bind_eq, bind_assoc, run_await_ok (answer_quota accountId clean)]
  cases found : world.db.getAccountQuota accountId with
  | none => rfl
  | some quota =>
      have bounds : ¬ quota.data.usedBytes + incomingBytes > i64Max ∧
          ¬ quota.data.usedBytes + incomingBytes > quota.data.maxBytes := by
        rw [← not_or]
        exact fun exceeded => fits ⟨quota, found, exceeded⟩
      dsimp only
      rw [if_neg bounds.1, if_neg bounds.2]
      rfl

theorem checkQuota_refuses (lib : Libraries) {accountId incomingBytes : Int} (next : Unit → Action α)
    (refused : faults.headD .none ≠ .none ∨ OverQuota world.db accountId incomingBytes) :
    ∃ failure, ((checkQuota accountId incomingBytes).bind next).run (cacheHandler lib) faults world =
      (.error failure, world) := by
  unfold checkQuota
  rw [bind_eq, bind_assoc]
  cases fault : faults.headD .none with
  | lost failure =>
      refine ⟨failure, run_await_error ?_⟩
      rw [fault]
      rfl
  | late failure =>
      refine ⟨failure, run_await_error ?_⟩
      rw [fault]
      rfl
  | none =>
      obtain ⟨quota, found, exceeded⟩ := refused.resolve_left (not_not.mpr fault)
      rw [run_await_ok (answer_quota accountId fault), found]
      dsimp only
      by_cases overflow : quota.data.usedBytes + incomingBytes > i64Max
      · rw [if_pos overflow]
        exact ⟨_, rfl⟩
      · rw [if_neg overflow, if_pos (exceeded.resolve_left overflow)]
        exact ⟨_, rfl⟩

theorem splitOnce_key (lib : Libraries) (objectType : ObjectType) (bytes : Bytes) :
    splitOnce '/' (contentAddressedKey lib objectType bytes) = some (objectType.text, lib.sha256 bytes) := by
  cases objectType <;> simp [splitOnce, contentAddressedKey, ObjectType.text, List.span, List.span.loop]

theorem validate_key (lib : Libraries) (objectType : ObjectType) (bytes : Bytes) :
    validateContentAddressedBytes lib (contentAddressedKey lib objectType bytes) bytes = .ok () := by
  unfold validateContentAddressedBytes
  rw [splitOnce_key]
  cases objectType <;> simp [ObjectType.text]

theorem performPut (lib : Libraries) (raw : Bytes) (world : World) :
    ∃ metadata blobs, world.perform lib (.putObject (contentAddressedKey lib .rfc822 raw) raw) =
      (.ok metadata, { world with blobs }) := by
  simp only [World.perform, World.putObject, validate_key]
  exact ⟨_, _, rfl⟩

theorem putRaw_passes (lib : Libraries) (raw : Bytes) (next : ObjectMetadata → Action α) (world : World)
    (clean : faults.headD .none = .none) :
    ∃ metadata world', world'.db = world.db ∧
      ((await (.putObject (contentAddressedKey lib .rfc822 raw) raw)).bind next).run (cacheHandler lib)
        faults world = (next metadata).run (cacheHandler lib) faults.tail world' := by
  obtain ⟨metadata, blobs, done⟩ := performPut lib raw world
  refine ⟨metadata, { world with blobs }, rfl, run_await_ok ?_⟩
  rw [clean, Handler.answer_none, cacheHandler_exec, done]

theorem putRaw_refuses {raw : Bytes} {next : ObjectMetadata → Action α} (faulty : faults.headD .none ≠ .none) :
    ∃ failure world', world'.db = world.db ∧
      ((await (.putObject (contentAddressedKey lib .rfc822 raw) raw)).bind next).run (cacheHandler lib)
        faults world = (.error failure, world') := by
  obtain ⟨metadata, blobs, done⟩ := performPut lib raw world
  cases fault : faults.headD .none with
  | none => exact absurd fault faulty
  | lost failure =>
      refine ⟨failure, world, rfl, run_await_error ?_⟩
      rw [fault]
      rfl
  | late failure =>
      refine ⟨failure, { world with blobs }, rfl, run_await_error ?_⟩
      rw [fault, answer_late rfl, done]

theorem performRecord_refuses (lib : Libraries) {input : Message} (unknown : world.db.hasAccount input.accountId = false) :
    ∃ failure, world.perform lib (.upsertMessage input) = (.error failure, world) := by
  have refused : world.db.upsertMessage input =
      .error (Db.foreignKeyViolation "messages_account_id_fkey") := by
    simp [Db.upsertMessage, unknown]
  exact ⟨_, World.commit_of_error refused⟩

theorem performRecord (lib : Libraries) {input : Message} (account : world.db.hasAccount input.accountId = true) :
    ∃ row db', world.perform lib (.upsertMessage input) = (.ok row, { world with db := db' }) ∧
      row.data = input ∧ db'.messages.rows = world.db.messages.rows ++ [row] := by
  cases result : world.db.upsertMessage input with
  | error failure =>
      have admitted : world.db.messages.insert input ≠ none := by
        rw [Ne, Table.insert_eq_none]
        rintro ⟨old, -, clash⟩
        cases clash
      unfold Db.upsertMessage at result
      rw [if_neg (by simp [account])] at result
      split at result
      · cases result
      · exact absurd ‹_› admitted
  | ok value =>
      obtain ⟨row, db'⟩ := value
      obtain ⟨messages, rfl, same, rows, -⟩ := Db.upsertMessage_ok result
      exact ⟨row, _, World.commit_of_ok result, by rw [same], rows⟩

theorem record_refuses (lib : Libraries) (input : Message) (next : Row Message → Action α)
    (refused : (faults.headD .none).reaches = false ∨ world.db.hasAccount input.accountId = false) :
    ∃ failure, ((await (.upsertMessage input)).bind next).run (cacheHandler lib) faults world =
      (.error failure, world) := by
  cases fault : faults.headD .none with
  | lost failure =>
      refine ⟨failure, run_await_error ?_⟩
      rw [fault]
      rfl
  | none =>
      rw [fault] at refused
      obtain ⟨failure, done⟩ := performRecord_refuses lib (refused.resolve_left (by decide))
      refine ⟨failure, run_await_error ?_⟩
      rw [fault, Handler.answer_none, cacheHandler_exec, done]
  | late failure =>
      rw [fault] at refused
      obtain ⟨failure', done⟩ := performRecord_refuses lib (refused.resolve_left (by simp [Fault.reaches]))
      refine ⟨failure, run_await_error ?_⟩
      rw [fault, answer_late rfl, done]

theorem run_component (lib : Libraries) (faults : List (Fault Error)) (world : World) {p : Action α} {k : Component}
    (uses : p.Uses fun op : Op => k ∉ op.writes) :
    (p.run (cacheHandler lib) faults world).2.component k = world.component k := by
  have ensures : p.Ensures (cacheHandler lib) (anyFault Error)
      (fun _ after => after.component k = world.component k)
      (fun _ after => after.component k = world.component k) world := by
    refine uses.ensures (fun op before untouched same => ?_) rfl
    exact (World.perform_frame lib before op k untouched).trans same
  obtain ⟨ok, failed⟩ := ensures.run faults (fun _ _ => trivial) trivial
  cases outcome : (p.run (cacheHandler lib) faults world).1 with
  | ok value => exact ok value outcome
  | error failure => exact failed failure outcome

theorem record_stays (lib : Libraries) (input : Message) {next : Row Message → Action α}
    (reaches : (faults.headD .none).reaches = true) (account : world.db.hasAccount input.accountId = true)
    (rest : ∀ row, (next row).Uses fun op : Op => Component.messages ∉ op.writes) :
    ∃ row : Row Message, row.data = input ∧
      (((await (.upsertMessage input)).bind next).run (cacheHandler lib) faults world).2.db.messages.rows =
        world.db.messages.rows ++ [row] := by
  obtain ⟨row, db', done, data, rows⟩ := performRecord lib account
  refine ⟨row, data, ?_⟩
  cases fault : faults.headD .none with
  | lost failure =>
      rw [fault] at reaches
      cases reaches
  | none =>
      have answered : (cacheHandler lib).answer (faults.headD .none) (.upsertMessage input) world =
          (.ok row, { world with db := db' }) := by
        rw [fault, Handler.answer_none, cacheHandler_exec, done]
      rw [run_await_ok answered]
      have same := run_component lib faults.tail { world with db := db' } (rest row)
      exact (congrArg Table.rows same).trans rows
  | late failure =>
      have answered : (cacheHandler lib).answer (faults.headD .none) (.upsertMessage input) world =
          (.error failure, { world with db := db' }) := by
        rw [fault, answer_late rfl, done]
      rw [run_await_error answered]
      exact rows

end

/-! ## When a failure leaves the rows alone -/

theorem ingestPart_leaves (accountId messageId accountedBytes : Int) (part : MimePartRecord) :
    (ingestPart accountId messageId accountedBytes part).Uses fun op : Op => Component.messages ∉ op.writes := by
  refine (Uses.ask (by simp [Op.writes])).bind fun metadata => ?_
  refine (Uses.ask (by simp [Op.writes])).bind fun _ => ?_
  exact (Uses.ask (by simp [Op.writes])).bind fun _ => trivial

theorem upsertMailboxMessage_leaves (input : MailboxMessage) :
    (Repository.upsertMailboxMessage input).Uses fun op : Op => Component.messages ∉ op.writes := by
  refine (Uses.ask (by simp [Op.writes])).bind fun inserted => ?_
  refine (Uses.ask (by simp [Op.writes])).bind fun accountId => ?_
  refine Uses.bind ?_ fun _ => (Uses.tell (by simp [Op.writes])).bind fun _ => trivial
  unfold Repository.recordRowMapping
  split
  · exact (Uses.ask (by simp [Op.writes])).bind fun uidvalidity => Uses.ask (by simp [Op.writes])
  · trivial

def recordedMessage (target : Target) (parsed : ParsedMessage) (metadata : ObjectMetadata) : Message :=
  { accountId := target.accountId, rfc822BlobKey := metadata.key
    rfc822Sha256 := parsed.rawSha256, messageIdHeader := parsed.messageIdHeader
    subject := parsed.subject, fromJson := parsed.fromJson, toJson := parsed.toJson
    ccJson := parsed.ccJson, bccJson := parsed.bccJson, replyToJson := parsed.replyToJson
    envelopeJson := parsed.envelopeJson, bodystructureJson := parsed.bodystructureJson
    internalDate := target.internalDate, sentDate := none, sizeOctets := parsed.sizeOctets
    textPreview := parsed.textPreview }

/-- What an ingestion does after the record of its message. -/
def afterRecord (target : Target) (parsed : ParsedMessage) (metadata : ObjectMetadata) (message : Row Message) :
    Action IngestedMessage := do
  Repository.publishEvent (.messageChanged (some message.data.accountId) none (some message.id) "upsert_message")
  onlyIf (!parsed.mimeParts.isEmpty) (await (.deleteMimePartsForMessage message.id))
  let accountedBytes ← parsed.mimeParts.foldlM (ingestPart target.accountId message.id)
    (metadata.sizeOctets : Int)
  let mailboxMessage ← Repository.upsertMailboxMessage (newMailboxMessage target message.id)
  accountMessage target parsed metadata accountedBytes
  pure ⟨message.id, mailboxMessage.id, mailboxMessage.data.localUid, metadata.key⟩

theorem ingestParsedMessage_eq (lib : Libraries) (target : Target) (raw : Bytes) (parsed : ParsedMessage) :
    ingestParsedMessage lib target raw parsed =
      (Prog.ofExcept (estimateMessageBytes raw parsed)).bind fun incomingBytes =>
        (checkQuota target.accountId incomingBytes).bind fun _ =>
          (await (.putObject (contentAddressedKey lib .rfc822 raw) raw)).bind fun metadata =>
            (await (.upsertMessage (recordedMessage target parsed metadata))).bind
              (afterRecord target parsed metadata) := by
  unfold ingestParsedMessage recordMessage Repository.upsertMessage afterRecord
  simp only [bind_eq, bind_assoc]
  rfl

theorem afterRecord_leaves (target : Target) (parsed : ParsedMessage) (metadata : ObjectMetadata)
    (message : Row Message) :
    (afterRecord target parsed metadata message).Uses fun op : Op => Component.messages ∉ op.writes := by
  refine (Uses.tell (by simp [Op.writes])).bind fun _ => ?_
  refine (Uses.onlyIf fun _ => Uses.ask (by simp [Op.writes])).bind fun _ => ?_
  refine (Uses.foldlM _ fun bytes part _ => ingestPart_leaves _ _ _ _).bind fun accountedBytes => ?_
  refine (upsertMailboxMessage_leaves _).bind fun mailboxMessage => ?_
  refine Uses.bind ?_ fun _ => trivial
  refine (Uses.ask (by simp [Op.writes])).bind fun _ => ?_
  refine (Uses.onlyIf fun _ => Uses.ask (by simp [Op.writes])).bind fun _ => ?_
  exact Uses.ask (by simp [Op.writes])

/-- The ingestion fails before the message is recorded: its size does not fit, the quota cannot be
read or does not leave room, the message cannot be stored, or the record is lost or refused. -/
def Unrecorded (target : Target) (raw : Bytes) (parsed : ParsedMessage) (faults : List (Fault Error))
    (db : Db) : Prop :=
  match estimateMessageBytes raw parsed with
  | .error _ => True
  | .ok incomingBytes =>
      faults.getD 0 .none ≠ .none ∨ OverQuota db target.accountId incomingBytes ∨
        faults.getD 1 .none ≠ .none ∨
        (faults.getD 2 .none).reaches = false ∨ db.hasAccount target.accountId = false

theorem headD_eq_getD (faults : List (Fault Error)) :
    faults.headD .none = faults.getD 0 .none ∧ faults.tail.headD .none = faults.getD 1 .none ∧
      faults.tail.tail.headD .none = faults.getD 2 .none := by
  rcases faults with - | ⟨first, - | ⟨second, - | ⟨third, rest⟩⟩⟩ <;> exact ⟨rfl, rfl, rfl⟩

theorem accountRows_ne {before after : Db} {accountId : Int} {row : Row Message}
    (own : row.data.accountId = accountId)
    (rows : after.messages.rows = before.messages.rows ++ [row]) :
    after.accountRows accountId ≠ before.accountRows accountId := by
  intro same
  have lengths := congrArg (fun rows => rows.messages.length) same
  simp [Db.accountRows, rows, own] at lengths

section
variable {target : Target} {raw : Bytes} {parsed : ParsedMessage}
  {faults : List (Fault Error)} {world : World}

theorem ingest_unrecorded (lib : Libraries) (unrecorded : Unrecorded target raw parsed faults world.db) :
    ∃ failure world', world'.db = world.db ∧
      (ingestParsedMessage lib target raw parsed).run (cacheHandler lib) faults world =
        (.error failure, world') := by
  obtain ⟨first, second, third⟩ := headD_eq_getD faults
  rw [ingestParsedMessage_eq]
  unfold Unrecorded at unrecorded
  cases estimated : estimateMessageBytes raw parsed with
  | error failure => exact ⟨failure, world, rfl, rfl⟩
  | ok incomingBytes =>
      rw [estimated, ← first, ← second, ← third] at unrecorded
      simp only [Prog.ofExcept, ret_bind]
      by_cases refused : faults.headD .none ≠ .none ∨ OverQuota world.db target.accountId incomingBytes
      · obtain ⟨failure, ended⟩ := checkQuota_refuses lib _ refused
        exact ⟨failure, world, rfl, ended⟩
      · obtain ⟨clean, fits⟩ := not_or.mp refused
        rw [checkQuota_passes (not_not.mp clean) fits]
        by_cases faulty : faults.tail.headD .none ≠ .none
        · exact putRaw_refuses faulty
        · obtain ⟨metadata, stored, same, continued⟩ := putRaw_passes lib raw
            (fun metadata => (await (.upsertMessage (recordedMessage target parsed metadata))).bind
              (afterRecord target parsed metadata)) world (not_not.mp faulty)
          have lost : (faults.tail.tail.headD .none).reaches = false ∨
              stored.db.hasAccount target.accountId = false := by
            rw [same]
            tauto
          obtain ⟨failure, ended⟩ := record_refuses lib (recordedMessage target parsed metadata)
            (afterRecord target parsed metadata) lost
          exact ⟨failure, stored, same, continued.trans ended⟩

theorem ingest_recorded (lib : Libraries) (recorded : ¬ Unrecorded target raw parsed faults world.db) :
    ((ingestParsedMessage lib target raw parsed).run (cacheHandler lib) faults world).2.db.accountRows
      target.accountId ≠ world.db.accountRows target.accountId := by
  obtain ⟨first, second, third⟩ := headD_eq_getD faults
  rw [ingestParsedMessage_eq]
  unfold Unrecorded at recorded
  cases estimated : estimateMessageBytes raw parsed with
  | error failure =>
      rw [estimated] at recorded
      exact absurd trivial recorded
  | ok incomingBytes =>
      rw [estimated, ← first, ← second, ← third] at recorded
      simp only [not_or, not_not, Bool.not_eq_false] at recorded
      obtain ⟨clean, fits, stores, reaches, account⟩ := recorded
      simp only [Prog.ofExcept, ret_bind]
      rw [checkQuota_passes clean fits]
      obtain ⟨metadata, stored, same, continued⟩ := putRaw_passes lib raw
        (fun metadata => (await (.upsertMessage (recordedMessage target parsed metadata))).bind
          (afterRecord target parsed metadata)) world stores
      rw [continued]
      have known : stored.db.hasAccount target.accountId = true := by
        rw [same]
        exact account
      obtain ⟨row, data, rows⟩ := record_stays lib (recordedMessage target parsed metadata) reaches known
        (afterRecord_leaves target parsed metadata)
      rw [same] at rows
      exact accountRows_ne (by rw [data]; rfl) rows

end

/-- An ingestion that fails leaves the rows of the account as they were exactly if it fails before
the message is recorded. -/
theorem ingest_atomic_iff (lib : Libraries) (target : Target) (raw : Bytes) (parsed : ParsedMessage)
    (faults : List (Fault Error)) (world : World) :
    (∃ failure world', (ingestParsedMessage lib target raw parsed).run (cacheHandler lib) faults world =
        (.error failure, world') ∧
      world'.db.accountRows target.accountId = world.db.accountRows target.accountId) ↔
      Unrecorded target raw parsed faults world.db := by
  constructor
  · rintro ⟨failure, world', ended, same⟩
    by_contra recorded
    refine ingest_recorded lib recorded ?_
    rw [ended]
    exact same
  · intro unrecorded
    obtain ⟨failure, world', same, ended⟩ := ingest_unrecorded lib unrecorded
    exact ⟨failure, world', ended, by rw [same]⟩

/-! ## A message whose upstream UID is taken -/

def takenTarget : Target where
  accountId := 1
  mailboxId := 1
  mailboxName := "INBOX"
  localUid := 2
  upstreamUid := some 1
  internalDate := none
  flags := []
  indexed := false

/-- The first row of the mailbox has the upstream UID of the message. -/
def takenWorld : World :=
  Sample.world (Sample.db [Sample.mailbox "INBOX" (some 7)] [Sample.row 1 1 (some 1) []])
    (Sample.emptyServer (some 7))

/-- The row is refused after the message and its part are recorded. -/
theorem taken_upstream_uid_leaves_rows :
    let ended := (ingestParsedMessage Sample.libraries takenTarget Sample.yoMessage
      (Sample.parsedText Sample.yoMessage "yo")).run (cacheHandler Sample.libraries) [] takenWorld
    ended.1 = .error (Db.uniqueViolation "mailbox_messages_mailbox_upstream_uid_idx") ∧
    ended.2.db.accountRows 1 ≠ takenWorld.db.accountRows 1 := by
  intro ended
  refine ⟨by decide +kernel, fun same => ?_⟩
  have lengths := congrArg (fun rows => rows.messages.length) same
  revert lengths
  decide +kernel

end Ingest
end ImapCache
