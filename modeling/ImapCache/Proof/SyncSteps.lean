import ImapCache.Proof.Footprints
import ImapCache.Proof.UpstreamServer

/-!
# What the steps of a sync do

For each method that a sync calls, what it does to the rows of a mailbox, when it succeeds and when
it is cut off by an error at any of its calls. Apart from the rows, nothing changes that a later step
of the sync reads.
-/

namespace ImapCache.Sync
open Lib Prog

variable {lib : Libraries}

/-- The text of the message of that id is stored under that digest, which it has. -/
def HasDigest (lib : Libraries) (world : World) (messageId : Int) (digest : String) : Prop :=
  ∃ message body, world.db.message messageId = some message ∧
    message.data.rfc822BlobKey = ObjectType.rfc822.text ++ "/" ++ digest ∧
    world.blob message.data.rfc822BlobKey = some body ∧ lib.sha256 body = digest

/-! ## The texts of messages -/

theorem sha256_of_key {objectType : ObjectType} {bytes : Bytes} {digest : String}
    (same : contentAddressedKey lib objectType bytes = ObjectType.rfc822.text ++ "/" ++ digest) :
    lib.sha256 bytes = digest := by
  have texts := congrArg String.toList same
  cases objectType with
  | rfc822 => simpa [contentAddressedKey, ObjectType.text] using same
  | mimePart => simp [contentAddressedKey, ObjectType.text] at texts
  | attachment => simp [contentAddressedKey, ObjectType.text] at texts
  | cache => simp [contentAddressedKey, ObjectType.text] at texts

theorem key_of_validate {key : String} {bytes : Bytes}
    (valid : validateContentAddressedBytes lib key bytes = .ok ()) :
    ∃ objectType, contentAddressedKey lib objectType bytes = key := by
  unfold validateContentAddressedBytes at valid
  split at valid
  · cases valid
  · dsimp only at valid
    split at valid
    · cases valid
    · rename_i objectType _
      split at valid
      · rename_i same
        exact ⟨objectType, same⟩
      · cases valid

theorem HasDigest.perform {world : World} {messageId : Int} {digest : String}
    (has : HasDigest lib world messageId digest) (op : Op) :
    HasDigest lib (world.perform lib op).2 messageId digest := by
  obtain ⟨message, body, found, key, stored, same⟩ := has
  by_cases writesMessages : Component.messages ∈ op.writes
  · cases op with
    | upsertMessage input =>
        cases result : world.db.upsertMessage input with
        | error failure =>
            rw [World.perform, World.commit_of_error result]
            exact ⟨message, body, found, key, stored, same⟩
        | ok written =>
            obtain ⟨messages, eq, -, rows, -⟩ := Db.upsertMessage_ok result
            rw [World.perform, World.commit_of_ok result]
            refine ⟨message, body, ?_, key, stored, same⟩
            rw [eq]
            simp only [Db.message, Table.find, rows, List.find?_append] at found ⊢
            rw [found, Option.some_or]
    | _ => simp [Op.writes] at writesMessages
  · have messages : (world.perform lib op).2.db.messages = world.db.messages :=
      World.perform_frame lib world op .messages writesMessages
    have found' : (world.perform lib op).2.db.message messageId = some message := by
      rw [Db.message, messages]
      exact found
    by_cases writesBlobs : Component.blobs ∈ op.writes
    · cases op with
      | putObject key' bytes =>
          simp only [World.perform, World.putObject]
          split
          · exact ⟨message, body, found, key, stored, same⟩
          · rename_i valid
            obtain ⟨objectType, address⟩ := key_of_validate valid
            by_cases eq : message.data.rfc822BlobKey = key'
            · -- what is stored under the key now has the digest too
              refine ⟨message, bytes, found, key, by simp [World.blob, eq], ?_⟩
              exact sha256_of_key (address.trans (eq.symm.trans key))
            · refine ⟨message, body, found, key, ?_, same⟩
              have ne : (message.data.rfc822BlobKey == key') = false := by simpa using eq
              simp only [World.blob, List.lookup_cons, ne]
              exact stored
      | _ => simp [Op.writes] at writesBlobs
    · have blobs : (world.perform lib op).2.blobs = world.blobs :=
        World.perform_frame lib world op .blobs writesBlobs
      refine ⟨message, body, found', key, ?_, same⟩
      rw [World.blob, blobs]
      exact stored

/-! ## What stays the same -/

/-- What a sync reads apart from the rows is the same, and messages keep their texts. -/
structure Kept (lib : Libraries) (s s' : World) : Prop where
  states : s'.db.syncStates = s.db.syncStates
  upstream : s'.upstream = s.upstream
  sessions : s'.sessions = s.sessions
  texts : ∀ {messageId digest}, HasDigest lib s messageId digest → HasDigest lib s' messageId digest

theorem Kept.refl (s : World) : Kept lib s s := ⟨rfl, rfl, rfl, id⟩

theorem Kept.trans {s₁ s₂ s₃ : World} (first : Kept lib s₁ s₂) (second : Kept lib s₂ s₃) :
    Kept lib s₁ s₃ where
  states := second.states.trans first.states
  upstream := second.upstream.trans first.upstream
  sessions := second.sessions.trans first.sessions
  texts has := second.texts (first.texts has)

/-- The rows are the same too. -/
structure Same (lib : Libraries) (s s' : World) : Prop where
  rows : s'.db.mailboxMessages = s.db.mailboxMessages
  kept : Kept lib s s'

theorem Same.refl (s : World) : Same lib s s := ⟨rfl, .refl s⟩

theorem Same.trans {s₁ s₂ s₃ : World} (first : Same lib s₁ s₂) (second : Same lib s₂ s₃) :
    Same lib s₁ s₃ where
  rows := second.rows.trans first.rows
  kept := first.kept.trans second.kept

/-- The operations of a sync that touch neither rows nor anything else it reads. -/
def neutral (op : Op) : Prop :=
  .mailboxMessages ∉ op.writes ∧ .syncStates ∉ op.writes ∧ .upstream ∉ op.writes ∧
    .sessions ∉ op.writes

theorem kept_perform (lib : Libraries) (s : World) (op : Op)
    (quiet : .syncStates ∉ op.writes ∧ .upstream ∉ op.writes ∧ .sessions ∉ op.writes) :
    Kept lib s (s.perform lib op).2 where
  states := World.perform_frame lib s op .syncStates quiet.1
  upstream := World.perform_frame lib s op .upstream quiet.2.1
  sessions := World.perform_frame lib s op .sessions quiet.2.2
  texts has := has.perform op

theorem same_perform (lib : Libraries) (s : World) (op : Op) (quiet : neutral op) :
    Same lib s (s.perform lib op).2 where
  rows := World.perform_frame lib s op .mailboxMessages quiet.1
  kept := kept_perform lib s op quiet.2

theorem neutral_of_bookkeeping {op : Op} (bookkeeping : op.bookkeeping = true) : neutral op := by
  cases op <;> first | simp [neutral, Op.writes]; done | cases bookkeeping

theorem neutral_upsertUidMapping (mailboxId localUid upstreamUid uidvalidity : Int) :
    neutral (.upsertUidMapping mailboxId localUid upstreamUid uidvalidity) := by
  simp [neutral, Op.writes]

/-- A program of neutral operations, ended or cut off anywhere, leaves everything the same. -/
theorem ensures_same {α : Type} {p : Action α}
    {allowed : Fault Error → Prop} (uses : p.Uses neutral) (s : World) :
    p.Ensures (cacheHandler lib) allowed (fun _ => Same lib s) (fun _ => Same lib s) s := by
  apply uses.ensures
  · intro op s' quiet same
    have after := same_perform lib s' op quiet
    exact ⟨after.rows.trans same.rows, same.kept.trans after.kept⟩
  · exact ⟨rfl, .refl s⟩

theorem ensures_same_bind {α β : Type} {p : Action α}
    {f : α → Action β} {allowed : Fault Error → Prop} {ok : β → World → Prop}
    {failed : Error → World → Prop} (uses : p.Uses neutral) {s : World}
    (rest : ∀ value s', Same lib s s' → (f value).Ensures (cacheHandler lib) allowed ok failed s')
    (cutOff : ∀ failure s', Same lib s s' → failed failure s') :
    (p.bind f).Ensures (cacheHandler lib) allowed ok failed s := by
  rw [ensures_bind]
  exact (ensures_same uses s).mono rest cutOff

/-! ## Rows -/

/-- The live row of a mailbox with a local UID is gone. -/
structure Dropped (lib : Libraries) (mailboxId localUid : Int) (s s' : World) : Prop where
  rows : ∀ row, row ∈ s'.db.mailboxMessages.rows ↔
    row ∈ s.db.mailboxMessages.rows ∧ Db.isLiveAt mailboxId localUid row = false
  kept : Kept lib s s'

/-- The live rows of a mailbox with one of the local UIDs are gone. -/
structure Removed (lib : Libraries) (mailboxId : Int) (uids : List Int) (s s' : World) : Prop where
  rows : ∀ row, row ∈ s'.db.mailboxMessages.rows ↔
    row ∈ s.db.mailboxMessages.rows ∧ ∀ uid ∈ uids, Db.isLiveAt mailboxId uid row = false
  kept : Kept lib s s'

/-- The live row of a mailbox with a local UID, if there is one, has these flags. -/
structure Flagged (lib : Libraries) (mailboxId localUid : Int) (flags : List String) (s s' : World) :
    Prop where
  rows : ∃ modseq, ∀ row, row ∈ s'.db.mailboxMessages.rows ↔
    (row ∈ s.db.mailboxMessages.rows ∧ Db.isLiveAt mailboxId localUid row = false) ∨
      ∃ old ∈ s.db.mailboxMessages.rows, Db.isLiveAt mailboxId localUid old = true ∧
        row = ⟨old.id, { old.data with flags, modseq }⟩
  kept : Kept lib s s'

/-- A row of that target and text is there, in the place of any other with its UID. -/
structure Ingested (lib : Libraries) (target : Ingest.Target) (raw : Bytes) (s s' : World)
    (row : Row MailboxMessage) : Prop where
  data : row.data = { Ingest.newMailboxMessage target row.data.messageId with modseq := row.data.modseq }
  text : HasDigest lib s' row.data.messageId (lib.sha256 raw)
  rows : ∀ other, other ∈ s'.db.mailboxMessages.rows ↔ other = row ∨
    (other ∈ s.db.mailboxMessages.rows ∧
      ¬ (other.data.mailboxId = row.data.mailboxId ∧ other.data.localUid = row.data.localUid))
  kept : Kept lib s s'

theorem Dropped.then {mailboxId localUid : Int} {s₁ s₂ s₃ : World}
    (first : Dropped lib mailboxId localUid s₁ s₂) (second : Same lib s₂ s₃) :
    Dropped lib mailboxId localUid s₁ s₃ :=
  ⟨fun row => by rw [second.rows]; exact first.rows row, first.kept.trans second.kept⟩

theorem Same.removed {s s' : World} (same : Same lib s s') (mailboxId : Int) :
    Removed lib mailboxId [] s s' :=
  ⟨fun row => by simp [same.rows], same.kept⟩

theorem Removed.drop {mailboxId uid : Int} {uids : List Int} {s₁ s₂ s₃ : World}
    (first : Removed lib mailboxId uids s₁ s₂) (second : Dropped lib mailboxId uid s₂ s₃) :
    Removed lib mailboxId (uids ++ [uid]) s₁ s₃ where
  rows row := by
    rw [second.rows, first.rows, and_assoc]
    simp [or_imp, forall_and]
  kept := first.kept.trans second.kept

theorem Flagged.then {mailboxId localUid : Int} {flags : List String} {s₁ s₂ s₃ : World}
    (first : Flagged lib mailboxId localUid flags s₁ s₂) (second : Same lib s₂ s₃) :
    Flagged lib mailboxId localUid flags s₁ s₃ :=
  ⟨second.rows ▸ first.rows, first.kept.trans second.kept⟩

theorem Ingested.then {target : Ingest.Target} {raw : Bytes} {row : Row MailboxMessage}
    {s₁ s₂ s₃ : World} (first : Ingested lib target raw s₁ s₂ row) (second : Same lib s₂ s₃) :
    Ingested lib target raw s₁ s₃ row :=
  ⟨first.data, second.kept.texts first.text, fun row => by rw [second.rows]; exact first.rows row,
    first.kept.trans second.kept⟩

theorem Ingested.after {target : Ingest.Target} {raw : Bytes} {row : Row MailboxMessage}
    {s₁ s₂ s₃ : World} (first : Same lib s₁ s₂) (second : Ingested lib target raw s₂ s₃ row) :
    Ingested lib target raw s₁ s₃ row :=
  ⟨second.data, second.text, fun row => by rw [← first.rows]; exact second.rows row,
    first.kept.trans second.kept⟩

section Methods

theorem deleteMailboxMessage_ensures (mailboxId localUid : Int) (s : World) :
    (Repository.deleteMailboxMessage mailboxId localUid).Ensures (cacheHandler lib) (anyFault Error)
      (fun _ => Dropped lib mailboxId localUid s)
      (fun _ s' => Same lib s s' ∨ Dropped lib mailboxId localUid s s') s := by
  apply (Repository.deleteMailboxMessage_leads (fun _ => neutral_of_bookkeeping) mailboxId localUid).ensures
  · exact ⟨rfl, .refl s⟩
  · have kept := kept_perform lib s (.deleteMailboxMessage mailboxId localUid)
      (by simp [Op.writes])
    rw [cacheHandler_exec]
    cases result : s.db.deleteMailboxMessage mailboxId localUid with
    | error failure =>
        right
        rw [World.perform, World.commit_of_error result]
        exact ⟨⟨rfl, .refl s⟩, failure, rfl⟩
    | ok written =>
        left
        refine ⟨fun row => ?_, kept⟩
        rw [World.perform, World.commit_of_ok result]
        rcases Db.deleteMailboxMessage_ok result with ⟨-, same, dead⟩ | ⟨target, -, -, -, drop⟩
        · simp only [same]
          exact ⟨fun member => ⟨member, dead row member⟩, And.left⟩
        · exact drop.rows row
  · exact fun op s' quiet dropped => dropped.then (same_perform lib s' op quiet)

theorem updateMailboxMessageFlags_ensures (mailboxId localUid : Int) (flags : List String) (s : World) :
    (Repository.updateMailboxMessageFlags mailboxId localUid flags).Ensures (cacheHandler lib)
      (anyFault Error) (fun _ => Flagged lib mailboxId localUid flags s)
      (fun _ s' => Same lib s s' ∨ Flagged lib mailboxId localUid flags s s') s := by
  apply (Repository.updateMailboxMessageFlags_leads (fun _ => neutral_of_bookkeeping)
    mailboxId localUid flags).ensures
  · exact ⟨rfl, .refl s⟩
  · have kept := kept_perform lib s (.updateMailboxMessageFlags mailboxId localUid flags)
      (by simp [Op.writes])
    rw [cacheHandler_exec]
    cases result : s.db.updateMailboxMessageFlags mailboxId localUid flags with
    | error failure =>
        right
        rw [World.perform, World.commit_of_error result]
        exact ⟨⟨rfl, .refl s⟩, failure, rfl⟩
    | ok written =>
        left
        refine ⟨?_, kept⟩
        rw [World.perform, World.commit_of_ok result]
        rcases Db.updateMailboxMessageFlags_ok result with
          ⟨-, keeps, dead⟩ | ⟨old, member, live, modseq, position, -, put⟩
        · refine ⟨none, fun row => ?_⟩
          rw [keeps.rows row]
          constructor
          · exact fun member => Or.inl ⟨member, dead row member⟩
          · rintro (⟨member, -⟩ | ⟨old, member, live, -⟩)
            · exact member
            · simp [dead old member] at live
        · refine ⟨modseq, fun row => ?_⟩
          rw [put.rows row]
          have key := Db.isLiveAt_iff.mp live
          constructor
          · rintro (rfl | ⟨otherMember, different⟩)
            · exact Or.inr ⟨old, member, live, rfl⟩
            · refine Or.inl ⟨otherMember, ?_⟩
              rw [← Bool.not_eq_true, Db.isLiveAt_iff]
              exact fun h => different ⟨h.1.trans key.1.symm, h.2.1.trans key.2.1.symm⟩
          · rintro (⟨otherMember, dead⟩ | ⟨old', member', live', rfl⟩)
            · refine Or.inr ⟨otherMember, fun same => ?_⟩
              rw [Db.mailboxMessage_unique otherMember member same.1 same.2, live] at dead
              cases dead
            · have key' := Db.isLiveAt_iff.mp live'
              rw [Db.mailboxMessage_unique member' member (key'.1.trans key.1.symm)
                (key'.2.1.trans key.2.1.symm)]
              exact Or.inl rfl
  · exact fun op s' quiet flagged => flagged.then (same_perform lib s' op quiet)

theorem await_ensures (op : Op) (s : World) :
    (await op).Ensures (cacheHandler lib) (anyFault Error)
      (fun value s' => s.perform lib op = (.ok value, s'))
      (fun _ s' => s' = s ∨ s' = (s.perform lib op).2) s := by
  apply ensures_ask
  · exact fun value ok => Prod.ext ok rfl
  · exact fun _ _ => Or.inr rfl
  · exact fun _ _ => Or.inl rfl
  · exact fun _ _ => Or.inr rfl

theorem ask_ensures {op : Op} (quiet : neutral op) (s : World) :
    (await op).Ensures (cacheHandler lib) (anyFault Error)
      (fun value s' => Same lib s s' ∧ s.perform lib op = (.ok value, s'))
      (fun _ => Same lib s) s := by
  have same := same_perform lib s op quiet
  refine (await_ensures op s).mono (fun value s' ok => ?_) ?_
  · rw [ok] at same
    exact ⟨same, ok⟩
  · rintro _ _ (rfl | rfl)
    · exact Same.refl _
    · exact same

theorem putObject_ok {s s' : World} {key : String} {bytes : Bytes} {metadata : ObjectMetadata}
    (put : s.perform lib (.putObject key bytes) = (.ok metadata, s')) :
    metadata.key = key ∧ s'.blob key = some bytes := by
  simp only [World.perform, World.putObject] at put
  split at put
  · cases put
  · cases put
    exact ⟨rfl, by simp [World.blob]⟩

theorem upsertMessage_ok {s s' : World} {input : Message} {message : Row Message}
    (recorded : s.perform lib (.upsertMessage input) = (.ok message, s')) :
    message.data = input ∧ s'.db.message message.id = some message ∧ s'.blobs = s.blobs := by
  obtain ⟨db, ok⟩ := World.commit_ok (congrArg Prod.fst recorded)
  obtain ⟨messages, rfl, row, rows, -⟩ := Db.upsertMessage_ok ok
  rw [World.perform, World.commit_of_ok ok] at recorded
  cases recorded
  refine ⟨by rw [row], Db.message_some.mpr ⟨?_, rfl⟩, rfl⟩
  rw [rows]
  exact List.mem_append_right _ (List.mem_singleton_self _)

theorem recordMessage_ensures (target : Ingest.Target) (raw : Bytes) (parsed : ParsedMessage)
    (s : World) : (Ingest.recordMessage lib target raw parsed).Ensures (cacheHandler lib)
      (anyFault Error) (fun recorded s' => Same lib s s' ∧
        HasDigest lib s' recorded.2.1.id (lib.sha256 raw))
      (fun _ => Same lib s) s := by
  unfold Ingest.recordMessage
  simp only [bind_eq]
  rw [ensures_bind]
  refine (ask_ensures (by simp [neutral, Op.writes]) s).mono ?_ fun _ _ => id
  rintro metadata s₁ ⟨same₁, put⟩
  obtain ⟨key, stored⟩ := putObject_ok put
  unfold Repository.upsertMessage
  simp only [bind_eq, bind_assoc]
  rw [ensures_bind]
  refine (ask_ensures (by simp [neutral, Op.writes]) s₁).mono ?_
    fun _ _ => same₁.trans
  rintro message s₂ ⟨same₂, recorded⟩
  have text : HasDigest lib s₂ message.id (lib.sha256 raw) := by
    obtain ⟨data, found, blobs⟩ := upsertMessage_ok recorded
    refine ⟨message, raw, found, ?_, ?_, rfl⟩
    · rw [data, key, contentAddressedKey]
    · rw [data, World.blob, blobs, key]
      exact stored
  have same := same₁.trans same₂
  have events : (Repository.publishEvent (.messageChanged (some message.data.accountId) none
      (some message.id) "upsert_message")).Uses neutral :=
    Repository.publishEvent_uses (fun _ => neutral_of_bookkeeping) _
  refine ensures_same_bind events ?_ fun _ _ => same.trans
  intro _ s₃ same₃
  have same := same.trans same₃
  have uses : ∀ op : Op, op.bookkeeping = true → (await op).Uses neutral :=
    fun op bookkeeping => Uses.ask (neutral_of_bookkeeping bookkeeping)
  refine ensures_same_bind (Uses.onlyIf fun _ => uses _ rfl) ?_ fun _ _ => same.trans
  intro _ s₄ same₄
  have same := same.trans same₄
  refine ensures_same_bind (Uses.foldlM _ fun bytes part _ => ?_) ?_ fun _ _ => same.trans
  · exact Ingest.ingestPart_uses (fun _ => neutral_of_bookkeeping) _ _ _ _
  · intro bytes s₅ same₅
    exact ⟨same.trans same₅, (same₃.trans (same₄.trans same₅)).kept.texts text⟩

theorem upsertMailboxMessage_ensures {target : Ingest.Target} {raw : Bytes} {messageId : Int}
    (requested : target.localUid ≠ 0) {s : World} (text : HasDigest lib s messageId (lib.sha256 raw)) :
    (Repository.upsertMailboxMessage (Ingest.newMailboxMessage target messageId)).Ensures
      (cacheHandler lib) (anyFault Error) (fun _ s' => ∃ row, Ingested lib target raw s s' row)
      (fun _ s' => Same lib s s' ∨ ∃ row, Ingested lib target raw s s' row) s := by
  apply (Repository.upsertMailboxMessage_leads (fun _ => neutral_of_bookkeeping)
    (Ingest.newMailboxMessage target messageId) neutral_upsertUidMapping).ensures
  · exact Same.refl s
  · have kept := kept_perform lib s
      (.insertMailboxMessage (Ingest.newMailboxMessage target messageId)) (by simp [Op.writes])
    rw [cacheHandler_exec]
    cases result : s.db.insertMailboxMessage (Ingest.newMailboxMessage target messageId) with
    | error failure =>
        right
        rw [World.perform, World.commit_of_error result]
        exact ⟨Same.refl s, failure, rfl⟩
    | ok written =>
        left
        obtain ⟨⟨row, position⟩, db⟩ := written
        obtain ⟨put, ⟨modseq, data⟩, uid, -⟩ := Db.insertMailboxMessage_ok result
        have messageId' : row.data.messageId = messageId := by
          rw [data]
          rfl
        refine ⟨row, ?_, ?_, ?_, kept⟩
        · rw [data, uid requested]
          rfl
        · rw [messageId']
          exact kept.texts text
        · rw [World.perform, World.commit_of_ok result]
          exact put.rows
  · rintro op s' quiet ⟨row, ingested⟩
    exact ⟨row, ingested.then (same_perform lib s' op quiet)⟩

theorem ingestRawMessage_ensures {target : Ingest.Target} (raw : Bytes)
    (requested : target.localUid ≠ 0) (s : World) :
    (Ingest.ingestRawMessage lib target raw).Ensures (cacheHandler lib) (anyFault Error)
      (fun _ s' => ∃ row, Ingested lib target raw s s' row)
      (fun _ s' => Same lib s s' ∨ ∃ row, Ingested lib target raw s s' row) s := by
  have bookkeeping := fun op => @neutral_of_bookkeeping op
  unfold Ingest.ingestRawMessage
  rw [bind_eq, ensures_bind]
  refine ensures_ofExcept (fun parsed _ => ?_) fun _ _ => Or.inl (Same.refl s)
  unfold Ingest.ingestParsedMessage
  rw [bind_eq, ensures_bind]
  refine ensures_ofExcept (fun bytes _ => ?_) fun _ _ => Or.inl (Same.refl s)
  refine ensures_same_bind (Ingest.checkQuota_uses bookkeeping _ _) ?_ fun _ _ => Or.inl
  intro _ s₁ same₁
  rw [bind_eq, ensures_bind]
  refine (recordMessage_ensures target raw parsed s₁).mono ?_
    fun _ _ same => Or.inl (same₁.trans same)
  rintro ⟨metadata, message, accountedBytes⟩ s₂ ⟨same₂, text⟩
  have same := same₁.trans same₂
  dsimp only at text ⊢
  rw [bind_eq, ensures_bind]
  refine (upsertMailboxMessage_ensures requested text).mono ?_ ?_
  · rintro mailboxMessage s₃ ⟨row, ingested⟩
    have ingested := ingested.after same
    refine ensures_same_bind (Ingest.accountMessage_uses bookkeeping _ _ _ _) ?_ ?_
    · exact fun _ s₄ same₄ => ⟨row, ingested.then same₄⟩
    · exact fun _ s₄ same₄ => Or.inr ⟨row, ingested.then same₄⟩
  · rintro _ s₃ (same₃ | ⟨row, ingested⟩)
    · exact Or.inl (same.trans same₃)
    · exact Or.inr ⟨row, ingested.after same⟩

theorem deleteEach_ensures (mailboxId : Int) (gone : List (Row MailboxMessage)) (s : World) :
    (forEach gone fun message => do
        let _ ← Repository.deleteMailboxMessage mailboxId message.data.localUid
        pure ()).Ensures (cacheHandler lib) (anyFault Error)
      (fun _ => Removed lib mailboxId (gone.map (·.data.localUid)) s)
      (fun _ s' => ∃ part ⊆ gone, Removed lib mailboxId (part.map (·.data.localUid)) s s') s := by
  apply ensures_forEach
    (fun (done _ : List (Row MailboxMessage)) s' =>
      Removed lib mailboxId (done.map (·.data.localUid)) s s')
  · exact (Same.refl s).removed mailboxId
  · intro done message rest s₁ split removed
    have prior : done ⊆ gone := by
      rw [split]
      exact List.subset_append_left _ _
    have next : done ++ [message] ⊆ gone := by
      rw [split]
      simp
    rw [bind_eq, ensures_bind]
    refine (deleteMailboxMessage_ensures mailboxId _ s₁).mono ?_ ?_
    · intro _ s₂ dropped
      change Removed lib mailboxId ((done ++ [message]).map (·.data.localUid)) s s₂
      rw [List.map_append]
      exact removed.drop dropped
    · rintro _ s₂ (same | dropped)
      · exact ⟨done, prior, fun row => by rw [same.rows]; exact removed.rows row,
          removed.kept.trans same.kept⟩
      · refine ⟨done ++ [message], next, ?_⟩
        rw [List.map_append]
        exact removed.drop dropped

end Methods

end ImapCache.Sync
