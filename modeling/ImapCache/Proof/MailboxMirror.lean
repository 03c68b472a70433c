import ImapCache.Lib.Mirror
import ImapCache.Proof.SyncSteps

/-!
# The mirror of a mailbox

The rows of a mailbox mirror the upstream mailbox. What the calls of a sync do to the mirror and to its
checkpoint.
-/

namespace ImapCache

/-- A state of a mailbox of the server, with what a mirror sees of the texts. -/
def UpstreamMailbox.snapshot {B : Type} (view : Bytes → B) (mailbox : UpstreamMailbox) :
    Lib.Snapshot (Option Int) B where
  epoch := mailbox.info.uidvalidity
  holds uid seen := ∃ message ∈ mailbox.messages, (message.uid : Int) = uid ∧ view message.body = seen
  positive := by
    rintro uid seen ⟨message, member, rfl, -⟩
    exact_mod_cast (mailbox.bounded message member).1

theorem UpstreamMailbox.snapshot_distinct {B : Type} (view : Bytes → B) (mailbox : UpstreamMailbox)
    (uid : Int) (seen seen' : B) (first : (mailbox.snapshot view).holds uid seen)
    (second : (mailbox.snapshot view).holds uid seen') : seen = seen' := by
  obtain ⟨message, member, rfl, rfl⟩ := first
  obtain ⟨message', member', same, rfl⟩ := second
  rw [UpstreamMailbox.eq_of_uid member' member (by exact_mod_cast same)]

namespace Sync
open Lib Prog

variable {lib : Libraries}

/-! ## Rows that a sync makes -/

theorem HasDigest.unique {world : World} {messageId : Int} {digest digest' : String}
    (first : HasDigest lib world messageId digest) (second : HasDigest lib world messageId digest') :
    digest = digest' := by
  obtain ⟨message, body, found, -, stored, rfl⟩ := first
  obtain ⟨message', body', found', -, stored', rfl⟩ := second
  rw [found] at found'
  cases found'
  rw [stored] at stored'
  cases stored'
  rfl

/-- The row of a message that a sync has ingested. -/
structure Genuine (lib : Libraries) (world : World) (row : Row MailboxMessage) : Prop where
  upstreamUid : row.data.upstreamUid = some row.data.localUid
  live : row.data.isExpunged = false
  flags : normalizeFlags row.data.flags = row.data.flags
  text : ∃ digest, HasDigest lib world row.data.messageId digest

theorem Genuine.kept {s s' : World} {row : Row MailboxMessage} (genuine : Genuine lib s row)
    (kept : Kept lib s s') : Genuine lib s' row where
  upstreamUid := genuine.upstreamUid
  live := genuine.live
  flags := genuine.flags
  text := genuine.text.imp fun _ => kept.texts

theorem Genuine.hasDigest_iff {s s' : World} {row : Row MailboxMessage} (genuine : Genuine lib s row)
    (kept : Kept lib s s') (digest : String) :
    HasDigest lib s' row.data.messageId digest ↔ HasDigest lib s row.data.messageId digest := by
  constructor
  · intro has
    obtain ⟨digest', had⟩ := genuine.text
    rw [has.unique (kept.texts had)]
    exact had
  · exact kept.texts

def InMailbox (world : World) (mailboxId : Int) (row : Row MailboxMessage) : Prop :=
  row ∈ world.db.mailboxMessages.rows ∧ row.data.mailboxId = mailboxId

/-- The texts of the rows of a mailbox by their UIDs. -/
def copies (lib : Libraries) (mailboxId : Int) (world : World) (uid : Int) (digest : String) : Prop :=
  ∃ row, InMailbox world mailboxId row ∧ row.data.localUid = uid ∧
    HasDigest lib world row.data.messageId digest

/-! ## The mirror and its checkpoint -/

structure Mirrored (lib : Libraries) (accountId mailboxId : Int) (world : World)
    (history : List UpstreamMailbox) : Prop where
  genuine : ∀ row, InMailbox world mailboxId row → Genuine lib world row
  known : ∀ uidvalidity, checkpointField (world.db.loadSyncState accountId (some mailboxId))
    "uidvalidity" = some uidvalidity → ∃ p ∈ history, p.info.uidvalidity = some uidvalidity
  tracks : ∀ now past, history = now :: past → now.info.uidvalidity.isSome →
    checkpointField (world.db.loadSyncState accountId (some mailboxId)) "uidvalidity" =
      now.info.uidvalidity →
    Snapshot.Tracks (now.snapshot lib.sha256) (past.map (·.snapshot lib.sha256)) (copies lib mailboxId world)
      ((checkpointField (world.db.loadSyncState accountId (some mailboxId)) "last_uid").getD 0)

theorem Mirrored.extend {accountId mailboxId : Int} {world : World} {history : List UpstreamMailbox}
    (mirrored : Mirrored lib accountId mailboxId world history) {next : UpstreamMailbox}
    (succeeds : Snapshot.Succeeds (history.map (·.snapshot lib.sha256)) (next.snapshot lib.sha256)) :
    Mirrored lib accountId mailboxId world (next :: history) where
  genuine := mirrored.genuine
  known uidvalidity field := by
    obtain ⟨p, member, same⟩ := mirrored.known uidvalidity field
    exact ⟨p, List.mem_cons_of_mem _ member, same⟩
  tracks := by
    intro now past split some field
    obtain ⟨rfl, rfl⟩ := List.cons.inj split
    obtain ⟨uidvalidity, present⟩ := Option.isSome_iff_exists.mp some
    obtain ⟨p, member, same⟩ := mirrored.known uidvalidity (field.trans present)
    cases history with
    | nil => cases member
    | cons last past =>
        -- the epoch of the checkpoint has not ended, so the last state was of this epoch too
        have epoch : (last.snapshot lib.sha256).epoch = (next.snapshot lib.sha256).epoch := by
          apply succeeds.noReturn (last.snapshot lib.sha256) rfl (p.snapshot lib.sha256) (List.mem_map_of_mem member)
          exact same.trans present.symm
        have before := mirrored.tracks last past rfl (by rw [← some]; exact congrArg _ epoch)
          (field.trans epoch.symm)
        exact before.advance succeeds epoch

/-- Nothing has changed that a mirror consists of. -/
structure Untouched (s s' : World) : Prop where
  rows : s'.db.mailboxMessages = s.db.mailboxMessages
  states : s'.db.syncStates = s.db.syncStates
  messages : s'.db.messages = s.db.messages
  blobs : s'.blobs = s.blobs

theorem hasDigest_congr {s s' : World} (messages : s'.db.messages = s.db.messages)
    (blobs : s'.blobs = s.blobs) {messageId : Int} {digest : String} :
    HasDigest lib s' messageId digest ↔ HasDigest lib s messageId digest := by
  simp only [HasDigest, Db.message, World.blob, messages, blobs]

theorem Mirrored.untouched {accountId mailboxId : Int} {s s' : World} {history : List UpstreamMailbox}
    (mirrored : Mirrored lib accountId mailboxId s history) (untouched : Untouched s s') :
    Mirrored lib accountId mailboxId s' history := by
  have inMailbox : ∀ row, InMailbox s' mailboxId row ↔ InMailbox s mailboxId row := by
    simp [InMailbox, untouched.rows]
  have checkpoint : s'.db.loadSyncState accountId (some mailboxId) =
      s.db.loadSyncState accountId (some mailboxId) := by
    rw [Db.loadSyncState, untouched.states]
    rfl
  have same : copies lib mailboxId s' = copies lib mailboxId s := by
    funext uid digest
    simp only [copies, inMailbox, hasDigest_congr untouched.messages untouched.blobs]
  refine ⟨fun row here => ?_, by rw [checkpoint]; exact mirrored.known, ?_⟩
  · have genuine := mirrored.genuine row ((inMailbox row).mp here)
    exact ⟨genuine.upstreamUid, genuine.live, genuine.flags,
      genuine.text.imp fun _ => (hasDigest_congr untouched.messages untouched.blobs).mpr⟩
  · rw [checkpoint, same]
    exact mirrored.tracks

/-- The rows of a mailbox after a step of a sync: each is one that was there, perhaps with other
flags, or that of a message of the upstream mailbox, and none of a message that is still upstream
has gone. -/
structure Evolves (lib : Libraries) (mailboxId : Int) (now : UpstreamMailbox) (s s' : World) : Prop where
  kept : Kept lib s s'
  genuine : ∀ row, InMailbox s' mailboxId row → Genuine lib s' row
  source : ∀ row, InMailbox s' mailboxId row →
    (∃ old, InMailbox s mailboxId old ∧ old.data.localUid = row.data.localUid ∧
      old.data.messageId = row.data.messageId) ∨
    ∃ digest, (now.snapshot lib.sha256).holds row.data.localUid digest ∧ HasDigest lib s' row.data.messageId digest
  keeps : ∀ row, InMailbox s mailboxId row → (∃ digest, (now.snapshot lib.sha256).holds row.data.localUid digest) →
    ∃ row', InMailbox s' mailboxId row' ∧ row'.data.localUid = row.data.localUid

theorem Evolves.tracks {mailboxId : Int} {now : UpstreamMailbox} {past : List (Snapshot (Option Int) String)}
    {s s' : World} {lastUid : Int} (evolves : Evolves lib mailboxId now s s')
    (genuine : ∀ row, InMailbox s mailboxId row → Genuine lib s row)
    (tracks : Snapshot.Tracks (now.snapshot lib.sha256) past (copies lib mailboxId s) lastUid) :
    Snapshot.Tracks (now.snapshot lib.sha256) past (copies lib mailboxId s') lastUid := by
  apply tracks.change
  · rintro uid digest ⟨row, here, rfl, has⟩
    rcases evolves.source row here with ⟨old, there, uid, message⟩ | ⟨digest', held, has'⟩
    · left
      refine ⟨old, there, uid, ?_⟩
      rw [← message] at has
      exact ((genuine old there).hasDigest_iff evolves.kept digest).mp has
    · right
      rw [has.unique has']
      exact held
  · rintro uid digest digest' held ⟨row, there, rfl, -⟩
    obtain ⟨row', here, uid⟩ := evolves.keeps row there ⟨digest, held⟩
    obtain ⟨digest'', has⟩ := (evolves.genuine row' here).text
    exact ⟨digest'', row', here, uid, has⟩

theorem Mirrored.evolve {accountId mailboxId : Int} {now : UpstreamMailbox}
    {past : List UpstreamMailbox} {s s' : World}
    (mirrored : Mirrored lib accountId mailboxId s (now :: past))
    (evolves : Evolves lib mailboxId now s s') :
    Mirrored lib accountId mailboxId s' (now :: past) := by
  have checkpoint : s'.db.loadSyncState accountId (some mailboxId) =
      s.db.loadSyncState accountId (some mailboxId) := by
    rw [Db.loadSyncState, evolves.kept.states]
    rfl
  refine ⟨evolves.genuine, by rw [checkpoint]; exact mirrored.known, ?_⟩
  rw [checkpoint]
  intro now' past' split some field
  obtain ⟨rfl, rfl⟩ := List.cons.inj split
  exact evolves.tracks mirrored.genuine (mirrored.tracks now past rfl some field)

theorem Same.evolves {mailboxId : Int} {now : UpstreamMailbox} {s s' : World} (same : Same lib s s')
    (genuine : ∀ row, InMailbox s mailboxId row → Genuine lib s row) :
    Evolves lib mailboxId now s s' where
  kept := same.kept
  genuine row here := (genuine row ⟨same.rows ▸ here.1, here.2⟩).kept same.kept
  source row here := Or.inl ⟨row, ⟨same.rows ▸ here.1, here.2⟩, rfl, rfl⟩
  keeps row there _ := ⟨row, ⟨same.rows ▸ there.1, there.2⟩, rfl⟩

theorem Removed.evolves {mailboxId : Int} {uids : List Int} {now : UpstreamMailbox} {s s' : World}
    (removed : Removed lib mailboxId uids s s')
    (genuine : ∀ row, InMailbox s mailboxId row → Genuine lib s row)
    (gone : ∀ uid ∈ uids, ∀ digest, ¬ (now.snapshot lib.sha256).holds uid digest) :
    Evolves lib mailboxId now s s' where
  kept := removed.kept
  genuine row here := (genuine row ⟨((removed.rows row).mp here.1).1, here.2⟩).kept removed.kept
  source row here := Or.inl ⟨row, ⟨((removed.rows row).mp here.1).1, here.2⟩, rfl, rfl⟩
  keeps row there held := by
    refine ⟨row, ⟨(removed.rows row).mpr ⟨there.1, fun uid member => ?_⟩, there.2⟩, rfl⟩
    rw [← Bool.not_eq_true, Db.isLiveAt_iff]
    rintro ⟨-, rfl, -⟩
    exact gone _ member held.choose held.choose_spec

theorem Flagged.evolves {mailboxId localUid : Int} {flags : List String} {now : UpstreamMailbox}
    {s s' : World} (flagged : Flagged lib mailboxId localUid flags s s')
    (genuine : ∀ row, InMailbox s mailboxId row → Genuine lib s row)
    (normal : normalizeFlags flags = flags) : Evolves lib mailboxId now s s' := by
  obtain ⟨⟨modseq, rows⟩, kept⟩ := flagged
  refine ⟨kept, ?_, ?_, ?_⟩
  · rintro row ⟨member, mailbox⟩
    rcases (rows row).mp member with ⟨there, -⟩ | ⟨old, there, live, rfl⟩
    · exact (genuine row ⟨there, mailbox⟩).kept kept
    · have before := (genuine old ⟨there, mailbox⟩).kept kept
      exact ⟨before.upstreamUid, before.live, normal, before.text⟩
  · rintro row ⟨member, mailbox⟩
    left
    rcases (rows row).mp member with ⟨there, -⟩ | ⟨old, there, live, rfl⟩
    · exact ⟨row, ⟨there, mailbox⟩, rfl, rfl⟩
    · exact ⟨old, ⟨there, mailbox⟩, rfl, rfl⟩
  · rintro row ⟨there, mailbox⟩ -
    by_cases live : Db.isLiveAt mailboxId localUid row = true
    · exact ⟨_, ⟨(rows _).mpr (Or.inr ⟨row, there, live, rfl⟩), mailbox⟩, rfl⟩
    · exact ⟨row, ⟨(rows row).mpr (Or.inl ⟨there, by simpa using live⟩), mailbox⟩, rfl⟩

theorem Ingested.inMailbox {target : Ingest.Target} {raw : Bytes} {s s' : World}
    {row : Row MailboxMessage} (ingested : Ingested lib target raw s s' row) :
    InMailbox s' target.mailboxId row ∧ row.data.localUid = target.localUid ∧
      row.data.flags = target.flags ∧ ∀ other, other.data.localUid ≠ target.localUid →
        (InMailbox s' target.mailboxId other ↔ InMailbox s target.mailboxId other) := by
  have uid : row.data.localUid = target.localUid := by
    rw [ingested.data]
    rfl
  have mailbox : row.data.mailboxId = target.mailboxId := by
    rw [ingested.data]
    rfl
  refine ⟨⟨(ingested.rows row).mpr (Or.inl rfl), mailbox⟩, uid, by rw [ingested.data]; rfl, ?_⟩
  intro other different
  unfold InMailbox
  rw [ingested.rows other, uid]
  constructor
  · rintro ⟨rfl | ⟨there, -⟩, here⟩
    · exact absurd uid different
    · exact ⟨there, here⟩
  · exact fun ⟨there, here⟩ => ⟨Or.inr ⟨there, fun key => different key.2⟩, here⟩

theorem Ingested.evolves {target : Ingest.Target} {raw : Bytes} {now : UpstreamMailbox}
    {s s' : World} {row : Row MailboxMessage} (ingested : Ingested lib target raw s s' row)
    (genuine : ∀ row, InMailbox s target.mailboxId row → Genuine lib s row)
    (upstreamUid : target.upstreamUid = some target.localUid)
    (normal : normalizeFlags target.flags = target.flags)
    (held : (now.snapshot lib.sha256).holds target.localUid (lib.sha256 raw)) : Evolves lib target.mailboxId now s s' := by
  obtain ⟨here, uid, flags, others⟩ := ingested.inMailbox
  have new : Genuine lib s' row := by
    refine ⟨?_, by rw [ingested.data]; rfl, by rw [flags, normal], _, ingested.text⟩
    rw [uid, ← upstreamUid, ingested.data]
    rfl
  have single : ∀ other, InMailbox s' target.mailboxId other → other.data.localUid = target.localUid →
      other = row := fun other there same =>
    Db.mailboxMessage_unique there.1 here.1 (there.2.trans here.2.symm) (same.trans uid.symm)
  refine ⟨ingested.kept, fun other there => ?_, fun other there => ?_, fun other there _ => ?_⟩
  · by_cases same : other.data.localUid = target.localUid
    · rw [single other there same]
      exact new
    · exact (genuine other ((others other same).mp there)).kept ingested.kept
  · by_cases same : other.data.localUid = target.localUid
    · right
      rw [single other there same, uid]
      exact ⟨_, held, ingested.text⟩
    · exact Or.inl ⟨other, (others other same).mp there, rfl, rfl⟩
  · by_cases same : other.data.localUid = target.localUid
    · exact ⟨row, here, uid.trans same.symm⟩
    · exact ⟨other, (others other same).mpr there, rfl⟩

end Sync
end ImapCache
