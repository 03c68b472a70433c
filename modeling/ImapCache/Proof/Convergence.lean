import ImapCache.Model.Sample
import ImapCache.Proof.MailboxMirror

/-!
# Convergence of a mailbox

Runs of `syncMailboxInner`, complete or cut off by an error at any call, keep the mirror in step with the
checkpoint, and a run that returns leaves an exact copy of the upstream mailbox.
-/

namespace ImapCache
namespace Sync
open Lib Prog

variable {lib : Libraries}

/-! ## One upstream UID -/

/-- A run between its selection of the mailbox and its checkpoint. -/
structure Running (lib : Libraries) (context : SyncContext) (now : UpstreamMailbox)
    (past : List UpstreamMailbox) (checkpoint : Option (Row SyncState)) (s : World) : Prop where
  genuine : ∀ row, InMailbox s context.mailboxId row → Genuine lib s row
  tracks : Snapshot.Tracks (now.snapshot lib.sha256) (past.map (·.snapshot lib.sha256)) (copies lib context.mailboxId s)
    context.lastUid
  selected : s.upstream.selected (s.sessions context.connection) = .ok (context.mailboxName, now)
  checkpoint : s.db.loadSyncState context.accountId (some context.mailboxId) = checkpoint

section Run
variable {context : SyncContext} {now : UpstreamMailbox} {past : List UpstreamMailbox}
  {checkpoint : Option (Row SyncState)} {s s' : World}

theorem Running.evolve (running : Running lib context now past checkpoint s)
    (evolves : Evolves lib context.mailboxId now s s') :
    Running lib context now past checkpoint s' where
  genuine := evolves.genuine
  tracks := evolves.tracks running.genuine running.tracks
  selected := by
    rw [evolves.kept.upstream, evolves.kept.sessions]
    exact running.selected
  checkpoint := by
    rw [← running.checkpoint, Db.loadSyncState, evolves.kept.states]
    rfl

theorem Running.mirrored (running : Running lib context now past checkpoint s)
    (known : ∀ uidvalidity, checkpointField checkpoint "uidvalidity" = some uidvalidity →
      ∃ p ∈ now :: past, p.info.uidvalidity = some uidvalidity)
    (last : context.lastUid = effectiveLastUid now.info checkpoint) :
    Mirrored lib context.accountId context.mailboxId s (now :: past) where
  genuine := running.genuine
  known := by
    rw [running.checkpoint]
    exact known
  tracks := by
    intro now' past' split some field
    obtain ⟨rfl, rfl⟩ := List.cons.inj split
    rw [running.checkpoint] at field ⊢
    have unchanged : uidvalidityChanged now.info checkpoint = false := by
      simp [uidvalidityChanged, field]
    have tracks := running.tracks
    rw [last, effectiveLastUid, unchanged] at tracks
    exact tracks

theorem mem_of_localByUpstreamUid {localMessages : List (Row MailboxMessage)} {uid : Int}
    {row : Row MailboxMessage} (found : localByUpstreamUid localMessages uid = some row) :
    row ∈ localMessages ∧ row.data.upstreamUid = some uid := by
  unfold localByUpstreamUid at found
  exact ⟨List.mem_reverse.mp (List.mem_of_find?_eq_some found), by simpa using List.find?_some found⟩

theorem localByUpstreamUid_none {localMessages : List (Row MailboxMessage)} {uid : Int}
    (none : localByUpstreamUid localMessages uid = none) :
    ∀ row ∈ localMessages, row.data.upstreamUid ≠ some uid := by
  unfold localByUpstreamUid at none
  simpa using none

/-- The rows that a run has listed are still those of the mailbox with that UID. -/
def Listed (context : SyncContext) (s : World) (uid : Int) : Prop :=
  ∀ row, row.data.localUid = uid → (InMailbox s context.mailboxId row ↔ row ∈ context.localMessages)

/-- There is a row for the message, with the flags it has upstream, and no other row has changed. -/
structure Settled (mailboxId : Int) (message : UpstreamMessage) (s s' : World) : Prop where
  others : ∀ row, row.data.localUid ≠ (message.uid : Int) →
    (InMailbox s' mailboxId row ↔ InMailbox s mailboxId row)
  here : ∃ row, InMailbox s' mailboxId row ∧ row.data.localUid = message.uid ∧
    row.data.flags = normalizeFlags message.flags

/-- The row is what a sync makes of the upstream message. -/
structure CopyOf (lib : Libraries) (world : World) (message : UpstreamMessage)
    (row : Row MailboxMessage) : Prop where
  localUid : row.data.localUid = message.uid
  upstreamUid : row.data.upstreamUid = some (message.uid : Int)
  flags : row.data.flags = normalizeFlags message.flags
  text : HasDigest lib world row.data.messageId (lib.sha256 message.body)

/-- Every message of the upstream mailbox has a row. -/
def Complete (lib : Libraries) (mailboxId : Int) (now : UpstreamMailbox) (s : World) : Prop :=
  ∀ message ∈ now.messages, ∃ row, InMailbox s mailboxId row ∧ CopyOf lib s message row

theorem Same.complete {mailboxId : Int} (same : Same lib s s')
    (complete : Complete lib mailboxId now s) :
    Complete lib mailboxId now s' := by
  intro message member
  obtain ⟨row, here, copy⟩ := complete message member
  exact ⟨row, ⟨same.rows ▸ here.1, here.2⟩, copy.localUid, copy.upstreamUid, copy.flags,
    same.kept.texts copy.text⟩

theorem Removed.complete {mailboxId : Int} {uids : List Int} (removed : Removed lib mailboxId uids s s')
    (gone : ∀ uid ∈ uids, ∀ digest, ¬ (now.snapshot lib.sha256).holds uid digest)
    (complete : Complete lib mailboxId now s) : Complete lib mailboxId now s' := by
  intro message member
  obtain ⟨row, here, copy⟩ := complete message member
  refine ⟨row, ⟨(removed.rows row).mpr ⟨here.1, fun uid uidMember => ?_⟩, here.2⟩, copy.localUid,
    copy.upstreamUid, copy.flags, removed.kept.texts copy.text⟩
  rw [← Bool.not_eq_true, Db.isLiveAt_iff]
  rintro ⟨-, rfl, -⟩
  exact gone _ uidMember _ ⟨message, member, copy.localUid.symm, rfl⟩

theorem i64OfU64_some {n : Nat} {x : Int} : i64OfU64 n = some x ↔ (n : Int) ≤ i64Max ∧ (n : Int) = x := by
  unfold i64OfU64
  split <;> simp_all

section Steps

theorem reconcileFlags_ensures {uid : Int} {flags : List String}
    (genuine : ∀ row, InMailbox s context.mailboxId row → Genuine lib s row)
    (listed : Listed context s uid)
    (mapped : ∀ row ∈ context.localMessages, row.data.upstreamUid = some row.data.localUid)
    (normal : normalizeFlags flags = flags) :
    (reconcileFlags context uid flags).Ensures (cacheHandler lib) (anyFault Error)
      (fun _ s' => Evolves lib context.mailboxId now s s' ∧
        (∀ row, row.data.localUid ≠ uid →
          (InMailbox s' context.mailboxId row ↔ InMailbox s context.mailboxId row)) ∧
        ∀ row, InMailbox s' context.mailboxId row → row.data.localUid = uid → row.data.flags = flags)
      (fun _ s' => Evolves lib context.mailboxId now s s') s := by
  unfold reconcileFlags
  split
  · rename_i localMessage found
    obtain ⟨member, upstreamUid⟩ := mem_of_localByUpstreamUid found
    have uid' : localMessage.data.localUid = uid := by
      rw [mapped localMessage member] at upstreamUid
      exact Option.some.inj upstreamUid
    split
    · rw [bind_eq, ensures_bind, uid']
      refine (updateMailboxMessageFlags_ensures context.mailboxId uid flags s).mono ?_ ?_
      · intro _ s' flagged
        refine ⟨flagged.evolves genuine normal, fun row different => ?_, fun row here same => ?_⟩
        · obtain ⟨⟨modseq, rows⟩, -⟩ := flagged
          have dead : Db.isLiveAt context.mailboxId uid row = false := by
            rw [← Bool.not_eq_true, Db.isLiveAt_iff]
            exact fun live => different live.2.1
          unfold InMailbox
          rw [rows row]
          constructor
          · rintro ⟨⟨there, -⟩ | ⟨old, there, live, rfl⟩, mailbox⟩
            · exact ⟨there, mailbox⟩
            · exact absurd (Db.isLiveAt_iff.mp live).2.1 different
          · exact fun ⟨there, mailbox⟩ => ⟨Or.inl ⟨there, dead⟩, mailbox⟩
        · obtain ⟨⟨modseq, rows⟩, -⟩ := flagged
          rcases (rows row).mp here.1 with ⟨there, dead⟩ | ⟨old, there, live, rfl⟩
          · have live := Db.isLiveAt_iff.mpr ⟨here.2, same, (genuine row ⟨there, here.2⟩).live⟩
            rw [dead] at live
            cases live
          · rfl
      · rintro _ s' (same | flagged)
        · exact same.evolves genuine
        · exact flagged.evolves genuine normal
    · rename_i equal
      have here := (listed localMessage uid').mpr member
      refine ⟨(Same.refl s).evolves genuine, fun _ _ => Iff.rfl, fun row there same => ?_⟩
      rw [Db.mailboxMessage_unique there.1 here.1 (there.2.trans here.2.symm) (same.trans uid'.symm),
        ← (genuine localMessage here).flags]
      simpa using equal
  · rename_i none
    refine ⟨(Same.refl s).evolves genuine, fun _ _ => Iff.rfl, fun row here same => ?_⟩
    have member := (listed row same).mp here
    exact absurd ((mapped row member).trans (congrArg some same)) (localByUpstreamUid_none none row member)

theorem fetch_perform (running : Running lib context now past checkpoint s) {message : UpstreamMessage}
    (member : message ∈ now.messages) :
    s.perform lib (.uidFetchFlags context.connection message.uid) = (.ok message.flags, s) ∧
      s.perform lib (.uidFetchRfc822 context.connection message.uid) = (.ok message.body, s) := by
  have found := UpstreamMailbox.find_of_mem member
  simp only [World.perform, Upstream.uidFetchFlags, Upstream.uidFetchRfc822, running.selected,
    Bind.bind, Except.bind, found]
  exact ⟨rfl, rfl⟩

theorem syncUid_ensures {message : UpstreamMessage} {progress : Nat × Option Int}
    (known : ∀ uidvalidity, checkpointField checkpoint "uidvalidity" = some uidvalidity →
      ∃ p ∈ now :: past, p.info.uidvalidity = some uidvalidity)
    (last : context.lastUid = effectiveLastUid now.info checkpoint)
    (running : Running lib context now past checkpoint s) (member : message ∈ now.messages)
    (listed : Listed context s message.uid)
    (mapped : ∀ row ∈ context.localMessages, row.data.upstreamUid = some row.data.localUid) :
    (syncUid lib context progress message.uid).Ensures (cacheHandler lib) (anyFault Error)
      (fun progress' s' => Running lib context now past checkpoint s' ∧
        Settled context.mailboxId message s s' ∧ (message.uid : Int) ≤ i64Max ∧
        (progress'.2 = progress.2 ∨ progress'.2 = some (message.uid : Int)))
      (fun _ s' => Mirrored lib context.accountId context.mailboxId s' (now :: past)) s := by
  have cutOff : ∀ {s'}, Evolves lib context.mailboxId now s s' →
      Mirrored lib context.accountId context.mailboxId s' (now :: past) :=
    fun evolves => (running.evolve evolves).mirrored known last
  have stays : Evolves lib context.mailboxId now s s := (Same.refl s).evolves running.genuine
  have held : (now.snapshot lib.sha256).holds message.uid (lib.sha256 message.body) := ⟨message, member, rfl, rfl⟩
  have positive := (now.snapshot lib.sha256).positive held
  unfold syncUid
  rw [bind_eq, ensures_bind]
  apply ensures_orThrow
  · intro uidI64 converted
    obtain ⟨le, rfl⟩ := i64OfU64_some.mp converted
    rw [bind_eq, ensures_bind]
    refine (ask_ensures (by simp [neutral, Op.writes]) s).mono ?_
      fun _ s' same => cutOff (same.evolves running.genuine)
    rintro flags s₁ ⟨-, fetched⟩
    rw [(fetch_perform running member).1] at fetched
    cases fetched
    dsimp only
    rw [bind_eq, ensures_bind]
    refine (reconcileFlags_ensures running.genuine listed mapped
      (normalizeFlags_idem message.flags)).mono ?_ fun _ s' evolves => cutOff evolves
    rintro _ s₁ ⟨evolves, others, flagged⟩
    have running₁ := running.evolve evolves
    split
    · -- the checkpoint covers the UID, so there was a row already
      rename_i covered
      obtain ⟨-, row, here, uid, -⟩ := running₁.tracks.covers _ _ held covered
      exact ⟨running₁, ⟨others, row, here, uid, flagged row here uid⟩, le, Or.inl rfl⟩
    · rw [bind_eq, ensures_bind]
      refine (ask_ensures (by simp [neutral, Op.writes]) s₁).mono ?_
        fun _ s' same => (running₁.evolve (same.evolves running₁.genuine)).mirrored known last
      rintro raw s₂ ⟨-, fetched⟩
      rw [(fetch_perform running₁ member).2] at fetched
      cases fetched
      rw [bind_eq, ensures_bind]
      have advance : ∀ {s₂}, (∃ row, Ingested lib
          (syncTarget context message.uid (normalizeFlags message.flags)) message.body s₁ s₂ row) →
          Evolves lib context.mailboxId now s₁ s₂ := by
        rintro s₂ ⟨row, ingested⟩
        exact ingested.evolves running₁.genuine rfl (normalizeFlags_idem message.flags) held
      refine (ingestRawMessage_ensures message.body ?_ s₁).mono ?_ ?_
      · simp only [syncTarget]
        omega
      · rintro _ s₂ ⟨row, ingested⟩
        obtain ⟨here, uid, flags, others'⟩ := ingested.inMailbox
        refine ⟨running₁.evolve (advance ⟨row, ingested⟩), ⟨fun other different => ?_, row, here, uid, flags⟩,
          le, Or.inr rfl⟩
        exact (others' other different).trans (others other different)
      · rintro _ s₂ (same | ingested)
        · exact (running₁.evolve (same.evolves running₁.genuine)).mirrored known last
        · exact (running₁.evolve (advance ingested)).mirrored known last
  · exact fun _ => cutOff stays

theorem syncUids_ensures
    (known : ∀ uidvalidity, checkpointField checkpoint "uidvalidity" = some uidvalidity →
      ∃ p ∈ now :: past, p.info.uidvalidity = some uidvalidity)
    (last : context.lastUid = effectiveLastUid now.info checkpoint)
    (succeeds : Snapshot.Succeeds (past.map (·.snapshot lib.sha256)) (now.snapshot lib.sha256))
    (running : Running lib context now past checkpoint s)
    (listed : ∀ row, InMailbox s context.mailboxId row ↔ row ∈ context.localMessages) :
    ((now.messages.map (·.uid)).foldlM (syncUid lib context) (0, none)).Ensures (cacheHandler lib)
      (anyFault Error)
      (fun progress s' => Running lib context now past checkpoint s' ∧
        Complete lib context.mailboxId now s' ∧ (∀ message ∈ now.messages, (message.uid : Int) ≤ i64Max) ∧
        (progress.2 = none ∨ ∃ message ∈ now.messages, progress.2 = some (message.uid : Int)))
      (fun _ s' => Mirrored lib context.accountId context.mailboxId s' (now :: past)) s := by
  have mapped : ∀ row ∈ context.localMessages, row.data.upstreamUid = some row.data.localUid :=
    fun row member => (running.genuine row ((listed row).mpr member)).upstreamUid
  refine (ensures_foldlM (fun done _ progress s' => Running lib context now past checkpoint s' ∧
    (∀ message ∈ now.messages, message.uid ∈ done → (message.uid : Int) ≤ i64Max ∧
      ∃ row, InMailbox s' context.mailboxId row ∧ row.data.localUid = message.uid ∧
        row.data.flags = normalizeFlags message.flags) ∧
    (∀ row : Row MailboxMessage, (∀ uid ∈ done, row.data.localUid ≠ (uid : Int)) →
      (InMailbox s' context.mailboxId row ↔ row ∈ context.localMessages)) ∧
    (progress.2 = none ∨ ∃ message ∈ now.messages, progress.2 = some (message.uid : Int)))
    ?_ ?_).mono ?_ fun _ _ => id
  · exact ⟨running, by simp, fun row _ => listed row, Or.inl rfl⟩
  · rintro done uid rest progress s₁ split ⟨running₁, settled, unseen, newest⟩
    obtain ⟨message, member, rfl⟩ : ∃ message ∈ now.messages, message.uid = uid := by
      have member : uid ∈ now.messages.map (·.uid) := by
        rw [split]
        simp
      exact List.mem_map.mp member
    have fresh : message.uid ∉ done := by
      have distinct := now.distinct
      rw [split, List.nodup_append] at distinct
      exact fun again => distinct.2.2 _ again _ (List.mem_cons_self ..) rfl
    have here : Listed context s₁ message.uid := by
      intro row same
      apply unseen
      intro uid again eq
      have repeated : message.uid = uid := by
        rw [same] at eq
        exact_mod_cast eq
      exact fresh (repeated ▸ again)
    refine (syncUid_ensures known last running₁ member here mapped).mono ?_ fun _ _ => id
    rintro progress' s₂ ⟨running₂, ⟨others, row, rowHere, rowUid, rowFlags⟩, le, newest'⟩
    refine ⟨running₂, fun other otherMember seen => ?_, fun other apart => ?_, ?_⟩
    · by_cases same : other.uid = message.uid
      · rw [UpstreamMailbox.eq_of_uid otherMember member same]
        exact ⟨le, row, rowHere, rowUid, rowFlags⟩
      · have earlier : other.uid ∈ done := by simpa [same] using seen
        obtain ⟨otherLe, otherRow, otherHere, otherUid, otherFlags⟩ := settled other otherMember earlier
        refine ⟨otherLe, otherRow, (others otherRow ?_).mpr otherHere, otherUid, otherFlags⟩
        rw [otherUid]
        exact_mod_cast same
    · rw [others other (apart _ (by simp))]
      exact unseen other fun uid again => apart uid (by simp [again])
    · rcases newest' with same | new
      · rw [same]
        exact newest
      · exact Or.inr ⟨message, member, new⟩
  · rintro progress s' ⟨running', settled, -, newest⟩
    have all : ∀ message ∈ now.messages, message.uid ∈ now.messages.map (·.uid) :=
      fun message member => List.mem_map_of_mem member
    refine ⟨running', fun message member => ?_,
      fun message member => (settled message member (all message member)).1, newest⟩
    obtain ⟨-, row, here, uid, flags⟩ := settled message member (all message member)
    obtain ⟨digest, has⟩ := (running'.genuine row here).text
    have exact : digest = lib.sha256 message.body := running'.tracks.exact succeeds (now.snapshot_distinct lib.sha256)
      ⟨row, here, uid, has⟩ ⟨message, member, rfl, rfl⟩
    refine ⟨row, here, uid, ?_, flags, exact ▸ has⟩
    rw [(running'.genuine row here).upstreamUid, uid]

/-! ## The phases of a run -/

theorem clearSyncedMailboxMessages_ensures {mailboxId : Int}
    (genuine : ∀ row, InMailbox s mailboxId row → Genuine lib s row) :
    (clearSyncedMailboxMessages mailboxId).Ensures (cacheHandler lib) (anyFault Error)
      (fun _ s' => Kept lib s s' ∧ ∀ row, ¬ InMailbox s' mailboxId row)
      (fun _ s' => ∃ uids, Removed lib mailboxId uids s s') s := by
  unfold clearSyncedMailboxMessages
  rw [bind_eq, ensures_bind]
  refine (ask_ensures (by simp [neutral, Op.writes]) s).mono ?_
    fun _ _ same => ⟨[], same.removed mailboxId⟩
  rintro messages s₁ ⟨-, listed⟩
  cases listed
  refine (deleteEach_ensures mailboxId _ s).mono ?_ ?_
  · intro _ s' removed
    refine ⟨removed.kept, fun row here => ?_⟩
    obtain ⟨there, dead⟩ := (removed.rows row).mp here.1
    have before := genuine row ⟨there, here.2⟩
    have member : row ∈ (s.db.listMailboxMessages mailboxId).filter fun message =>
        message.data.upstreamUid.isSome := by
      rw [List.mem_filter, Db.mem_listMailboxMessages, Db.mem_liveMessages, before.upstreamUid]
      exact ⟨⟨there, here.2, before.live⟩, rfl⟩
    have live := dead row.data.localUid (List.mem_map_of_mem (f := (·.data.localUid)) member)
    rw [Db.isLiveAt_iff.mpr ⟨here.2, rfl, before.live⟩] at live
    cases live
  · rintro _ s' ⟨part, -, removed⟩
    exact ⟨_, removed⟩

theorem mem_upstreamUidSet (fits : ∀ message ∈ now.messages, (message.uid : Int) ≤ i64Max) (uid : Int) :
    uid ∈ (now.messages.map (·.uid)).filterMap i64OfU64 ↔ ∃ message ∈ now.messages, uid = message.uid := by
  simp only [List.mem_filterMap, List.mem_map, i64OfU64_some]
  constructor
  · rintro ⟨_, ⟨message, member, rfl⟩, -, rfl⟩
    exact ⟨message, member, rfl⟩
  · rintro ⟨message, member, rfl⟩
    exact ⟨_, ⟨message, member, rfl⟩, fits message member, rfl⟩

/-- The last deletions take away the rows of messages that are no longer upstream, and no others. -/
theorem reconcile_ensures {mailboxId : Int} {upstreamUids : List Int}
    (genuine : ∀ row, InMailbox s mailboxId row → Genuine lib s row)
    (set : ∀ uid, uid ∈ upstreamUids ↔ ∃ message ∈ now.messages, uid = message.uid) :
    (reconcileMissingUpstreamMessagesWithSet mailboxId upstreamUids).Ensures (cacheHandler lib)
      (anyFault Error)
      (fun _ s' => (∃ uids, (∀ uid ∈ uids, ∀ digest, ¬ (now.snapshot lib.sha256).holds uid digest) ∧
          Removed lib mailboxId uids s s') ∧
        ∀ row, InMailbox s' mailboxId row → ∃ message ∈ now.messages, row.data.localUid = message.uid)
      (fun _ s' => ∃ uids, (∀ uid ∈ uids, ∀ digest, ¬ (now.snapshot lib.sha256).holds uid digest) ∧
        Removed lib mailboxId uids s s') s := by
  unfold reconcileMissingUpstreamMessagesWithSet
  rw [bind_eq, ensures_bind]
  refine (ask_ensures (by simp [neutral, Op.writes]) s).mono ?_
    fun _ _ same => ⟨[], by simp, same.removed mailboxId⟩
  rintro messages s₁ ⟨-, answered⟩
  cases answered
  have missing : ∀ row, row ∈ (s.db.listMailboxMessages mailboxId).filter (fun message =>
      message.data.upstreamUid.any fun uid => !upstreamUids.contains uid) ↔
      InMailbox s mailboxId row ∧ row.data.localUid ∉ upstreamUids := by
    intro row
    rw [List.mem_filter, Db.mem_listMailboxMessages, Db.mem_liveMessages, InMailbox]
    constructor
    · rintro ⟨⟨there, mailbox, -⟩, absent⟩
      rw [(genuine row ⟨there, mailbox⟩).upstreamUid] at absent
      exact ⟨⟨there, mailbox⟩, by simpa using absent⟩
    · rintro ⟨there, absent⟩
      have before := genuine row there
      rw [before.upstreamUid]
      exact ⟨⟨there.1, there.2, before.live⟩, by simpa using absent⟩
  have gone : ∀ part ⊆ (s.db.listMailboxMessages mailboxId).filter (fun message =>
      message.data.upstreamUid.any fun uid => !upstreamUids.contains uid),
      ∀ uid ∈ part.map (·.data.localUid), ∀ digest, ¬ (now.snapshot lib.sha256).holds uid digest := by
    rintro part sub uid member digest ⟨message, held, same, -⟩
    obtain ⟨row, inPart, rfl⟩ := List.mem_map.mp member
    exact ((missing row).mp (sub inPart)).2 ((set row.data.localUid).mpr ⟨message, held, same.symm⟩)
  refine (deleteEach_ensures mailboxId _ s).mono ?_ ?_
  · intro _ s' removed
    refine ⟨⟨_, gone _ (List.Subset.refl _), removed⟩, fun row here => ?_⟩
    obtain ⟨there, dead⟩ := (removed.rows row).mp here.1
    rw [← set]
    by_contra absent
    have member := (missing row).mpr ⟨⟨there, here.2⟩, absent⟩
    have live := dead row.data.localUid (List.mem_map_of_mem (f := (·.data.localUid)) member)
    rw [Db.isLiveAt_iff.mpr ⟨here.2, rfl, (genuine row ⟨there, here.2⟩).live⟩] at live
    cases live
  · rintro _ s' ⟨part, sub, removed⟩
    exact ⟨_, gone part sub, removed⟩

theorem asI64_num (value : Int) : (Json.num value).asI64 = some value ∨ (Json.num value).asI64 = none := by
  simp only [Json.asI64]
  split
  · exact Or.inl rfl
  · exact Or.inr rfl

theorem checkpointField_checkpointJson {row : Row SyncState} {mailboxName : String}
    {selection : SelectedMailboxInfo} {lastUid : Int}
    (data : row.data.stateJson = checkpointJson mailboxName selection lastUid) :
    checkpointField (some row) "uidvalidity" = selection.uidvalidity.bind (fun v => (Json.num v).asI64) ∧
      checkpointField (some row) "last_uid" = (Json.num lastUid).asI64 := by
  simp only [checkpointField, Option.bind_some, data, checkpointJson, Json.get]
  refine ⟨?_, rfl⟩
  cases selection.uidvalidity <;> rfl

theorem putSyncState_mirrored
    (known : ∀ uidvalidity, checkpointField checkpoint "uidvalidity" = some uidvalidity →
      ∃ p ∈ now :: past, p.info.uidvalidity = some uidvalidity)
    (last : context.lastUid = effectiveLastUid now.info checkpoint)
    (running : Running lib context now past checkpoint s)
    (complete : Complete lib context.mailboxId now s) {newestUid : Option Int}
    (newest : newestUid = none ∨ ∃ message ∈ now.messages, newestUid = some (message.uid : Int)) :
    Mirrored lib context.accountId context.mailboxId (s.perform lib (.putSyncState
        { accountId := context.accountId, mailboxId := some context.mailboxId
          stateJson := checkpointJson context.mailboxName now.info (newestUid.getD context.lastUid) })).2
      (now :: past) := by
  cases result : s.db.putSyncState { accountId := context.accountId, mailboxId := some context.mailboxId
                                     stateJson := checkpointJson context.mailboxName now.info
                                       (newestUid.getD context.lastUid) } with
  | error failure =>
      rw [World.perform, World.commit_of_error result]
      exact running.mirrored known last
  | ok written =>
      obtain ⟨_, db⟩ := written
      rw [World.perform, World.commit_of_ok result]
      obtain ⟨syncStates, rfl, row, data, rows⟩ := Db.putSyncState_ok result
      have loaded : Db.loadSyncState { s.db with syncStates } context.accountId
          (some context.mailboxId) = some row := by
        rw [Db.loadSyncState_some, data]
        exact ⟨(rows row).mpr (Or.inl rfl), rfl, rfl⟩
      have json : row.data.stateJson = checkpointJson context.mailboxName now.info
          (newestUid.getD context.lastUid) := by rw [data]
      obtain ⟨uidvalidity, lastUid⟩ := checkpointField_checkpointJson json
      refine ⟨fun row here => ?_, fun v field => ?_, fun now' past' split some field => ?_⟩
      · obtain ⟨upstreamUid, live, flags, digest⟩ := running.genuine row here
        exact ⟨upstreamUid, live, flags, digest.imp fun _ => (hasDigest_congr rfl rfl).mpr⟩
      · dsimp only at field
        rw [loaded, uidvalidity, Option.bind_eq_some_iff] at field
        obtain ⟨v', reported, asI64⟩ := field
        refine ⟨now, List.mem_cons_self .., ?_⟩
        rcases asI64_num v' with eq | eq
        · rw [← asI64, eq]
          exact reported
        · simp [eq] at asI64
      · obtain ⟨rfl, rfl⟩ := List.cons.inj split
        dsimp only
        rw [loaded, lastUid]
        have same : copies lib context.mailboxId { s with db := { s.db with syncStates } } =
            copies lib context.mailboxId s := by
          funext uid digest
          have digests (messageId : Int) :
              HasDigest lib { s with db := { s.db with syncStates } } messageId digest ↔
                HasDigest lib s messageId digest :=
            hasDigest_congr rfl rfl
          simp only [copies, digests]
          rfl
        rw [same]
        apply running.tracks.complete
        · rintro uid digest ⟨message, member, rfl, -⟩
          obtain ⟨row, here, copy⟩ := complete message member
          exact ⟨_, row, here, copy.localUid, copy.text⟩
        · rcases asI64_num (newestUid.getD context.lastUid) with eq | eq
          · right
            rw [eq]
            rcases newest with rfl | ⟨message, member, rfl⟩
            · exact Or.inl rfl
            · exact Or.inr ⟨_, message, member, rfl, rfl⟩
          · left
            simp [eq]

theorem putSyncState_complete {mailboxId : Int} {input : SyncState}
    (written : s.perform lib (.putSyncState input) = (.ok (), s')) (complete : Complete lib mailboxId now s) :
    Complete lib mailboxId now s' := by
  have frame : ∀ k, k ∉ (Op.putSyncState input).writes → s'.component k = s.component k := by
    intro k untouched
    have same := World.perform_frame lib s (.putSyncState input) k untouched
    rw [written] at same
    exact same
  have rows : s'.db.mailboxMessages = s.db.mailboxMessages := frame .mailboxMessages (by simp [Op.writes])
  have messages : s'.db.messages = s.db.messages := frame .messages (by simp [Op.writes])
  have blobs : s'.blobs = s.blobs := frame .blobs (by simp [Op.writes])
  intro message member
  obtain ⟨row, here, copy⟩ := complete message member
  exact ⟨row, ⟨rows ▸ here.1, here.2⟩, copy.localUid, copy.upstreamUid, copy.flags,
    (hasDigest_congr messages blobs).mpr copy.text⟩

/-- The first steps: the mailbox is selected, and cleared when its UIDVALIDITY is a new one. -/
theorem prepare_ensures (context : SyncContext) {mailboxId : Int} (reports : now.info.uidvalidity.isSome)
    (mirrored : Mirrored lib context.accountId context.mailboxId s (now :: past))
    (selected : s.upstream.selected (s.sessions context.connection) = .ok (context.mailboxName, now))
    (same : context.mailboxId = mailboxId)
    (loaded : s.db.loadSyncState context.accountId (some context.mailboxId) = checkpoint)
    (last : context.lastUid = effectiveLastUid now.info checkpoint) :
    (onlyIf (uidvalidityChanged now.info checkpoint)
        (clearSyncedMailboxMessages mailboxId)).Ensures (cacheHandler lib) (anyFault Error)
      (fun _ => Running lib context now past checkpoint)
      (fun _ s' => Mirrored lib context.accountId context.mailboxId s' (now :: past)) s := by
  subst same
  cases changed : uidvalidityChanged now.info checkpoint with
  | false =>
      refine ⟨mirrored.genuine, ?_, selected, loaded⟩
      rw [last, effectiveLastUid, changed, ← loaded]
      apply mirrored.tracks now past rfl reports
      simpa [uidvalidityChanged, reports, loaded] using changed
  | true =>
      have other : checkpointField checkpoint "uidvalidity" ≠ now.info.uidvalidity := by
        simp only [uidvalidityChanged, Bool.and_eq_true, bne_iff_ne] at changed
        exact changed.2
      refine (clearSyncedMailboxMessages_ensures mirrored.genuine).mono ?_ ?_
      · rintro _ s' ⟨kept, empty⟩
        refine ⟨fun row here => absurd here (empty row), ?_, ?_, ?_⟩
        · rw [last, effectiveLastUid, changed]
          exact Snapshot.Tracks.initial fun uid digest ⟨row, here, _⟩ => empty row here
        · rw [kept.upstream, kept.sessions]
          exact selected
        · rw [← loaded, Db.loadSyncState, kept.states]
          rfl
      · rintro _ s' ⟨uids, removed⟩
        have loaded' : s'.db.loadSyncState context.accountId (some context.mailboxId) = checkpoint := by
          rw [← loaded, Db.loadSyncState, removed.kept.states]
          rfl
        refine ⟨fun row here => ?_, ?_, fun now' past' split some field => ?_⟩
        · exact (mirrored.genuine row ⟨((removed.rows row).mp here.1).1, here.2⟩).kept removed.kept
        · rw [loaded', ← loaded]
          exact mirrored.known
        · obtain ⟨rfl, rfl⟩ := List.cons.inj split
          rw [loaded'] at field
          exact absurd field other

theorem finish_ensures {mailboxId : Int} {upstreamUids : List Int} (messagesSynced : Nat)
    {accountId : Int} (set : ∀ uid, uid ∈ upstreamUids ↔ ∃ message ∈ now.messages, uid = message.uid)
    (mirrored : Mirrored lib accountId mailboxId s (now :: past))
    (complete : Complete lib mailboxId now s) :
    (do
      reconcileMissingUpstreamMessagesWithSet mailboxId upstreamUids
      Repository.refreshMailboxCounts mailboxId
      pure messagesSynced : Action Nat).Ensures (cacheHandler lib) (anyFault Error)
      (fun _ s' => Mirrored lib accountId mailboxId s' (now :: past) ∧ Complete lib mailboxId now s' ∧
        ∀ row, InMailbox s' mailboxId row → ∃ message ∈ now.messages, row.data.localUid = message.uid)
      (fun _ s' => Mirrored lib accountId mailboxId s' (now :: past)) s := by
  rw [bind_eq, ensures_bind]
  refine (reconcile_ensures mirrored.genuine set).mono ?_ ?_
  · rintro _ s₁ ⟨⟨uids, gone, removed⟩, only⟩
    have mirrored₁ := mirrored.evolve (removed.evolves mirrored.genuine gone)
    have complete₁ := removed.complete gone complete
    refine ensures_same_bind (Repository.refreshMailboxCounts_uses (fun _ => neutral_of_bookkeeping)
      (by simp [neutral, Op.writes])) ?_ ?_
    · intro _ s₂ same
      refine ⟨mirrored₁.evolve (same.evolves mirrored₁.genuine), same.complete complete₁, ?_⟩
      exact fun row here => only row ⟨same.rows ▸ here.1, here.2⟩
    · exact fun _ s₂ same => mirrored₁.evolve (same.evolves mirrored₁.genuine)
  · rintro _ s₁ ⟨uids, gone, removed⟩
    exact mirrored.evolve (removed.evolves mirrored.genuine gone)

/-- The steps from the checkpoint on. -/
theorem record_ensures {accountId mailboxId : Int} {upstreamUids : List Int} {input : SyncState} (messagesSynced : Nat)
    (set : ∀ uid, uid ∈ upstreamUids ↔ ∃ message ∈ now.messages, uid = message.uid)
    (mirrored : Mirrored lib accountId mailboxId s (now :: past)) (complete : Complete lib mailboxId now s)
    (put : Mirrored lib accountId mailboxId (s.perform lib (.putSyncState input)).2 (now :: past)) :
    (do
      ofExcept (validateCheckpoint accountId)
      await (.putSyncState input)
      await (.updateMailboxSyncMetadata mailboxId now.info)
      reconcileMissingUpstreamMessagesWithSet mailboxId upstreamUids
      Repository.refreshMailboxCounts mailboxId
      pure messagesSynced : Action Nat).Ensures (cacheHandler lib) (anyFault Error)
      (fun _ s' => Mirrored lib accountId mailboxId s' (now :: past) ∧ Complete lib mailboxId now s' ∧
        ∀ row, InMailbox s' mailboxId row → ∃ message ∈ now.messages, row.data.localUid = message.uid)
      (fun _ s' => Mirrored lib accountId mailboxId s' (now :: past)) s := by
  rw [bind_eq, ensures_bind]
  refine ensures_ofExcept (fun _ _ => ?_) fun _ _ => mirrored
  rw [bind_eq, ensures_bind]
  refine (await_ensures (.putSyncState input) s).mono ?_ ?_
  · intro _ s₁ written
    have complete₁ : Complete lib mailboxId now s₁ := putSyncState_complete written complete
    rw [written] at put
    have quiet : neutral (.updateMailboxSyncMetadata mailboxId now.info) := by
      simp [neutral, Op.writes]
    rw [bind_eq, ensures_bind]
    refine (ask_ensures quiet s₁).mono ?_ fun _ _ same => put.evolve (same.evolves put.genuine)
    rintro _ s₂ ⟨same, -⟩
    exact finish_ensures messagesSynced set (put.evolve (same.evolves put.genuine)) (same.complete complete₁)
  · rintro _ _ (rfl | rfl)
    · exact mirrored
    · exact put

/-- The steps on the selected mailbox. -/
theorem fetch_ensures {accountId : Int} {mailboxName : String} {mailbox : Row Mailbox} {connection : Nat}
    {lastUid : Int} (succeeds : Snapshot.Succeeds (past.map (·.snapshot lib.sha256)) (now.snapshot lib.sha256))
    (known : ∀ uidvalidity, checkpointField checkpoint "uidvalidity" = some uidvalidity →
      ∃ p ∈ now :: past, p.info.uidvalidity = some uidvalidity) (last : lastUid = effectiveLastUid now.info checkpoint)
    (running : Running lib ⟨accountId, mailboxName, mailbox.id, connection, lastUid, []⟩ now past checkpoint s) :
    (do
      let upstreamUids ← await (.uidSearchAll connection)
      let upstreamUidSet := upstreamUids.filterMap i64OfU64
      let localMessages ← await (.listMailboxMessages mailbox.id)
      let (messagesSynced, newestUid) ← upstreamUids.foldlM
        (syncUid lib ⟨accountId, mailboxName, mailbox.id, connection, lastUid, localMessages⟩) (0, none)
      ofExcept (validateCheckpoint accountId)
      await (.putSyncState { accountId, mailboxId := some mailbox.id
                             stateJson := checkpointJson mailboxName now.info (newestUid.getD lastUid) })
      await (.updateMailboxSyncMetadata mailbox.id now.info)
      reconcileMissingUpstreamMessagesWithSet mailbox.id upstreamUidSet
      Repository.refreshMailboxCounts mailbox.id
      pure messagesSynced : Action Nat).Ensures (cacheHandler lib) (anyFault Error)
      (fun _ s' => Mirrored lib accountId mailbox.id s' (now :: past) ∧ Complete lib mailbox.id now s' ∧
        ∀ row, InMailbox s' mailbox.id row → ∃ message ∈ now.messages, row.data.localUid = message.uid)
      (fun _ s' => Mirrored lib accountId mailbox.id s' (now :: past)) s := by
  have cutOff : ∀ {s'}, Same lib s s' → Mirrored lib accountId mailbox.id s' (now :: past) :=
    fun same => (running.evolve (same.evolves running.genuine)).mirrored known last
  have search : s.perform lib (.uidSearchAll connection) = (.ok (now.messages.map (·.uid)), s) := by
    have selected := running.selected
    dsimp only at selected
    simp only [World.perform, Upstream.uidSearchAll, selected]
    rfl
  rw [bind_eq, ensures_bind]
  refine (ask_ensures (by simp [neutral, Op.writes]) s).mono ?_ fun _ _ => cutOff
  rintro upstreamUids s₁ ⟨-, answered⟩
  rw [search] at answered
  cases answered
  rw [bind_eq, ensures_bind]
  refine (ask_ensures (by simp [neutral, Op.writes]) s).mono ?_ fun _ _ => cutOff
  rintro localMessages s₁ ⟨-, answered⟩
  cases answered
  have listed : ∀ row, InMailbox s mailbox.id row ↔ row ∈ s.db.listMailboxMessages mailbox.id := by
    intro row
    rw [Db.mem_listMailboxMessages, Db.mem_liveMessages]
    exact ⟨fun here => ⟨here.1, here.2, (running.genuine row here).live⟩, fun h => ⟨h.1, h.2.1⟩⟩
  rw [bind_eq, ensures_bind]
  have running₁ : Running lib ⟨accountId, mailboxName, mailbox.id, connection, lastUid,
      s.db.listMailboxMessages mailbox.id⟩ now past checkpoint s :=
    ⟨running.genuine, running.tracks, running.selected, running.checkpoint⟩
  refine (syncUids_ensures known last succeeds running₁ listed).mono ?_ fun _ _ => id
  rintro ⟨messagesSynced, newestUid⟩ s₁ ⟨running₂, complete, fits, newest⟩
  exact record_ensures messagesSynced (mem_upstreamUidSet fits) (running₂.mirrored known last) complete
    (putSyncState_mirrored known last running₂ complete newest)

theorem syncMailboxInner_ensures {accountId : Int} {mailboxName : String} {mailbox : Row Mailbox}
    (connection : Nat) (reports : now.info.uidvalidity.isSome)
    (succeeds : Snapshot.Succeeds (past.map (·.snapshot lib.sha256)) (now.snapshot lib.sha256))
    (upstream : s.upstream.find mailboxName = some now)
    (mirrored : Mirrored lib accountId mailbox.id s (now :: past)) :
    (syncMailboxInner lib accountId mailboxName mailbox connection).Ensures (cacheHandler lib)
      (anyFault Error)
      (fun _ s' => Mirrored lib accountId mailbox.id s' (now :: past) ∧
        Complete lib mailbox.id now s' ∧ ∀ row, InMailbox s' mailbox.id row →
          ∃ message ∈ now.messages, row.data.localUid = message.uid)
      (fun _ s' => Mirrored lib accountId mailbox.id s' (now :: past)) s := by
  have select : s.perform lib (.selectMailbox connection mailboxName) =
      (.ok now.info, { s with sessions := Function.update s.sessions connection (some mailboxName) }) := by
    simp only [World.perform, Upstream.selectMailbox, upstream]
  have mirrored₁ : Mirrored lib accountId mailbox.id
      { s with sessions := Function.update s.sessions connection (some mailboxName) } (now :: past) :=
    mirrored.untouched ⟨rfl, rfl, rfl, rfl⟩
  have selected₁ : s.upstream.selected
      (Function.update s.sessions connection (some mailboxName) connection) = .ok (mailboxName, now) := by
    rw [Function.update_self]
    simp only [Upstream.selected, upstream]
  unfold syncMailboxInner
  rw [bind_eq, ensures_bind]
  refine (await_ensures _ s).mono ?_ ?_
  · intro selection s₁ ok
    rw [select] at ok
    cases ok
    rw [bind_eq, ensures_bind]
    refine (ask_ensures (by simp [neutral, Op.writes]) _).mono ?_
      fun _ _ same => mirrored₁.evolve (same.evolves mirrored₁.genuine)
    rintro checkpoint s₁ ⟨-, loaded⟩
    cases loaded
    rw [bind_eq, ensures_bind]
    refine (prepare_ensures ⟨accountId, mailboxName, mailbox.id, connection,
      effectiveLastUid now.info (s.db.loadSyncState accountId (some mailbox.id)), []⟩
      reports mirrored₁ selected₁ rfl rfl rfl).mono ?_ fun _ _ => id
    intro _ s₂ running
    exact fetch_ensures succeeds mirrored₁.known rfl running
  · rintro _ _ (rfl | rfl)
    · exact mirrored
    · rw [select]
      exact mirrored₁

end Steps
end Run

/-! ## Runs one after another -/

/-- What the states of an upstream mailbox are assumed to be like: it reports its UIDVALIDITY and
never one it has given up, within a UIDVALIDITY new messages have larger UIDs than all before, and
the text of a message never changes. -/
structure Successor (history : List UpstreamMailbox) (now : UpstreamMailbox) : Prop where
  reports : now.info.uidvalidity.isSome
  succeeds : Snapshot.Succeeds (history.map (·.snapshot id)) (now.snapshot id)

theorem Successor.digests {history : List UpstreamMailbox} {now : UpstreamMailbox}
    (successor : Successor history now) (view : Bytes → String) :
    Snapshot.Succeeds (history.map (·.snapshot view)) (now.snapshot view) where
  noReturn := by
    intro last head p member same
    obtain ⟨state, rest, rfl⟩ : ∃ state rest, history = state :: rest := by
      cases history with
      | nil => cases head
      | cons state rest => exact ⟨state, rest, rfl⟩
    cases head
    obtain ⟨earlier, earlierMember, rfl⟩ := List.mem_map.mp member
    exact successor.succeeds.noReturn _ rfl (earlier.snapshot id) (List.mem_map_of_mem earlierMember) same
  larger := by
    intro last head epoch uid digest held
    obtain ⟨state, rest, rfl⟩ : ∃ state rest, history = state :: rest := by
      cases history with
      | nil => cases head
      | cons state rest => exact ⟨state, rest, rfl⟩
    cases head
    obtain ⟨message, member, rfl, -⟩ := held
    rcases successor.succeeds.larger _ rfl epoch message.uid message.body ⟨message, member, rfl, rfl⟩ with
      ⟨-, old, oldMember, same, -⟩ | larger
    · exact Or.inl ⟨_, old, oldMember, same, rfl⟩
    · right
      rintro p pMember pEpoch uid' digest' held'
      obtain ⟨earlier, earlierMember, rfl⟩ := List.mem_map.mp pMember
      obtain ⟨old, oldMember, rfl, -⟩ := held'
      exact larger (earlier.snapshot id) (List.mem_map_of_mem earlierMember) pEpoch old.uid old.body
        ⟨old, oldMember, rfl, rfl⟩
  immutable := by
    intro p pMember pEpoch uid digest digest' held held'
    obtain ⟨earlier, earlierMember, rfl⟩ := List.mem_map.mp pMember
    obtain ⟨old, oldMember, rfl, rfl⟩ := held
    obtain ⟨message, member, same, rfl⟩ := held'
    have text : old.body = message.body := successor.succeeds.immutable (earlier.snapshot id)
      (List.mem_map_of_mem earlierMember) pEpoch old.uid old.body message.body
      ⟨old, oldMember, rfl, rfl⟩ ⟨message, member, same, rfl⟩
    rw [text]

/-- The worlds that runs of a sync of one mailbox reach from one in which the mailbox is empty, with
the states of the upstream mailbox that they ran against, the most recent first. Any call of a run
may fail, and between two runs everything but the mirror may change. -/
inductive SyncRuns (lib : Libraries) (accountId : Int) (mailboxName : String) (mailboxId : Int) :
    World → List UpstreamMailbox → Prop where
  | empty {world} (rows : ∀ row, ¬ InMailbox world mailboxId row)
      (checkpoint : world.db.loadSyncState accountId (some mailboxId) = none) :
      SyncRuns lib accountId mailboxName mailboxId world []
  | run {world history world' now mailbox} (runs : SyncRuns lib accountId mailboxName mailboxId world history)
      (between : Untouched world world') (upstream : world'.upstream.find mailboxName = some now)
      (successor : Successor history now) (same : mailbox.id = mailboxId) (connection : Nat)
      (faults : List (Fault Error)) :
      SyncRuns lib accountId mailboxName mailboxId
        ((syncMailboxInner lib accountId mailboxName mailbox connection).run (cacheHandler lib) faults
          world').2 (now :: history)

theorem SyncRuns.mirrored {accountId : Int} {mailboxName : String}
    {mailboxId : Int} {world : World} {history : List UpstreamMailbox}
    (runs : SyncRuns lib accountId mailboxName mailboxId world history) :
    Mirrored lib accountId mailboxId world history := by
  induction runs with
  | empty rows checkpoint =>
      refine ⟨fun row here => absurd here (rows row), ?_, fun now past split => nomatch split⟩
      rw [checkpoint]
      exact fun _ field => nomatch field
  | run runs between upstream successor same connection faults ih =>
      subst same
      have before := (ih.untouched between).extend (successor.digests lib.sha256)
      have outcome := (syncMailboxInner_ensures connection successor.reports
        (successor.digests lib.sha256) upstream before).run faults (fun _ _ => trivial) trivial
      cases result : ((syncMailboxInner lib _ _ _ connection).run (cacheHandler lib) faults _).1 with
      | ok value => exact (outcome.1 value result).1
      | error failure => exact outcome.2 failure result

def HasBody (world : World) (messageId : Int) (body : Bytes) : Prop :=
  ∃ message, world.db.message messageId = some message ∧
    world.blob message.data.rfc822BlobKey = some body

/-- No stored object has the digest of one of the texts without being that text. -/
def CollisionFree (lib : Libraries) (world : World) (texts : List Bytes) : Prop :=
  ∀ object ∈ world.blobs, ∀ text ∈ texts, lib.sha256 object.2 = lib.sha256 text → object.2 = text

theorem HasDigest.hasBody {world : World} {messageId : Int} {texts : List Bytes} {body : Bytes}
    (has : HasDigest lib world messageId (lib.sha256 body))
    (collisionFree : CollisionFree lib world texts) (member : body ∈ texts) :
    HasBody world messageId body := by
  obtain ⟨message, stored, found, -, lookup, same⟩ := has
  have object : (message.data.rfc822BlobKey, stored) ∈ world.blobs := by
    obtain ⟨before, after, split, -⟩ := List.lookup_eq_some_iff.mp lookup
    simp [split]
  have equal : stored = body := collisionFree _ object body member same
  exact ⟨message, found, by rw [lookup, equal]⟩

/-- The rows of a mailbox are one row for each message of the upstream mailbox and no others. -/
structure ExactCopy (lib : Libraries) (mailboxId : Int) (world : World) (now : UpstreamMailbox) : Prop where
  one : ∀ message ∈ now.messages,
    ∃! row, InMailbox world mailboxId row ∧ row.data.upstreamUid = some (message.uid : Int)
  copy : ∀ row, InMailbox world mailboxId row → ∃ message ∈ now.messages,
    CopyOf lib world message row ∧ HasBody world row.data.messageId message.body

theorem sync_converges {accountId : Int} {mailboxName : String} {world world' : World}
    {history : List UpstreamMailbox} {now : UpstreamMailbox} {mailbox : Row Mailbox}
    (runs : SyncRuns lib accountId mailboxName mailbox.id world history)
    (between : Untouched world world') (upstream : world'.upstream.find mailboxName = some now)
    (successor : Successor history now) (connection : Nat) (faults : List (Fault Error)) {count : Nat}
    (ok : ((syncMailboxInner lib accountId mailboxName mailbox connection).run (cacheHandler lib) faults
      world').1 = .ok count)
    (collisionFree : CollisionFree lib ((syncMailboxInner lib accountId mailboxName mailbox connection).run
      (cacheHandler lib) faults world').2 (now.messages.map (·.body))) :
    ExactCopy lib mailbox.id ((syncMailboxInner lib accountId mailboxName mailbox connection).run
      (cacheHandler lib) faults world').2 now := by
  have before := (runs.mirrored.untouched between).extend (successor.digests lib.sha256)
  have ensures := syncMailboxInner_ensures connection successor.reports (successor.digests lib.sha256)
    upstream before
  obtain ⟨mirrored, complete, only⟩ := (ensures.run faults (fun _ _ => trivial) trivial).1 count ok
  refine ⟨fun message member => ?_, fun row here => ?_⟩
  · obtain ⟨row, here, copy⟩ := complete message member
    refine ⟨row, ⟨here, copy.upstreamUid⟩, fun other ⟨there, uid⟩ => ?_⟩
    exact Db.mailboxMessage_unique_upstream there.1 here.1 (there.2.trans here.2.symm) uid copy.upstreamUid
  · obtain ⟨message, member, uid⟩ := only row here
    obtain ⟨copied, there, copy⟩ := complete message member
    have same : row = copied := Db.mailboxMessage_unique here.1 there.1 (here.2.trans there.2.symm)
      (uid.trans copy.localUid.symm)
    subst same
    exact ⟨message, member, copy, copy.text.hasBody collisionFree (List.mem_map_of_mem member)⟩

/-! ### A run that is cut off and a run that is not -/

/-- An INBOX that lists its two messages in the order in which they did not arrive. -/
def unsortedInbox : UpstreamMailbox :=
  { Sample.upstreamMailbox "INBOX" (some 7) with
    messages := [⟨2, ["\\Seen"], none, Sample.yoMessage⟩, ⟨1, [], none, Sample.hiMessage⟩]
    uidnext := 3, distinct := by decide, bounded := by decide, positive := by decide }

def unsortedWorld : World :=
  Sample.world (Sample.db [Sample.mailbox "INBOX" none] []) ⟨[unsortedInbox], true, List.pairwise_singleton _ _⟩

def inboxRow : Row Mailbox := ⟨1, Sample.mailbox "INBOX" none⟩

def interrupted : List (Fault Error) := List.replicate 25 .none ++ [.lost (.io "connection reset")]

def syncInbox (faults : List (Fault Error)) (world : World) : Except Error Nat × World :=
  (syncMailboxInner Sample.libraries 1 "INBOX" inboxRow 0).run (cacheHandler Sample.libraries) faults world

theorem sync_converges_interrupted :
    (syncInbox interrupted unsortedWorld).1 = .error (.io "connection reset") ∧
      ExactCopy Sample.libraries 1 (syncInbox [] (syncInbox interrupted unsortedWorld).2).2 unsortedInbox := by
  have first : Successor [] unsortedInbox := ⟨rfl, nofun, nofun, nofun⟩
  have second : Successor [unsortedInbox] unsortedInbox := by
    refine ⟨rfl, ?_, ?_, ?_⟩
    · intro last head p member same
      cases head
      rfl
    · intro last head same uid digest held
      cases head
      exact Or.inl ⟨digest, held⟩
    · intro p member same uid digest digest' held held'
      rw [List.mem_singleton.mp member] at held
      exact unsortedInbox.snapshot_distinct id uid digest digest' held held'
  have start : SyncRuns Sample.libraries 1 "INBOX" inboxRow.id unsortedWorld [] :=
    SyncRuns.empty (fun _ here => nomatch here.1) rfl
  have cutOff : SyncRuns Sample.libraries 1 "INBOX" inboxRow.id (syncInbox interrupted unsortedWorld).2
      [unsortedInbox] :=
    start.run ⟨rfl, rfl, rfl, rfl⟩ (by decide +kernel) first rfl 0 interrupted
  have ok : (syncInbox [] (syncInbox interrupted unsortedWorld).2).1 = .ok 2 := by decide +kernel
  have collisionFree : CollisionFree Sample.libraries (syncInbox [] (syncInbox interrupted unsortedWorld).2).2
      (unsortedInbox.messages.map (·.body)) := by
    unfold CollisionFree
    decide +kernel
  refine ⟨by decide +kernel, ?_⟩
  exact sync_converges cutOff ⟨rfl, rfl, rfl, rfl⟩ (by decide +kernel) second 0 [] ok collisionFree

end Sync
end ImapCache
