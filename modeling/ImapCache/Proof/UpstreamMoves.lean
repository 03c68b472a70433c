import ImapCache.Proof.MailboxOrder
import ImapCache.Proof.FlagAddress

/-!
# What a move leaves of the source mailbox

Upstream a message is moved by copying it, marking it as deleted and expunging the mailbox. The
expunge is of the whole mailbox: a message that somebody else has marked as deleted goes with it.
-/

namespace ImapCache

/-- The operation changes neither the server nor what its connections have selected. -/
def Op.sparesUpstream (op : Op) : Bool :=
  !op.writes.contains .upstream && !op.writes.contains .sessions

end ImapCache

namespace ImapCache.Mutations
open Lib Prog Repository UpstreamMailbox

variable {lib : Libraries} {allowed : Fault Error → Prop}

/-! ## The source mailbox -/

/-- The name of the source mailbox and the UID that the moved message has there. -/
def movedMessage (db : Db) (payload : Json) : Option (String × Nat) := do
  let mailboxId ← (payload.get "source_mailbox_id").bind Json.asI64
  let localUid ← (payload.get "local_uid").bind Json.asI64
  let name ← (payload.get "source_mailbox").bind Json.asStr
  let uid ← Queue.recordedUpstreamUid db mailboxId localUid
  some (name, i64AsU64 uid)

/-- Of the messages of the source mailbox, the moved one is gone and the others are as they were. -/
def OnlyMovedGone (payload : Json) (world world' : World) : Prop :=
  ∃ name uid before after, movedMessage world.db payload = some (name, uid) ∧
    world.upstream.find name = some before ∧ world'.upstream.find name = some after ∧
    after.find uid = none ∧ ∀ message ∈ before.messages, message.uid ≠ uid → message ∈ after.messages

/-- No other message of the source mailbox is marked as deleted. -/
def OthersUndeleted (payload : Json) (world : World) : Prop :=
  ∀ name uid mailbox, movedMessage world.db payload = some (name, uid) →
    world.upstream.find name = some mailbox →
    ∀ message ∈ mailbox.messages, message.uid ≠ uid → isDeleted message = false

theorem withDeleted_deleted (flags : List String) :
    (withDeleted flags).any (eqIgnoreAsciiCase · "\\Deleted") = true := by
  unfold withDeleted
  split
  · assumption
  · have own : eqIgnoreAsciiCase "\\Deleted" "\\Deleted" = true := by decide
    rw [List.any_append, List.any_cons, own]
    simp

theorem mem_expunged (mailbox : UpstreamMailbox) (uid : Nat) (flags : List String)
    (message : UpstreamMessage) :
    message ∈ ((mailbox.storeFlags uid (withDeleted flags)).expunge).messages ↔
      message ∈ mailbox.messages ∧ message.uid ≠ uid ∧ isDeleted message = false := by
  have marked : ∀ message, message.uid = uid →
      isDeleted (setFlags uid (withDeleted flags) message) = true := by
    intro message same
    rw [setFlags, if_pos same]
    exact withDeleted_deleted flags
  have kept : ∀ message, message.uid ≠ uid →
      setFlags uid (withDeleted flags) message = message := by
    intro message other
    rw [setFlags, if_neg other]
  unfold expunge storeFlags
  rw [List.mem_filter, List.mem_map]
  constructor
  · rintro ⟨⟨old, member, rfl⟩, alive⟩
    by_cases same : old.uid = uid
    · rw [marked old same] at alive
      cases alive
    · rw [kept old same] at alive ⊢
      exact ⟨member, same, by simpa using alive⟩
  · rintro ⟨member, other, alive⟩
    exact ⟨⟨message, member, kept message other⟩, by simpa using alive⟩

/-! ## The run -/

theorem upstreamUid_recorded (mailboxId localUid : Int) (world : World) :
    (upstreamUidForMailboxMessage mailboxId localUid).Ensures (cacheHandler lib) allowed
      (fun uid world' => uid = Queue.recordedUpstreamUid world.db mailboxId localUid ∧ world' = world)
      (fun _ _ => True) world := by
  unfold upstreamUidForMailboxMessage
  refine ensures_bind.mpr (ensures_read rfl (ensures_bind.mpr (ensures_await fun uid recorded => ?_)))
  change world.db.messageUpstreamUid mailboxId localUid = .ok uid at recorded
  unfold Queue.recordedUpstreamUid
  rw [recorded]
  cases uid with
  | some uid => exact ⟨rfl, rfl⟩
  | none =>
      have mapped : world.perform lib (.mappedUpstreamUid mailboxId localUid
          (world.db.mailboxUidvalidity mailboxId)) = (.ok (world.db.mappedUpstreamUid mailboxId localUid
          (world.db.mailboxUidvalidity mailboxId)), world) := rfl
      exact ensures_read mapped ⟨rfl, rfl⟩

theorem setMailboxMessageUpstreamUid_elsewhere (mailboxId localUid upstreamUid : Int) (world : World) :
    (setMailboxMessageUpstreamUid mailboxId localUid upstreamUid).Ensures (cacheHandler lib) allowed
      (fun _ world' => world'.upstream = world.upstream ∧ world'.sessions = world.sessions)
      (fun _ _ => True) world := by
  have uses : (setMailboxMessageUpstreamUid mailboxId localUid upstreamUid).Uses
      (Op.sparesUpstream · = true) := by
    refine (Uses.ask (by rfl)).bind fun row => ?_
    refine Uses.bind (Uses.onlyIf fun _ => ?_) fun _ => trivial
    exact (Uses.ask (by rfl)).bind fun uidvalidity => Uses.ask (by rfl)
  let same (world' : World) : Prop :=
    world'.upstream = world.upstream ∧ world'.sessions = world.sessions
  have kept : (setMailboxMessageUpstreamUid mailboxId localUid upstreamUid).Ensures (cacheHandler lib)
      allowed (fun _ => same) (fun _ => same) world := by
    refine uses.ensures (fun op world' spares held => ?_) ⟨rfl, rfl⟩
    simp only [Op.sparesUpstream, Bool.and_eq_true, Bool.not_eq_eq_eq_not, Bool.not_true,
      List.contains_eq_mem, decide_eq_false_iff_not] at spares
    exact ⟨(World.perform_frame lib world' op .upstream spares.1).trans held.1,
      (World.perform_frame lib world' op .sessions spares.2).trans held.2⟩
  exact kept.mono (fun _ _ => id) fun _ _ _ => trivial

/-- The source mailbox after a move: what the copy has left there is marked and expunged. -/
def SourceMoved (server server' : Upstream) (name : String) (uid : Nat) : Prop :=
  ∃ (before copied : UpstreamMailbox) (flags : List String), server.find name = some before ∧
    (∀ message ∈ before.messages, message ∈ copied.messages) ∧
    server'.find name = some ((copied.storeFlags uid (withDeleted flags)).expunge)

theorem uidCopyMessage_source {server : Upstream} {name : String} {mailbox : UpstreamMailbox}
    (found : server.find name = some mailbox) (session : Option String) (uid : Nat) (destination : String) :
    ∃ copied, (server.uidCopyMessage session uid destination).2.find name = some copied ∧
      ∀ message ∈ mailbox.messages, message ∈ copied.messages := by
  unfold Upstream.uidCopyMessage
  split
  · exact ⟨mailbox, found, fun _ => id⟩
  · exact ⟨mailbox, found, fun _ => id⟩
  · split
    · exact ⟨mailbox, found, fun _ => id⟩
    · rename_i message _
      dsimp only
      rw [Upstream.find_update, found]
      refine ⟨_, rfl, ?_⟩
      unfold Upstream.updated
      split
      · exact fun message member => List.mem_append_left _ member
      · exact fun _ => id

theorem told (op : Op) (world : World) :
    (await op).Ensures (cacheHandler lib) allowed (fun _ world' => world' = (world.perform lib op).2)
      (fun _ _ => True) world :=
  ensures_await fun _ _ => rfl

theorem applyMoveMessage_source (connection : Nat) (payload : Json) (world : World) :
    (applyMoveMessage connection payload).Ensures (cacheHandler lib) allowed
      (fun _ world' => ∃ name uid, movedMessage world.db payload = some (name, uid) ∧
        SourceMoved world.upstream world'.upstream name uid) (fun _ _ => True) world := by
  unfold applyMoveMessage readTransfer requireI64 requireStr
  simp only [bind_eq, bind_assoc]
  refine ensures_bind.mpr (ensures_orThrow (fun sourceMailboxId isId => ?_) fun _ => trivial)
  refine ensures_bind.mpr (ensures_orThrow (fun name isName => ?_) fun _ => trivial)
  refine ensures_bind.mpr (ensures_orThrow (fun destination _ => ?_) fun _ => trivial)
  refine ensures_bind.mpr (ensures_orThrow (fun destinationId _ => ?_) fun _ => trivial)
  refine ensures_bind.mpr (ensures_orThrow (fun localUid isUid => ?_) fun _ => trivial)
  refine ensures_bind.mpr (ensures_orThrow (fun destinationUid _ => ?_) fun _ => trivial)
  simp only [pure_eq, ret_bind, copyUpstream, bind_eq, bind_assoc]
  refine ensures_bind.mpr ((upstreamUid_recorded sourceMailboxId localUid world).mono ?_ fun _ _ => id)
  rintro recorded world₁ ⟨isRecorded, same⟩
  rw [same]
  refine ensures_bind.mpr (ensures_orThrow (fun uid known => ?_) fun _ => trivial)
  have moved : movedMessage world.db payload = some (name, i64AsU64 uid) := by
    rw [isRecorded] at known
    simp [movedMessage, isId, isName, isUid, known]
  -- the source mailbox is selected
  refine ensures_bind.mpr (ensures_await fun info selected => ?_)
  obtain ⟨before, found⟩ : ∃ before, world.upstream.find name = some before := by
    cases found : world.upstream.find name with
    | some before => exact ⟨before, rfl⟩
    | none => simp [World.perform, Upstream.selectMailbox, found] at selected
  have session : (world.perform lib (.selectMailbox connection name)).2.sessions connection =
      some name := by
    simp [World.perform, Upstream.selectMailbox, found]
  have unchanged : (world.perform lib (.selectMailbox connection name)).2.upstream = world.upstream :=
    World.perform_frame lib world _ .upstream (by simp [Op.writes])
  generalize (world.perform lib (.selectMailbox connection name)).2 = world₂ at session unchanged ⊢
  -- the message is copied
  refine ensures_bind.mpr (ensures_await fun destinationUpstreamUid _ => ?_)
  obtain ⟨copied, present, included⟩ :=
    uidCopyMessage_source found (world₂.sessions connection) (i64AsU64 uid) destination
  rw [← unchanged] at present
  generalize copy : (world₂.perform lib (.uidCopyMessage connection (i64AsU64 uid) destination)).2 = world₃
  have server : world₃.upstream =
      (world₂.upstream.uidCopyMessage (world₂.sessions connection) (i64AsU64 uid) destination).2 := by
    rw [← copy]
    rfl
  have session₃ : world₃.sessions connection = some name := by
    rw [← copy, ← session]
    rfl
  rw [← server] at present
  -- its UID is recorded
  refine ensures_bind.mpr ((setMailboxMessageUpstreamUid_elsewhere _ _ _ world₃).mono ?_ fun _ _ => id)
  rintro _ world₄ ⟨upstream₄, sessions₄⟩
  -- the message is marked
  have selected₄ : world₄.upstream.selected (world₄.sessions connection) = .ok (name, copied) := by
    rw [sessions₄, session₃, upstream₄]
    simp [Upstream.selected, present]
  have stores := @told lib allowed (.uidStoreFlags connection (i64AsU64 uid)
    (withDeleted (Json.stringItems (payload.get "flags")))) world₄
  refine ensures_bind.mpr (stores.mono ?_ fun _ _ => id)
  rintro _ world₅ marking
  have marked : world₅.upstream.find name = some (copied.storeFlags (i64AsU64 uid)
      (withDeleted (Json.stringItems (payload.get "flags")))) := by
    rw [marking]
    simp only [World.perform, World.withUpstream, Upstream.uidStoreFlags, selected₄]
    rw [upstream₄]
    exact Upstream.find_update_self present
  have session₅ : world₅.sessions connection = some name := by
    rw [marking, ← session₃, ← sessions₄]
    rfl
  -- the mailbox is expunged
  refine (told (.expungeSelected connection) world₅).mono ?_ fun _ _ => id
  rintro _ world' rfl
  refine ⟨name, i64AsU64 uid, moved, before, copied,
    Json.stringItems (payload.get "flags"), found, included, ?_⟩
  have selected₅ : world₅.upstream.selected (world₅.sessions connection) = .ok (name,
      copied.storeFlags (i64AsU64 uid) (withDeleted (Json.stringItems (payload.get "flags")))) := by
    rw [session₅]
    simp only [Upstream.selected, marked]
  simp only [World.perform, World.withUpstream, Upstream.expungeSelected, selected₅]
  exact Upstream.find_update_self marked

/-- When a move succeeds, its message is the only one that has gone from the source mailbox exactly if
no other message there was marked as deleted. -/
theorem only_moved_gone_iff {connection : Nat} {payload : Json} {faults : List (Fault Error)}
    {world world' : World}
    (succeeds : (applyMoveMessage connection payload).run (cacheHandler lib) faults world =
      (.ok (), world')) :
    OnlyMovedGone payload world world' ↔ OthersUndeleted payload world := by
  have ensures := @applyMoveMessage_source lib (anyFault Error) connection payload world
  have ended := (ensures.run faults (fun _ _ => trivial) trivial).1 () (by rw [succeeds])
  rw [succeeds] at ended
  obtain ⟨name, uid, moved, before, copied, flags, found, included, left⟩ := ended
  constructor
  · rintro ⟨name', uid', before', after, moved', found', left', -, stays⟩
    intro name₂ uid₂ mailbox moved₂ found₂ message member other
    rw [moved, Option.some.injEq, Prod.mk.injEq] at moved' moved₂
    obtain ⟨rfl, rfl⟩ := moved'
    obtain ⟨rfl, rfl⟩ := moved₂
    rw [found, Option.some.injEq] at found' found₂
    subst found' found₂
    have isAfter : after = (copied.storeFlags uid (withDeleted flags)).expunge :=
      Option.some.inj (left'.symm.trans left)
    have stayed := stays message member other
    rw [isAfter, mem_expunged] at stayed
    exact stayed.2.2
  · intro undeleted
    refine ⟨name, uid, before, _, moved, found, left, ?_, fun message member other => ?_⟩
    · refine List.find?_eq_none.mpr fun message member => ?_
      simpa using ((mem_expunged copied uid flags message).mp member).2.1
    · rw [mem_expunged]
      exact ⟨included message member, other, undeleted name uid before moved found message member other⟩

/-! ## Two messages -/

/-- Two messages in INBOX, the second with these flags, and an empty Archive. -/
def twoMessages (flags : List String) : World :=
  Sample.world (Sample.db [Sample.mailbox "INBOX" (some 7), Sample.mailbox "Archive" (some 8)]
      [Sample.row 1 1 (some 1) [], Sample.row 1 2 (some 2) flags, Sample.row 2 1 none []])
    { mailboxes := [(Sample.withMessages (Sample.upstreamMailbox "INBOX" (some 7))
          [Sample.hiMessage, Sample.yoMessage]).storeFlags 2 flags,
        Sample.upstreamMailbox "Archive" (some 8)]
      uidplus := true
      distinct := List.pairwise_pair.mpr
        (show sameMailboxName "INBOX" "Archive" = false by decide) }

def moveFirst : Json := transferPayload
  { sourceMailboxId := 1, destinationMailboxId := 2, sourceMailbox := "INBOX"
    destinationMailbox := "Archive", localUid := 1, destinationLocalUid := 1, flags := [] }

def movedFirst (flags : List String) : Except Error Unit × World :=
  (applyMoveMessage 0 moveFirst).run (cacheHandler Sample.libraries) [] (twoMessages flags)

theorem only_moved_gone_iff_seen :
    ∃ world', (applyMoveMessage 0 moveFirst).run (cacheHandler Sample.libraries) []
        (twoMessages ["\\Seen"]) = (.ok (), world') ∧
      OnlyMovedGone moveFirst (twoMessages ["\\Seen"]) world' := by
  have done : (movedFirst ["\\Seen"]).1.toOption = some () := by decide +kernel
  have moved : movedMessage (twoMessages ["\\Seen"]).db moveFirst = some ("INBOX", 1) := by
    decide +kernel
  have alive : ((twoMessages ["\\Seen"]).upstream.find "INBOX").all (fun mailbox =>
      mailbox.messages.all fun message => !isDeleted message) = true := by decide +kernel
  cases ran : movedFirst ["\\Seen"] with
  | mk outcome world' =>
      rw [ran] at done
      cases outcome with
      | error failure => cases done
      | ok =>
          refine ⟨world', ran, (only_moved_gone_iff ran).mpr ?_⟩
          intro name uid mailbox moved' found message member _
          rw [moved] at moved'
          cases moved'
          rw [found] at alive
          simpa using List.all_eq_true.mp alive message member

/-- The second message is marked as deleted, and goes with the first. -/
theorem deleted_goes_too :
    ¬ ∀ (payload : Json) (world world' : World),
      (applyMoveMessage 0 payload).run (cacheHandler Sample.libraries) [] world = (.ok (), world') →
        OnlyMovedGone payload world world' := by
  intro only
  have done : (movedFirst ["\\Deleted"]).1.toOption = some () := by decide +kernel
  have moved : movedMessage (twoMessages ["\\Deleted"]).db moveFirst = some ("INBOX", 1) := by
    decide +kernel
  have before : ((twoMessages ["\\Deleted"]).upstream.find "INBOX").map (fun mailbox =>
      mailbox.messages.map (·.uid)) = some [1, 2] := by decide +kernel
  have left : ((movedFirst ["\\Deleted"]).2.upstream.find "INBOX").map (·.messages) = some [] := by
    decide +kernel
  cases ran : movedFirst ["\\Deleted"] with
  | mk outcome world' =>
      rw [ran] at done left
      cases outcome with
      | error failure => cases done
      | ok =>
          obtain ⟨name, uid, mailbox, after, moved', found, found', -, stays⟩ := only _ _ _ ran
          rw [moved] at moved'
          cases moved'
          rw [found, Option.map_some, Option.some.injEq] at before
          rw [found', Option.map_some, Option.some.injEq] at left
          have second : 2 ∈ mailbox.messages.map (·.uid) := by
            rw [before]
            decide
          obtain ⟨message, member, isSecond⟩ := List.mem_map.mp second
          have stayed := stays message member (by omega)
          rw [left] at stayed
          exact absurd stayed List.not_mem_nil

end ImapCache.Mutations
