import Mathlib
import ImapCache.Lib.Counting
import ImapCache.Model.Connection
import ImapCache.Model.Sample
import ImapCache.Proof.Footprints
import ImapCache.Proof.MailboxRows

/-!
# Changes of a mailbox and their events

Messages are inserted into a mailbox, deleted from it and flagged. What a completed change does to the
rows and which event it publishes, and how a client reads the lines about it.
-/

namespace ImapCache.IdleView
open Lib Prog Counting

/-! ## The client -/

def numbered (word : String) (line : String) : Option Int :=
  match line.toList with
  | '*' :: ' ' :: rest =>
      let suffix := ' ' :: word.toList
      if suffix.isSuffixOf rest then
        (String.ofList (rest.take (rest.length - suffix.length))).toInt?
      else none
  | _ => none

/-- The count after a line; there is none after an EXPUNGE of a number that is out of range. -/
def applyResponse (count : Int) (line : String) : Option Int :=
  match numbered "EXISTS" line with
  | some number => some number
  | none =>
      match numbered "EXPUNGE" line with
      | some number => if 1 ≤ number ∧ number ≤ count then some (count - 1) else none
      | none => some count

def clientCount (announced : Int) (responses : List String) : Option Int :=
  responses.foldlM applyResponse announced

/-! ## Changes and their events -/

inductive MailboxChange where
  | upsert (input : MailboxMessage)
  | copy (sourceMailboxId sourceLocalUid : Int)
  | delete (localUid : Int)
  | updateFlags (localUid : Int) (flags : List String)
deriving DecidableEq, Repr

/-- A change of a mailbox. No caller of `upsert_mailbox_message` writes a row as expunged. -/
def MailboxChange.code (mailboxId : Int) : MailboxChange → Action Unit
  | upsert input =>
      (Repository.upsertMailboxMessage { input with mailboxId, isExpunged := false }).bind fun _ => .ret ()
  | copy source localUid =>
      (Repository.copyMailboxMessage source mailboxId localUid).bind fun _ => .ret ()
  | delete localUid => (Repository.deleteMailboxMessage mailboxId localUid).bind fun _ => .ret ()
  | updateFlags localUid flags =>
      (Repository.updateMailboxMessageFlags mailboxId localUid flags).bind fun _ => .ret ()

structure Idle where
  world : World
  /-- The events that the session has still to process. -/
  waiting : List MutationEvent
  session : Session.ImapSession
  /-- The lines that the client was sent. -/
  responses : List String

/-- What happens is a change of the selected mailbox or the processing of the oldest event. -/
inductive Happening where
  | change (change : MailboxChange)
  | process
deriving DecidableEq, Repr

def Idle.step (server : Session.Server) (mailboxId : Int) (idle : Idle) : Happening → Option Idle
  | .change change =>
      match (change.code mailboxId).eval (cacheHandler server.lib) idle.world with
      | (.ok (), world) =>
          let published := world.events.drop idle.world.events.length
          some { idle with world, waiting := idle.waiting ++ published }
      | (.error _, _) => none
  | .process =>
      match idle.waiting with
      | [] => none
      | event :: waiting =>
          match (Session.idleNotificationForEvent server idle.session event).eval
              (cacheHandler server.lib) idle.world with
          | (.ok (line, session), world) =>
              some ⟨world, waiting, session, idle.responses ++ line.toList⟩
          | (.error _, _) => none

/-- A run keeps what has happened, the most recent first, with the state it happened in. -/
inductive Run (server : Session.Server) (mailboxId : Int) (start : Idle) :
    List (Idle × Happening) → Idle → Prop where
  | start : Run server mailboxId start [] start
  | step {past idle idle'} (run : Run server mailboxId start past idle) (happening : Happening)
      (taken : idle.step server mailboxId happening = some idle') :
      Run server mailboxId start ((idle, happening) :: past) idle'

/-! ## Reading the lines -/

theorem numbered_line (word : String) (number : Int) :
    numbered word ("* " ++ toString number ++ (" " ++ word)) = some number := by
  have text : ("* " ++ toString number ++ (" " ++ word)).toList =
      '*' :: ' ' :: ((toString number).toList ++ ' ' :: word.toList) := by
    simp [String.toList_append]
  have back : number.repr.toInt? = some number := Int.toInt?_repr number
  rw [numbered, text]
  simp [back]

theorem numbered_none {word line : String} (different : line.toList.getLast? ≠ word.toList.getLast?)
    (nonempty : word.toList ≠ []) : numbered word line = none := by
  unfold numbered
  split
  · rename_i rest text
    dsimp only
    split
    · rename_i suffix
      obtain ⟨front, rfl⟩ := List.isSuffixOf_iff_suffix.mp suffix
      rw [text] at different
      obtain ⟨init, last, split⟩ := (List.eq_nil_or_concat word.toList).resolve_left nonempty
      simp [split, List.getLast?_cons, List.getLast?_append] at different
    · rfl
  · rfl

theorem applyResponse_exists (count number : Int) :
    applyResponse count ("* " ++ toString number ++ " EXISTS") = some number := by
  have found : numbered "EXISTS" ("* " ++ toString number ++ " EXISTS") = some number :=
    numbered_line "EXISTS" number
  rw [applyResponse, found]

theorem applyResponse_expunge (count number : Int) :
    applyResponse count ("* " ++ toString number ++ " EXPUNGE") =
      if 1 ≤ number ∧ number ≤ count then some (count - 1) else none := by
  have found : numbered "EXPUNGE" ("* " ++ toString number ++ " EXPUNGE") = some number :=
    numbered_line "EXPUNGE" number
  have other : numbered "EXISTS" ("* " ++ toString number ++ " EXPUNGE") = none :=
    numbered_none (by simp [String.toList_append, List.getLast?_cons, List.getLast?_append]) (by simp)
  rw [applyResponse, other, found]

theorem applyResponse_flags (count : Int) (sequence : Nat) (flags : List String) :
    applyResponse count (Commands.fetchFlagsLine sequence flags) = some count := by
  have last : (Commands.fetchFlagsLine sequence flags).toList.getLast? = some ')' := by
    simp [Commands.fetchFlagsLine, String.toList_append, List.getLast?_cons, List.getLast?_append]
  have noExists : numbered "EXISTS" (Commands.fetchFlagsLine sequence flags) = none :=
    numbered_none (by rw [last]; decide) (by simp)
  have noExpunge : numbered "EXPUNGE" (Commands.fetchFlagsLine sequence flags) = none :=
    numbered_none (by rw [last]; decide) (by simp)
  rw [applyResponse, noExists, noExpunge]

theorem clientCount_append {announced : Int} {responses : List String} {count : Int}
    (counted : clientCount announced responses = some count) (line : Option String) :
    clientCount announced (responses ++ line.toList) =
      match line with
      | none => some count
      | some line => applyResponse count line := by
  unfold clientCount at counted ⊢
  cases line with
  | none => simpa using counted
  | some line => simp [List.foldlM_append, counted]

/-! ## The rows of the mailbox -/

def uids (world : World) (mailboxId : Int) : List Int :=
  (world.db.liveMessages mailboxId).map (·.data.localUid)

theorem mem_uids {world : World} {mailboxId uid : Int} :
    uid ∈ uids world mailboxId ↔ ∃ row ∈ world.db.mailboxMessages.rows,
      Db.isLiveAt mailboxId uid row = true := by
  simp only [uids, List.mem_map, Db.mem_liveMessages, Db.isLiveAt_iff]
  constructor
  · rintro ⟨row, ⟨member, mailbox, live⟩, rfl⟩
    exact ⟨row, member, mailbox, rfl, live⟩
  · rintro ⟨row, member, mailbox, uid, live⟩
    exact ⟨row, ⟨member, mailbox, live⟩, uid⟩

theorem uids_nodup (world : World) (mailboxId : Int) : (uids world mailboxId).Nodup := by
  unfold uids Db.liveMessages
  rw [List.nodup_iff_pairwise_ne, List.pairwise_map]
  refine ((world.db.mailboxMessages.distinct.filter _).imp_of_mem ?_)
  intro a b ha hb separate same
  simp only [List.mem_filter, Bool.and_eq_true, beq_iff_eq] at ha hb
  exact ((mailboxMessageKeys_admits _ _).mp separate.2).1 (ha.2.1.trans hb.2.1.symm) same

theorem uids_congr {world world' : World} (same : world'.db.mailboxMessages = world.db.mailboxMessages)
    (mailboxId : Int) : uids world' mailboxId = uids world mailboxId := by
  rw [uids, uids, Db.liveMessages_congr same]

theorem countMessages_eq (world : World) (mailboxId : Int) :
    ((world.db.listMailboxMessages mailboxId).length : Int) = (uids world mailboxId).length := by
  simp [uids, Db.listMailboxMessages]

theorem uids_put {world world' : World} {row : Row MailboxMessage}
    (put : Db.PutRow world.db world'.db row) (live : row.data.isExpunged = false) {uid : Int} :
    uid ∈ uids world' row.data.mailboxId ↔ uid = row.data.localUid ∨ uid ∈ uids world row.data.mailboxId := by
  simp only [mem_uids, Db.isLiveAt_iff]
  constructor
  · rintro ⟨other, member, mailbox, rfl, otherLive⟩
    rcases (put.rows other).mp member with rfl | ⟨old, -⟩
    · exact Or.inl rfl
    · exact Or.inr ⟨other, old, mailbox, rfl, otherLive⟩
  · rintro (rfl | ⟨other, member, mailbox, rfl, otherLive⟩)
    · exact ⟨row, (put.rows row).mpr (Or.inl rfl), rfl, rfl, live⟩
    · by_cases same : other.data.localUid = row.data.localUid
      · exact ⟨row, (put.rows row).mpr (Or.inl rfl), rfl, same.symm, live⟩
      · exact ⟨other, (put.rows other).mpr (Or.inr ⟨member, fun key => same key.2⟩), mailbox, rfl, otherLive⟩

theorem uids_drop {world world' : World} {mailboxId localUid : Int}
    (drop : Db.DropRow world.db world'.db mailboxId localUid) {uid : Int} :
    uid ∈ uids world' mailboxId ↔ uid ∈ uids world mailboxId ∧ uid ≠ localUid := by
  simp only [mem_uids]
  constructor
  · rintro ⟨row, member, live⟩
    obtain ⟨old, kept⟩ := (drop.rows row).mp member
    refine ⟨⟨row, old, live⟩, ?_⟩
    rintro rfl
    rw [live] at kept
    cases kept
  · rintro ⟨⟨row, member, live⟩, other⟩
    refine ⟨row, (drop.rows row).mpr ⟨member, ?_⟩, live⟩
    rw [← Bool.not_eq_true, Db.isLiveAt_iff]
    exact fun here => other ((Db.isLiveAt_iff.mp live).2.1.symm.trans here.2.1)

theorem length_le_of_subset {world world' : World} {mailboxId : Int}
    (subset : ∀ uid ∈ uids world mailboxId, uid ∈ uids world' mailboxId) :
    (uids world mailboxId).length ≤ (uids world' mailboxId).length :=
  ((uids_nodup world mailboxId).subperm subset).length_le

theorem position_bounds {world : World} {mailboxId localUid : Int} (here : localUid ∈ uids world mailboxId) :
    1 ≤ world.db.mailboxSequenceNumber mailboxId localUid ∧
      world.db.mailboxSequenceNumber mailboxId localUid ≤ (uids world mailboxId).length := by
  unfold Db.mailboxSequenceNumber uids at *
  rw [List.length_map]
  obtain ⟨row, member, rfl⟩ := List.mem_map.mp here
  have fewer : ((world.db.liveMessages mailboxId).filter fun other =>
      other.data.localUid < row.data.localUid).length < (world.db.liveMessages mailboxId).length := by
    rw [← List.countP_eq_length_filter]
    refine lt_of_le_of_ne List.countP_le_length fun all => ?_
    have := List.countP_eq_length.mp all row member
    simp at this
  omega

/-! ## What a completed change does -/

variable {lib : Libraries}

/-- The rows of both kinds and the events are the same. -/
structure Kept (before after : World) : Prop where
  rows : after.db.mailboxMessages = before.db.mailboxMessages
  mailboxes : after.db.mailboxes = before.db.mailboxes
  events : after.events = before.events

theorem Kept.refl (world : World) : Kept world world := ⟨rfl, rfl, rfl⟩

theorem Kept.trans {a b c : World} (first : Kept a b) (second : Kept b c) : Kept a c :=
  ⟨second.rows.trans first.rows, second.mailboxes.trans first.mailboxes,
    second.events.trans first.events⟩

def Silent (op : Op) : Prop :=
  .mailboxMessages ∉ op.writes ∧ .mailboxes ∉ op.writes ∧ .events ∉ op.writes

theorem kept_of_silent {α : Type} {p : Action α} (uses : p.Uses Silent) (world : World) :
    p.Ensures (cacheHandler lib) (noFault Error) (fun _ => Kept world) (fun _ _ => True) world := by
  refine (uses.ensures (fun op s silent kept => ?_) (Kept.refl world)).mono (fun _ _ => id) fun _ _ _ => trivial
  have rows := World.perform_frame lib s op .mailboxMessages silent.1
  have mailboxes := World.perform_frame lib s op .mailboxes silent.2.1
  have events := World.perform_frame lib s op .events silent.2.2
  exact kept.trans ⟨rows, mailboxes, events⟩

/-- After its commit a change publishes one event and nothing else that matters here. -/
structure Published (committed : World) (event : MutationEvent) (after : World) : Prop where
  rows : after.db.mailboxMessages = committed.db.mailboxMessages
  mailboxes : after.db.mailboxes = committed.db.mailboxes
  events : after.events = committed.events ++ [event]

theorem published_of_kept {committed world : World} (kept : Kept committed world) (event : MutationEvent) :
    (Repository.publishEvent event).Ensures (cacheHandler lib) (noFault Error)
      (fun _ => Published committed event) (fun _ _ => True) world := by
  rintro fault rfl
  have after : ((cacheHandler lib).answer .none (.publishEvent event) world).2 =
      { world with events := world.events ++ [event] } := rfl
  change Published committed event ((cacheHandler lib).answer .none (.publishEvent event) world).2
  rw [after]
  exact ⟨kept.rows, kept.mailboxes, congrArg (· ++ [event]) kept.events⟩

theorem upsertMailboxMessage_published (input : MailboxMessage) (world : World) :
    (Repository.upsertMailboxMessage input).Ensures (cacheHandler lib) (noFault Error)
      (fun row world' => ∃ position db, world.db.insertMailboxMessage input = .ok ((row, position), db) ∧
        Published { world with db } (.messageChangedWithContext
          (db.accountIdForMailbox row.data.mailboxId) (some row.data.mailboxId)
          (some row.data.messageId) (some row.data.localUid) (some position) row.data.flags
          "upsert_mailbox_message") world') (fun _ _ => True) world := by
  refine ensures_bind.mpr (ensures_await fun written ok => ?_)
  obtain ⟨row, position⟩ := written
  obtain ⟨db, inserted, committed⟩ := World.commit_state ok
  have state : (world.perform lib (.insertMailboxMessage input)).2 = { world with db } := committed
  rw [state]
  refine ensures_bind.mpr (ensures_await fun accountId found => ?_)
  have account : db.accountIdForMailbox row.data.mailboxId = accountId := by
    simpa [World.perform, World.read] using found
  have same : (World.perform lib { world with db } (.accountIdForMailbox row.data.mailboxId)).2 =
    { world with db } := rfl
  rw [same]
  have mapping : (Repository.recordRowMapping row).Uses Silent := by
    unfold Repository.recordRowMapping
    split
    · refine (Uses.ask ?_).bind fun _ => Uses.ask ?_ <;> simp [Silent, Op.writes]
    · trivial
  refine ensures_bind.mpr ((kept_of_silent mapping _).mono (fun _ world' kept => ?_) fun _ _ => id)
  refine ensures_bind.mpr ((published_of_kept kept _).mono (fun _ world'' published => ?_) fun _ _ => id)
  exact ⟨position, db, inserted, account ▸ published⟩

theorem updateMailboxMessageFlags_published (mailboxId localUid : Int) (flags : List String)
    (world : World) :
    (Repository.updateMailboxMessageFlags mailboxId localUid flags).Ensures (cacheHandler lib)
      (noFault Error) (fun _ world' => ∃ updated db,
        world.db.updateMailboxMessageFlags mailboxId localUid flags = .ok (updated, db) ∧
        match updated with
        | none => world' = { world with db }
        | some (row, position) => Published { world with db } (.messageChangedWithContext
            (db.accountIdForMailbox row.data.mailboxId) (some row.data.mailboxId)
            (some row.data.messageId) (some row.data.localUid) (some position) row.data.flags
            "update_mailbox_message_flags") world') (fun _ _ => True) world := by
  refine ensures_bind.mpr (ensures_await fun updated ok => ?_)
  obtain ⟨db, success, committed⟩ := World.commit_state ok
  have state : (world.perform lib (.updateMailboxMessageFlags mailboxId localUid flags)).2 =
    { world with db } := committed
  rw [state]
  cases updated with
  | none => exact ⟨none, db, success, rfl⟩
  | some updated =>
      obtain ⟨row, position⟩ := updated
      refine ensures_bind.mpr (ensures_await fun accountId found => ?_)
      have account : db.accountIdForMailbox row.data.mailboxId = accountId := by
        simpa [World.perform, World.read] using found
      subst account
      refine ensures_bind.mpr ((published_of_kept (Kept.refl { world with db }) _).mono
        (fun _ world' published => ?_) fun _ _ => id)
      exact ⟨_, db, success, published⟩

theorem copyMailboxMessage_published (source destination localUid : Int) (world : World) :
    (Repository.copyMailboxMessage source destination localUid).Ensures (cacheHandler lib)
      (noFault Error) (fun _ world' => ∃ copied db,
        world.db.copyMailboxMessage source destination localUid = .ok (copied, db) ∧
        match copied with
        | none => world' = { world with db }
        | some (row, _, position) => Published { world with db } (.messageChangedWithContext
            (db.accountIdForMailbox destination) (some destination) (some row.data.messageId)
            (some row.data.localUid) (some position) row.data.flags "copy_mailbox_message") world')
      (fun _ _ => True) world := by
  refine ensures_bind.mpr (ensures_await fun copied ok => ?_)
  obtain ⟨db, success, committed⟩ := World.commit_state ok
  have state : (world.perform lib (.copyMailboxMessage source destination localUid)).2 =
    { world with db } := committed
  rw [state]
  cases copied with
  | none => exact ⟨none, db, success, rfl⟩
  | some copied =>
      obtain ⟨row, original, position⟩ := copied
      refine ensures_bind.mpr (ensures_await fun accountId found => ?_)
      have account : db.accountIdForMailbox destination = accountId := by
        simpa [World.perform, World.read] using found
      subst account
      refine ensures_bind.mpr (ensures_orThrow (fun accountId some => ?_) fun _ => trivial)
      refine ensures_bind.mpr (ensures_await fun objects _ => ?_)
      have silent : (forEach objects fun object => await (.upsertCacheObject
          { accountId := Option.some accountId, objectType := object.objectType, blobKey := object.blobKey
            sha256 := object.sha256, sizeOctets := object.sizeOctets, refCount := 1
            lastAccessedAt := none }) : Action Unit).Uses Silent :=
        Uses.forEach fun _ _ => Uses.ask (by simp [Silent, Op.writes])
      refine ensures_bind.mpr ((kept_of_silent silent _).mono (fun _ world' kept => ?_) fun _ _ => id)
      refine ensures_bind.mpr ((published_of_kept kept _).mono (fun _ world'' published => ?_)
        fun _ _ => id)
      refine ⟨_, db, success, ?_⟩
      rw [some]
      exact published

theorem deleteMailboxMessage_published (mailboxId localUid : Int) (world : World) :
    (Repository.deleteMailboxMessage mailboxId localUid).Ensures (cacheHandler lib) (noFault Error)
      (fun _ world' => ∃ deleted db,
        world.db.deleteMailboxMessage mailboxId localUid = .ok (deleted, db) ∧
        match deleted with
        | none => world' = { world with db }
        | some (_, position) => Published { world with db } (.messageChangedWithContext
            (db.accountIdForMailbox mailboxId) (some mailboxId) none (some localUid) (some position) []
            ("delete_mailbox_message:" ++ toString localUid)) world') (fun _ _ => True) world := by
  refine ensures_bind.mpr (ensures_await fun deleted ok => ?_)
  obtain ⟨db, success, committed⟩ := World.commit_state ok
  have state : (world.perform lib (.deleteMailboxMessage mailboxId localUid)).2 =
    { world with db } := committed
  rw [state]
  cases deleted with
  | none => exact ⟨none, db, success, rfl⟩
  | some deleted =>
      obtain ⟨messageId, position⟩ := deleted
      refine ensures_bind.mpr (ensures_await fun accountId found => ?_)
      have account : db.accountIdForMailbox mailboxId = accountId := by
        simpa [World.perform, World.read] using found
      subst account
      refine ensures_bind.mpr (ensures_orThrow (fun accountId some => ?_) fun _ => trivial)
      refine ensures_bind.mpr (ensures_await fun objects _ => ?_)
      have silent : (forEach objects fun object => do
          let _ ← await (.deleteCacheObjectForAccount accountId object.blobKey)
          pure () : Action Unit).Uses Silent :=
        Uses.forEach fun _ _ => (Uses.ask (by simp [Silent, Op.writes])).bind fun _ => trivial
      refine ensures_bind.mpr ((kept_of_silent silent _).mono (fun _ world' kept => ?_) fun _ _ => id)
      refine ensures_bind.mpr ((published_of_kept kept _).mono (fun _ world'' published => ?_)
        fun _ _ => id)
      refine ⟨_, db, success, ?_⟩
      rw [some]
      exact published

end ImapCache.IdleView
