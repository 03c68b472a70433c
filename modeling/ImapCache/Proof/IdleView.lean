import ImapCache.Proof.MailboxChanges

/-!
# What an idling client counts

The events of the changes of the selected mailbox wait, in their order, until the session processes them.
The client counts from the lines that it is sent.
-/

namespace ImapCache.IdleView
open Lib Prog Counting

variable {lib : Libraries}

/-! ## The notice of a change -/

/-- What the session makes of an event of the selected mailbox. -/
inductive Tells (accountId mailboxId : Int) (event : MutationEvent) : Notice → Prop where
  | inserted (account : event.accountId = some accountId) (mailbox : event.mailboxId = some mailboxId)
      (noDelete : Session.mentions event "delete_mailbox_message" = false)
      (noFlags : (Session.mentions event "update_mailbox_message_flags" ||
        Session.mentions event "store_flags") = false) : Tells accountId mailboxId event .inserted
  | deleted {position} (account : event.accountId = some accountId)
      (mailbox : event.mailboxId = some mailboxId)
      (delete : Session.mentions event "delete_mailbox_message" = true)
      (here : event.sequenceNumber = some position) :
      Tells accountId mailboxId event (.deleted position)
  | changed {localUid} (account : event.accountId = some accountId)
      (mailbox : event.mailboxId = some mailboxId)
      (noDelete : Session.mentions event "delete_mailbox_message" = false)
      (flags : (Session.mentions event "update_mailbox_message_flags" ||
        Session.mentions event "store_flags") = true)
      (here : event.localUid = some localUid) : Tells accountId mailboxId event (.changed localUid)

/-- What a change does to the UIDs in use, and the notice that it gives of it. -/
def Alters : MailboxChange → Notice → List Int → List Int → Prop
  | .upsert _, notice, before, after => notice = .inserted ∧ before.length ≤ after.length ∧
      ∀ uid ∈ before, uid ∈ after
  | .copy _ _, notice, before, after => notice = .inserted ∧ before.length ≤ after.length ∧
      ∀ uid ∈ before, uid ∈ after
  | .delete localUid, notice, before, after => ∃ position, notice = .deleted position ∧
      (∀ uid ∈ before, uid ≠ localUid → uid ∈ after) ∧ after.length + 1 = before.length ∧
      1 ≤ position ∧ position ≤ before.length
  | .updateFlags localUid _, notice, before, after => notice = .changed localUid ∧ localUid ∈ before ∧
      (∀ uid ∈ before, uid ∈ after) ∧ after.length = before.length

theorem mentions_eq {event : MutationEvent} {detail word : String} {found : Bool}
    (text : event.detail = detail) (contains : Search.containsText detail.toList word.toList = found) :
    Session.mentions event word = found := by
  subst text
  exact contains

theorem tells_inserted {event : MutationEvent} {accountId mailboxId : Int}
    (account : event.accountId = some accountId) (mailbox : event.mailboxId = some mailboxId)
    (text : event.detail = "upsert_mailbox_message" ∨ event.detail = "copy_mailbox_message") :
    Tells accountId mailboxId event .inserted := by
  have noDelete : Session.mentions event "delete_mailbox_message" = false := by
    rcases text with text | text <;> exact mentions_eq text (by decide +kernel)
  have noUpdate : Session.mentions event "update_mailbox_message_flags" = false := by
    rcases text with text | text <;> exact mentions_eq text (by decide +kernel)
  have noStore : Session.mentions event "store_flags" = false := by
    rcases text with text | text <;> exact mentions_eq text (by decide +kernel)
  exact .inserted account mailbox noDelete (by rw [noUpdate, noStore]; rfl)

theorem tells_changed {event : MutationEvent} {accountId mailboxId localUid : Int}
    (account : event.accountId = some accountId) (mailbox : event.mailboxId = some mailboxId)
    (text : event.detail = "update_mailbox_message_flags") (here : event.localUid = some localUid) :
    Tells accountId mailboxId event (.changed localUid) := by
  have noDelete : Session.mentions event "delete_mailbox_message" = false :=
    mentions_eq text (by decide +kernel)
  have update : Session.mentions event "update_mailbox_message_flags" = true :=
    mentions_eq text (by decide +kernel)
  exact .changed account mailbox noDelete (by rw [update]; rfl) here

theorem mentions_of_start {event : MutationEvent} {detail rest : String} (text : event.detail = detail ++ rest) :
    Session.mentions event detail = true := by
  unfold Session.mentions Search.containsText
  rw [text, String.toList_append]
  cases chars : detail.toList ++ rest.toList with
  | nil =>
      have : detail.toList = [] := (List.append_eq_nil_iff.mp chars).1
      simp [Slice.findOffset, this]
  | cons c tail =>
      have here : detail.toList.isPrefixOf (c :: tail) = true := by
        rw [List.isPrefixOf_iff_prefix, ← chars]
        exact List.prefix_append _ _
      simp [Slice.findOffset, here]

theorem account_of_sequenced {db db' : Db} {mailboxId modseq : Int}
    (sequenced : Db.Sequenced db db' mailboxId modseq) (id : Int) :
    db'.accountIdForMailbox id = db.accountIdForMailbox id := by
  have effect : MailboxEffect (.deleteMailboxMessage mailboxId 0) (db.mailbox id) (db'.mailbox id) :=
    sequenced.effect rfl id
  unfold Db.accountIdForMailbox
  generalize db.mailbox id = before at effect
  generalize db'.mailbox id = after at effect
  cases effect with
  | same => rfl
  | created insert => rcases insert with insert | insert <;> cases insert
  | overwritten upsert => cases upsert
  | removed delete => cases delete
  | subscribed | renamed | selected | counted | sequenced => rfl

/-- A completed change has told of itself, or it has changed nothing. -/
def Told (change : MailboxChange) (accountId mailboxId : Int) (before after : World) : Prop :=
  (after.events = before.events ∧ (∀ uid ∈ uids before mailboxId, uid ∈ uids after mailboxId) ∧
    (uids after mailboxId).length = (uids before mailboxId).length) ∨
  ∃ event notice, after.events = before.events ++ [event] ∧ Tells accountId mailboxId event notice ∧
    Alters change notice (uids before mailboxId) (uids after mailboxId)

theorem told_of_same {change : MailboxChange} {accountId mailboxId : Int} {before after : World}
    (events : after.events = before.events)
    (rows : ∀ row, row ∈ after.db.mailboxMessages.rows ↔ row ∈ before.db.mailboxMessages.rows) :
    Told change accountId mailboxId before after := by
  have same : ∀ uid, uid ∈ uids after mailboxId ↔ uid ∈ uids before mailboxId := by
    intro uid
    simp only [mem_uids, rows]
  refine Or.inl ⟨events, fun uid => (same uid).mpr, le_antisymm ?_ ?_⟩
  · exact length_le_of_subset fun uid => (same uid).mp
  · exact length_le_of_subset fun uid => (same uid).mpr

variable {mailboxId accountId : Int} {world : World}

theorem account_of_published {db : Db} {event : MutationEvent} {world' : World}
    (published : Published { world with db } event world')
    (same : db.accountIdForMailbox mailboxId = some accountId) :
    world'.db.accountIdForMailbox mailboxId = some accountId := by
  rw [← same, Db.accountIdForMailbox, Db.accountIdForMailbox, Db.mailbox_congr published.mailboxes]

theorem put_told {change : MailboxChange} {db : Db} {row : Row MailboxMessage} {world' : World}
    {event : MutationEvent} (put : Db.PutRow world.db db row) (live : row.data.isExpunged = false)
    (mailbox : row.data.mailboxId = mailboxId) (published : Published { world with db } event world')
    (tells : Tells accountId mailboxId event .inserted)
    (insertion : ∀ before after : List Int, before.length ≤ after.length → (∀ uid ∈ before, uid ∈ after) →
      Alters change .inserted before after) : Told change accountId mailboxId world world' := by
  subst mailbox
  have grows : ∀ uid ∈ uids world row.data.mailboxId, uid ∈ uids world' row.data.mailboxId := by
    intro uid used
    rw [uids_congr published.rows]
    exact (@uids_put world { world with db } row put live uid).mpr (Or.inr used)
  exact Or.inr ⟨event, _, published.events, tells, insertion _ _ (length_le_of_subset grows) grows⟩

theorem upsert_told (account : world.db.accountIdForMailbox mailboxId = some accountId)
    (input : MailboxMessage) :
    ((MailboxChange.upsert input).code mailboxId).Ensures (cacheHandler lib) (noFault Error)
      (fun _ world' => world'.db.accountIdForMailbox mailboxId = some accountId ∧
        Told (.upsert input) accountId mailboxId world world') (fun _ _ => True) world := by
  refine ensures_bind.mpr ((upsertMailboxMessage_published _ world).mono ?_ fun _ _ => id)
  rintro row world' ⟨position, db, inserted, published⟩
  obtain ⟨put, ⟨modseq, data⟩, -, -⟩ := Db.insertMailboxMessage_ok inserted
  obtain ⟨_, -, sequenced⟩ := Db.insertMailboxMessage_sequenced inserted
  have mailbox : row.data.mailboxId = mailboxId := by rw [data]
  have owner : db.accountIdForMailbox mailboxId = some accountId :=
    (account_of_sequenced sequenced mailboxId).trans account
  rw [mailbox, owner] at published
  refine ⟨account_of_published published owner, ?_⟩
  exact put_told put (by rw [data]) mailbox published (tells_inserted rfl rfl (Or.inl rfl))
    fun _ _ grows subset => ⟨rfl, grows, subset⟩

theorem copy_told (account : world.db.accountIdForMailbox mailboxId = some accountId)
    (source localUid : Int) :
    ((MailboxChange.copy source localUid).code mailboxId).Ensures (cacheHandler lib) (noFault Error)
      (fun _ world' => world'.db.accountIdForMailbox mailboxId = some accountId ∧
        Told (.copy source localUid) accountId mailboxId world world') (fun _ _ => True) world := by
  refine ensures_bind.mpr ((copyMailboxMessage_published source mailboxId localUid world).mono ?_
    fun _ _ => id)
  rintro _ world' ⟨copied, db, success, published⟩
  rcases Db.copyMailboxMessage_ok success with
    ⟨rfl, rfl, -⟩ | ⟨original, -, -, row, position, rfl, put, -, ⟨modseq, data⟩, -⟩
  · subst published
    exact ⟨account, told_of_same rfl fun _ => Iff.rfl⟩
  · have owner : db.accountIdForMailbox mailboxId = some accountId := by
      rcases Db.copyMailboxMessage_sequenced success with rfl | ⟨_, sequenced, -⟩
      · exact account
      · exact (account_of_sequenced sequenced mailboxId).trans account
    dsimp only at published
    rw [owner] at published
    refine ⟨account_of_published published owner, ?_⟩
    exact put_told put (by rw [data]) (by rw [data]) published (tells_inserted rfl rfl (Or.inr rfl))
      fun _ _ grows subset => ⟨rfl, grows, subset⟩

theorem delete_told (account : world.db.accountIdForMailbox mailboxId = some accountId)
    (localUid : Int) :
    ((MailboxChange.delete localUid).code mailboxId).Ensures (cacheHandler lib) (noFault Error)
      (fun _ world' => world'.db.accountIdForMailbox mailboxId = some accountId ∧
        Told (.delete localUid) accountId mailboxId world world') (fun _ _ => True) world := by
  refine ensures_bind.mpr ((deleteMailboxMessage_published mailboxId localUid world).mono ?_ fun _ _ => id)
  rintro _ world' ⟨deleted, db, success, published⟩
  rcases Db.deleteMailboxMessage_ok success with
    ⟨rfl, rfl, -⟩ | ⟨target, member, live, ⟨position, rfl⟩, drop⟩
  · subst published
    exact ⟨account, told_of_same rfl fun _ => Iff.rfl⟩
  · have owner : db.accountIdForMailbox mailboxId = some accountId := by
      rcases Db.deleteMailboxMessage_sequenced success with rfl | ⟨_, sequenced, -⟩
      · exact account
      · exact (account_of_sequenced sequenced mailboxId).trans account
    dsimp only at published
    rw [owner] at published
    have text : "delete_mailbox_message:" ++ toString localUid =
        "delete_mailbox_message" ++ (":" ++ toString localUid) := by
      rw [← String.append_assoc]
      rfl
    refine ⟨account_of_published published owner, Or.inr ⟨_, _, published.events,
      .deleted rfl rfl (mentions_of_start text) rfl, position, rfl, ?_⟩⟩
    have here : localUid ∈ uids world mailboxId := mem_uids.mpr ⟨target, member, live⟩
    have dropped : ∀ uid, uid ∈ uids world' mailboxId ↔ uid ∈ uids world mailboxId ∧ uid ≠ localUid := by
      intro uid
      rw [uids_congr published.rows]
      exact @uids_drop world { world with db } mailboxId localUid drop uid
    have erased : (uids world' mailboxId).Perm ((uids world mailboxId).erase localUid) := by
      refine (List.perm_ext_iff_of_nodup (uids_nodup ..) ((uids_nodup ..).erase _)).mpr fun uid => ?_
      rw [dropped, (uids_nodup world mailboxId).mem_erase_iff, and_comm]
    have length : (uids world' mailboxId).length + 1 = (uids world mailboxId).length := by
      rw [erased.length_eq, List.length_erase_of_mem here]
      have := List.length_pos_of_mem here
      omega
    rw [Db.deleteMailboxMessage_position success]
    exact ⟨fun uid used other => (dropped uid).mpr ⟨used, other⟩, length, position_bounds here⟩

theorem updateFlags_told (account : world.db.accountIdForMailbox mailboxId = some accountId)
    (localUid : Int) (flags : List String) :
    ((MailboxChange.updateFlags localUid flags).code mailboxId).Ensures (cacheHandler lib) (noFault Error)
      (fun _ world' => world'.db.accountIdForMailbox mailboxId = some accountId ∧
        Told (.updateFlags localUid flags) accountId mailboxId world world') (fun _ _ => True) world := by
  refine ensures_bind.mpr ((updateMailboxMessageFlags_published mailboxId localUid flags world).mono ?_
    fun _ _ => id)
  rintro _ world' ⟨updated, db, success, published⟩
  obtain ⟨_, sequenced, -⟩ := Db.updateMailboxMessageFlags_sequenced success
  have owner : db.accountIdForMailbox mailboxId = some accountId :=
    (account_of_sequenced sequenced mailboxId).trans account
  rcases Db.updateMailboxMessageFlags_ok success with
    ⟨rfl, keep, -⟩ | ⟨old, member, live, modseq, position, rfl, put⟩
  · subst published
    exact ⟨owner, told_of_same rfl keep.rows⟩
  · obtain ⟨mailbox, uid, notExpunged⟩ := Db.isLiveAt_iff.mp live
    dsimp only at published
    rw [mailbox, uid, owner] at published
    refine ⟨account_of_published published owner, Or.inr ⟨_, _, published.events,
      tells_changed rfl rfl rfl rfl, rfl, ?_⟩⟩
    have here : localUid ∈ uids world mailboxId := mem_uids.mpr ⟨old, member, live⟩
    have same : ∀ other, other ∈ uids world' mailboxId ↔ other ∈ uids world mailboxId := by
      intro other
      rw [uids_congr published.rows]
      have changed := @uids_put world { world with db } _ put notExpunged other
      dsimp only at changed
      rw [mailbox, uid] at changed
      rw [changed]
      exact ⟨fun used => used.elim (fun eq => eq ▸ here) id, Or.inr⟩
    refine ⟨here, fun other => (same other).mpr, le_antisymm ?_ ?_⟩
    · exact length_le_of_subset fun other => (same other).mp
    · exact length_le_of_subset fun other => (same other).mpr

theorem change_told (account : world.db.accountIdForMailbox mailboxId = some accountId)
    (change : MailboxChange) {world' : World}
    (done : (change.code mailboxId).eval (cacheHandler lib) world = (.ok (), world')) :
    world'.db.accountIdForMailbox mailboxId = some accountId ∧
      Told change accountId mailboxId world world' := by
  have ensures : (change.code mailboxId).Ensures (cacheHandler lib) (noFault Error)
      (fun _ world' => world'.db.accountIdForMailbox mailboxId = some accountId ∧
        Told change accountId mailboxId world world') (fun _ _ => True) world := by
    cases change with
    | upsert input => exact upsert_told account input
    | copy source localUid => exact copy_told account source localUid
    | delete localUid => exact delete_told account localUid
    | updateFlags localUid flags => exact updateFlags_told account localUid flags
  have result := ensures.eval.1 ()
  rw [done] at result
  exact result rfl

/-! ## Processing an event -/

def selected (accountId mailboxId : Int) (existsCount : Int) : Option Session.SelectedMailboxSnapshot :=
  some ⟨accountId, mailboxId, existsCount⟩

variable {server : Session.Server} {session : Session.ImapSession} {event : MutationEvent}
  {compared : Int}

theorem notification_addressed (repository : server.services.repository = true)
    (snapshot : session.selectedMailboxSnapshot = selected accountId mailboxId compared)
    (account : event.accountId = some accountId) (mailbox : event.mailboxId = some mailboxId) :
    Session.idleNotificationForEvent server session event =
      Session.selectedNotification session ⟨accountId, mailboxId, compared⟩ event := by
  simp [Session.idleNotificationForEvent, snapshot, selected, account, mailbox, repository]

theorem withExists_snapshot (existsCount : Int)
    (snapshot : session.selectedMailboxSnapshot = selected accountId mailboxId compared) :
    (Session.withExists session existsCount).selectedMailboxSnapshot =
      selected accountId mailboxId existsCount := by
  simp [Session.withExists, snapshot, selected]

theorem eval_countMessages (world : World) (mailboxId : Int) :
    (Session.countMessages mailboxId).eval (cacheHandler lib) world =
      (.ok ((uids world mailboxId).length : Int), world) := by
  have count := countMessages_eq world mailboxId
  simp only [Session.countMessages, bind_eq, pure_eq, eval_bind]
  change (Except.ok ((world.db.listMailboxMessages mailboxId).length : Int), world) = _
  rw [count]

theorem eval_deleted {position : Int}
    (delete : Session.mentions event "delete_mailbox_message" = true)
    (here : event.sequenceNumber = some position) :
    (Session.selectedNotification session ⟨accountId, mailboxId, compared⟩ event).eval
        (cacheHandler lib) world =
      (.ok (some ("* " ++ toString position ++ " EXPUNGE"),
        Session.withExists session (uids world mailboxId).length), world) := by
  simp only [Session.selectedNotification, delete, here, if_true, bind_eq, pure_eq, eval_bind,
    eval_countMessages]
  rfl

theorem eval_changed {localUid : Int} (noDelete : Session.mentions event "delete_mailbox_message" = false)
    (flags : (Session.mentions event "update_mailbox_message_flags" ||
      Session.mentions event "store_flags") = true) (here : event.localUid = some localUid)
    (present : localUid ∈ uids world mailboxId) :
    ∃ sequence, (Session.selectedNotification session ⟨accountId, mailboxId, compared⟩ event).eval
        (cacheHandler lib) world =
      (.ok (some (Commands.fetchFlagsLine sequence event.flags),
        Session.withExists session (uids world mailboxId).length), world) := by
  have found : ((world.db.listMailboxMessages mailboxId).findIdx? (·.data.localUid == localUid)).isSome := by
    rw [List.findIdx?_isSome, List.any_eq_true]
    obtain ⟨row, member, uid⟩ := List.mem_map.mp present
    exact ⟨row, Db.mem_listMailboxMessages.mpr member, by simpa using uid⟩
  obtain ⟨index, found⟩ := Option.isSome_iff_exists.mp found
  have position : (Commands.sequenceNumberForLocalUid mailboxId localUid).eval (cacheHandler lib) world =
      (.ok (some (index + 1)), world) := by
    change (Except.ok (((world.db.listMailboxMessages mailboxId).findIdx?
      (·.data.localUid == localUid)).map (· + 1)), world) = _
    rw [found]
    rfl
  refine ⟨index + 1, ?_⟩
  simp only [Session.selectedNotification, noDelete, Bool.false_eq_true, if_false, flags, if_true,
    Session.flagsNotification, here, bind_eq, pure_eq, eval_bind, position, eval_countMessages]
  rfl

/-- The notice of an insertion is an EXISTS if there are more messages than were announced. -/
theorem eval_inserted (noDelete : Session.mentions event "delete_mailbox_message" = false)
    (noFlags : (Session.mentions event "update_mailbox_message_flags" ||
      Session.mentions event "store_flags") = false)
    (bound : compared ≤ (uids world mailboxId).length) :
    (Session.selectedNotification session ⟨accountId, mailboxId, compared⟩ event).eval
        (cacheHandler lib) world =
      (.ok (if compared < (uids world mailboxId).length then
        (some ("* " ++ toString ((uids world mailboxId).length : Int) ++ " EXISTS"),
          Session.withExists session (uids world mailboxId).length) else (none, session)), world) := by
  simp only [Session.selectedNotification, noDelete, Bool.false_eq_true, if_false, noFlags,
    Session.existsNotification, bind_eq, pure_eq, ret_bind, eval_bind, eval_countMessages]
  split
  · simp [eval]
  · have notFewer : ¬ ((uids world mailboxId).length : Int) < compared := by omega
    simp [notFewer, eval]

/-! ## Runs -/

/-- What happens does not overtake a waiting event that it would make the client miscount with: a
message is inserted while only insertions wait, and one is deleted while no insertion and no flag
change of that message waits. -/
def orderly (mailboxId : Int) (idle : Idle) : Happening → Bool
  | .change (.upsert _) | .change (.copy _ _) => idle.waiting.all fun event =>
      !Session.mentions event "delete_mailbox_message" &&
        !(Session.mentions event "update_mailbox_message_flags" || Session.mentions event "store_flags")
  | .change (.delete localUid) => (uids idle.world mailboxId).all (· != localUid) ||
      idle.waiting.all fun event => Session.mentions event "delete_mailbox_message" ||
        (Session.mentions event "update_mailbox_message_flags" || Session.mentions event "store_flags") &&
          event.localUid != some localUid
  | .change (.updateFlags _ _) => true
  | .process => true

/-- The session knows its mailbox, the events that wait tell of notices, and the count that the client
has read from its lines is consistent with them. -/
structure Sound (accountId mailboxId announced : Int) (idle : Idle) (notices : List Notice)
    (count compared : Int) : Prop where
  account : idle.world.db.accountIdForMailbox mailboxId = some accountId
  snapshot : idle.session.selectedMailboxSnapshot = selected accountId mailboxId compared
  tells : List.Forall₂ (Tells accountId mailboxId) idle.waiting notices
  counted : clientCount announced idle.responses = some count
  consistent : Consistent (uids idle.world mailboxId) notices count compared

variable {announced count : Int} {idle idle' : Idle} {notices : List Notice}

theorem exists_teller {waiting : List MutationEvent}
    (tells : List.Forall₂ (Tells accountId mailboxId) waiting notices) {notice : Notice}
    (member : notice ∈ notices) : ∃ event ∈ waiting, Tells accountId mailboxId event notice := by
  induction tells with
  | nil => cases member
  | @cons event first events rest tell _ ih =>
      rcases List.mem_cons.mp member with rfl | later
      · exact ⟨event, List.mem_cons_self .., tell⟩
      · obtain ⟨other, waits, told⟩ := ih later
        exact ⟨other, List.mem_cons_of_mem _ waits, told⟩

theorem sound_change (sound : Sound accountId mailboxId announced idle notices count compared)
    {change : MailboxChange} (allowed : orderly mailboxId idle (.change change) = true)
    (taken : idle.step server mailboxId (.change change) = some idle') :
    ∃ notices', Sound accountId mailboxId announced idle' notices' count compared := by
  simp only [Idle.step] at taken
  split at taken
  · rename_i world' done
    cases taken
    obtain ⟨account, told⟩ := change_told sound.account change done
    rcases told with ⟨events, keeps, length⟩ | ⟨event, notice, events, tells, alters⟩
    · refine ⟨notices, account, sound.snapshot, ?_, sound.counted, sound.consistent.keep keeps length⟩
      simpa [events] using sound.tells
    · refine ⟨notices ++ [notice], account, sound.snapshot, ?_, sound.counted, ?_⟩
      · rw [events, List.drop_left]
        exact List.rel_append sound.tells (.cons tells .nil)
      · cases change with
        | upsert input | copy source localUid =>
            have only : ∀ notice ∈ notices, notice = .inserted := by
              intro notice member
              obtain ⟨event, waits, tell⟩ := exists_teller sound.tells member
              have kind := List.all_eq_true.mp allowed event waits
              cases tell with
              | inserted => rfl
              | deleted _ _ delete => simp [delete] at kind
              | changed _ _ _ flags => simp [flags] at kind
            obtain ⟨rfl, longer, -⟩ := alters
            exact sound.consistent.insert only longer
        | delete localUid =>
            obtain ⟨position, rfl, keeps, shrinks, first, last⟩ := alters
            have there : localUid ∈ uids idle.world mailboxId := by
              by_contra absent
              have all : ∀ uid ∈ uids idle.world mailboxId, uid ∈ uids world' mailboxId :=
                fun uid used => keeps uid used fun eq => absent (eq ▸ used)
              have := length_le_of_subset all
              omega
            have waiting : ∀ event ∈ idle.waiting,
                (Session.mentions event "delete_mailbox_message" ||
                  (Session.mentions event "update_mailbox_message_flags" ||
                    Session.mentions event "store_flags") && event.localUid != some localUid) = true := by
              rcases Bool.or_eq_true_iff.mp allowed with none | all
              · have := List.all_eq_true.mp none localUid there
                simp at this
              · exact List.all_eq_true.mp all
            have noInsertion : Notice.inserted ∉ notices := by
              intro member
              obtain ⟨event, waits, tell⟩ := exists_teller sound.tells member
              have kind := waiting event waits
              cases tell with
              | inserted _ _ noDelete noFlags => simp [noDelete, noFlags] at kind
            have noChange : Notice.changed localUid ∉ notices := by
              intro member
              obtain ⟨event, waits, tell⟩ := exists_teller sound.tells member
              have kind := waiting event waits
              cases tell with
              | changed _ _ noDelete flags here => simp [noDelete, here] at kind
            exact sound.consistent.delete noInsertion noChange keeps shrinks first last
        | updateFlags localUid flags =>
            obtain ⟨rfl, there, keeps, length⟩ := alters
            exact (sound.consistent.keep keeps length).change (keeps localUid there)
  · cases taken

theorem sound_process (repository : server.services.repository = true)
    (sound : Sound accountId mailboxId announced idle notices count compared)
    (taken : idle.step server mailboxId .process = some idle') :
    ∃ notices' count' compared', Sound accountId mailboxId announced idle' notices' count' compared' := by
  obtain ⟨account, snapshot, tells, counted, consistent⟩ := sound
  simp only [Idle.step] at taken
  split at taken
  · cases taken
  · rename_i event waiting queue
    rw [queue] at tells
    cases tells with
    | @cons _ notice _ rest tell others =>
        cases tell with
        | inserted accountOf mailboxOf noDelete noFlags =>
            obtain ⟨rfl, bound, after⟩ := consistent.arrive_inserted
            rw [notification_addressed repository snapshot accountOf mailboxOf,
              eval_inserted noDelete noFlags bound] at taken
            by_cases more : count < (uids idle.world mailboxId).length
            · rw [if_pos more] at taken
              cases taken
              refine ⟨rest, _, _, account, withExists_snapshot _ snapshot, others, ?_, after⟩
              rw [clientCount_append counted]
              exact applyResponse_exists ..
            · rw [if_neg more] at taken
              cases taken
              have same : ((uids idle.world mailboxId).length : Int) = count := by omega
              refine ⟨rest, count, count, account, snapshot, others, ?_, same ▸ after⟩
              rw [clientCount_append counted]
        | deleted accountOf mailboxOf delete here =>
            obtain ⟨first, last, after⟩ := consistent.arrive_deleted
            rw [notification_addressed repository snapshot accountOf mailboxOf,
              eval_deleted delete here] at taken
            cases taken
            refine ⟨rest, _, _, account, withExists_snapshot _ snapshot, others, ?_, after⟩
            rw [clientCount_append counted]
            simp only [applyResponse_expunge, first, last, and_self, if_true]
        | changed accountOf mailboxOf noDelete flags here =>
            obtain ⟨present, after⟩ := consistent.arrive_changed
            obtain ⟨sequence, evaluated⟩ := eval_changed noDelete flags here present
            rw [notification_addressed repository snapshot accountOf mailboxOf, evaluated] at taken
            cases taken
            refine ⟨rest, _, _, account, withExists_snapshot _ snapshot, others, ?_, after⟩
            rw [clientCount_append counted]
            exact applyResponse_flags ..

/-- An idling session that has announced the number of messages of its selected mailbox. -/
structure Starts (server : Session.Server) (accountId mailboxId : Int) (start : Idle) : Prop where
  repository : server.services.repository = true
  account : start.world.db.accountIdForMailbox mailboxId = some accountId
  snapshot : start.session.selectedMailboxSnapshot =
    selected accountId mailboxId (uids start.world mailboxId).length
  waiting : start.waiting = []
  responses : start.responses = []

theorem sound_run {start : Idle} (starts : Starts server accountId mailboxId start)
    {past : List (Idle × Happening)} (run : Run server mailboxId start past idle)
    (ordered : ∀ moment ∈ past, orderly mailboxId moment.1 moment.2 = true) :
    ∃ notices count compared, Sound accountId mailboxId (uids start.world mailboxId).length idle notices
      count compared := by
  induction run with
  | start =>
      refine ⟨[], _, _, starts.account, starts.snapshot, ?_, ?_, Consistent.start _⟩
      · rw [starts.waiting]
        exact .nil
      · rw [starts.responses]
        rfl
  | @step past idle idle' run happening taken ih =>
      obtain ⟨notices, count, compared, sound⟩ :=
        ih fun moment member => ordered moment (List.mem_cons_of_mem _ member)
      have allowed := ordered _ (List.mem_cons_self ..)
      cases happening with
      | change change =>
          obtain ⟨notices', after⟩ := sound_change sound allowed taken
          exact ⟨notices', count, compared, after⟩
      | process => exact sound_process starts.repository sound taken

/-- In every run in which no change overtakes a waiting event that it would make the client miscount
with, every EXPUNGE is in range, and once all events have been processed the client has counted the
messages of the mailbox. -/
theorem client_counts_messages {start : Idle} (starts : Starts server accountId mailboxId start)
    {past : List (Idle × Happening)} (run : Run server mailboxId start past idle)
    (ordered : ∀ moment ∈ past, orderly mailboxId moment.1 moment.2 = true) :
    ∃ count, clientCount (uids start.world mailboxId).length idle.responses = some count ∧
      (idle.waiting = [] → count = (uids idle.world mailboxId).length) := by
  obtain ⟨notices, count, compared, sound⟩ := sound_run starts run ordered
  refine ⟨count, sound.counted, fun processed => ?_⟩
  have tells := sound.tells
  rw [processed] at tells
  cases tells
  exact sound.consistent.count_eq

/-! ## Two runs on an INBOX with one message -/

def follow (server : Session.Server) (mailboxId : Int) (past : List (Idle × Happening)) (idle : Idle) :
    List Happening → Option (List (Idle × Happening) × Idle)
  | [] => some (past, idle)
  | happening :: happenings =>
      match idle.step server mailboxId happening with
      | none => none
      | some idle' => follow server mailboxId ((idle, happening) :: past) idle' happenings

theorem follow_run {start : Idle} {past past' : List (Idle × Happening)} {happenings : List Happening}
    (run : Run server mailboxId start past idle)
    (followed : follow server mailboxId past idle happenings = some (past', idle')) :
    Run server mailboxId start past' idle' := by
  induction happenings generalizing past idle with
  | nil =>
      cases followed
      exact run
  | cons happening happenings ih =>
      simp only [follow] at followed
      split at followed
      · cases followed
      · rename_i next taken
        exact ih (run.step happening taken) followed

def sampleServer : Session.Server := ⟨Sample.libraries, ⟨.denyAll, ⟨5, 60000000000⟩, true, true, true⟩, 0⟩

def oneMessage : Idle :=
  { world := Sample.world (Sample.db [Sample.mailbox "INBOX" (some 7)] [Sample.row 1 1 (some 1) []])
      (Sample.emptyServer (some 7))
    waiting := []
    session := ⟨.selectedMailbox "INBOX" false, some ⟨1, some 1, "a"⟩, 1, none, true, some ⟨1, 1, 1⟩,
      true, false⟩
    responses := [] }

theorem oneMessage_starts : Starts sampleServer 1 1 oneMessage where
  repository := rfl
  account := by decide +kernel
  snapshot := by decide +kernel
  waiting := rfl
  responses := rfl

/-- The lines sent, whether all events are processed, the number of messages, and whether no change
has overtaken an event. -/
def observed (run : List (Idle × Happening) × Idle) : List String × Bool × Nat × Bool :=
  (run.2.responses, run.2.waiting.isEmpty, (uids run.2.world 1).length,
    run.1.all fun moment => orderly 1 moment.1 moment.2)

theorem client_counts_messages_processed : ∃ past idle, Run sampleServer 1 oneMessage past idle ∧
    idle.responses = ["* 2 EXISTS", "* 1 EXPUNGE"] ∧
      clientCount 1 idle.responses = some ((uids idle.world 1).length : Int) := by
  have evaluated : (follow sampleServer 1 [] oneMessage [.change (.upsert (Sample.row 1 0 none [])),
      .process, .change (.delete 1), .process]).map observed =
        some (["* 2 EXISTS", "* 1 EXPUNGE"], true, 1, true) := by
    decide +kernel
  obtain ⟨⟨past, idle⟩, followed, result⟩ := Option.map_eq_some_iff.mp evaluated
  simp only [observed, Prod.mk.injEq, List.isEmpty_iff, List.all_eq_true] at result
  obtain ⟨responses, processed, -, ordered⟩ := result
  have run := follow_run .start followed
  obtain ⟨count, counted, right⟩ := client_counts_messages oneMessage_starts run ordered
  have announced : ((uids oneMessage.world 1).length : Int) = 1 := by decide +kernel
  rw [announced] at counted
  exact ⟨past, idle, run, responses, counted.trans (congrArg some (right processed))⟩

/-- A message arrives and is deleted before the session looks: the insertion is not announced, and
the client is told to remove a second message of one. -/
theorem client_miscounts : ∃ past idle, Run sampleServer 1 oneMessage past idle ∧ idle.waiting = [] ∧
    clientCount (uids oneMessage.world 1).length idle.responses = none ∧
      (uids idle.world 1).length = 1 := by
  have evaluated : (follow sampleServer 1 [] oneMessage [.change (.upsert (Sample.row 1 0 none [])),
      .change (.delete 2), .process, .process]).map observed =
        some (["* 2 EXPUNGE"], true, 1, false) := by
    decide +kernel
  obtain ⟨⟨past, idle⟩, followed, result⟩ := Option.map_eq_some_iff.mp evaluated
  simp only [observed, Prod.mk.injEq, List.isEmpty_iff] at result
  obtain ⟨responses, processed, messages, -⟩ := result
  refine ⟨past, idle, follow_run .start followed, processed, ?_, messages⟩
  have announced : ((uids oneMessage.world 1).length : Int) = 1 := by decide +kernel
  have line : applyResponse 1 "* 2 EXPUNGE" = none := applyResponse_expunge 1 2
  rw [responses, announced]
  simp [clientCount, line]

end ImapCache.IdleView
