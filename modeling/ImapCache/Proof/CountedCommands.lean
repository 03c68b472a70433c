import ImapCache.Proof.ReferenceCounts

/-!
# Commands that keep the reference counts right

What copying, deleting and pruning do to the counts, and when they keep them right.
-/

namespace ImapCache.CacheCommand
open Lib Prog

/-- The command leaves consistent tables with the right counts, and gives up no blob that is used. -/
structure Kept (lib : Libraries) (createdAt : Int → Time) (world : World) (command : CacheCommand) : Prop where
  consistent : (command.apply lib createdAt world).db.Consistent
  right : (command.apply lib createdAt world).db.CountsRight
  safe : command.GivesUpSafely lib createdAt world

def keepsObjects : Op → Bool
  | .deleteCacheObjectForAccount _ _ => false
  | _ => true

theorem uses_await {op : Op} (keeps : keepsObjects op = true) :
    (await op).Uses fun op : Op => keepsObjects op = true := Uses.ask keeps

theorem avoids_of_uses {lib : Libraries} {α : Type} {p : Action α} (uses : p.Uses fun op : Op => keepsObjects op = true)
    (world : World) : p.Avoids (cacheHandler lib) GivesUpSafely.bad world := by
  refine uses.avoids (fun op world keeps => ?_) world
  cases op with
  | deleteCacheObjectForAccount _ _ => cases keeps
  | _ => exact not_false

section
variable {lib : Libraries} {createdAt : Int → Time} {world : World}

theorem keeps_safe {op : Op} (keeps : keepsObjects op = true) : ¬ GivesUpSafely.bad op world := by
  cases op with
  | deleteCacheObjectForAccount _ _ => cases keeps
  | _ => exact not_false

theorem avoids_await_bind {op : Op} {α : Type} {next : op.Ret → Action α} {value : op.Ret} {world' : World}
    (keeps : keepsObjects op = true) (performed : world.perform lib op = (.ok value, world'))
    (rest : (next value).Avoids (cacheHandler lib) GivesUpSafely.bad world') :
    ((await op).bind next).Avoids (cacheHandler lib) GivesUpSafely.bad world := by
  rw [avoids_bind]
  refine ⟨⟨keeps_safe keeps, ?_⟩, fun value' after evaluated => ?_⟩
  · rw [cacheHandler_exec, performed]
    trivial
  · rw [eval_ask, cacheHandler_exec, performed] at evaluated
    cases evaluated
    exact rest

theorem publish_eval (lib : Libraries) {α : Type} (event : MutationEvent) (value : α) (after : World) :
    ∃ told, ((Repository.publishEvent event).bind fun _ => pure value : Action α).eval (cacheHandler lib) after =
        (.ok value, told) ∧ told.db = after.db :=
  ⟨_, rfl, rfl⟩

theorem avoids_await_bind_error {op : Op} {α : Type} {next : op.Ret → Action α} {failure : Error} {world' : World}
    (keeps : keepsObjects op = true) (performed : world.perform lib op = (.error failure, world')) :
    ((await op).bind next).Avoids (cacheHandler lib) GivesUpSafely.bad world := by
  rw [avoids_bind]
  refine ⟨⟨keeps_safe keeps, ?_⟩, fun value' after evaluated => ?_⟩
  · rw [cacheHandler_exec, performed]
    trivial
  · rw [eval_ask, cacheHandler_exec, performed] at evaluated
    cases evaluated

/-! ## Deleting a message -/

theorem deleteMailboxMessage_mailbox {db db' : Db} {mailboxId localUid messageId position : Int}
    (ok : db.deleteMailboxMessage mailboxId localUid = .ok (some (messageId, position), db')) :
    ∃ accountId, db.accountIdForMailbox mailboxId = some accountId := by
  unfold Db.deleteMailboxMessage at ok
  split at ok
  · cases ok
  · simp only [Bind.bind, Except.bind] at ok
    split at ok
    · cases ok
    · rename_i assigned
      obtain ⟨_, -, -, row, member, same⟩ := Db.assignMailboxModseq_ok assigned
      have found : db.mailbox mailboxId = some row := Table.find_id.mpr ⟨member, same⟩
      exact ⟨row.data.accountId, by rw [Db.accountIdForMailbox, found, Option.map_some]⟩

/-- What deleting a message does once its row is gone. -/
def afterDelete (mailboxId localUid messageId position : Int) : Action Nat := do
  let accountId ← await (.accountIdForMailbox mailboxId)
  let accountId ← orThrow accountId (.storage
    ("mailbox not found for cache refcount update: " ++ toString mailboxId))
  let objects ← await (.listMessageCacheObjects accountId messageId)
  releaseEach accountId objects
  Repository.publishEvent (.messageChangedWithContext (some accountId) (some mailboxId) none
    (some localUid) (some position) [] ("delete_mailbox_message:" ++ toString localUid))
  pure 1

theorem afterDelete_kept (lib : Libraries) {db : Db} {mailboxId localUid : Int} (consistent : db.Consistent)
    (right : db.CountsRight) {target : Row MailboxMessage} (member : target ∈ db.mailboxMessages.rows)
    (live : Db.isLiveAt mailboxId localUid target = true) (drop : Db.DropRow db world.db mailboxId localUid)
    {accountId : Int} (owner : db.accountIdForMailbox mailboxId = some accountId) (position : Int) :
    ∃ world', (afterDelete mailboxId localUid target.data.messageId position).eval (cacheHandler lib) world =
        (.ok 1, world') ∧ world'.db.Consistent ∧ world'.db.CountsRight ∧
      (afterDelete mailboxId localUid target.data.messageId position).Avoids (cacheHandler lib)
        GivesUpSafely.bad world := by
  have perm := drop.perm member live
  have writes := drop.frame
  have place : target.data.mailboxId = mailboxId ∧ target.data.isExpunged = false := by
    simp only [Db.isLiveAt, Bool.and_eq_true, beq_iff_eq, Bool.not_eq_true'] at live
    exact ⟨live.1.1, live.2⟩
  have consistent' : world.db.Consistent := by
    refine consistent.writesRows writes fun row here => ?_
    exact consistent.rowMessages row (perm.mem_iff.mpr (List.mem_cons_of_mem _ here))
  have others : world.db.messages = db.messages ∧ world.db.mimeParts = db.mimeParts ∧
      world.db.cacheObjects = db.cacheObjects := by
    obtain ⟨_, _, same, -⟩ := writes
    rw [same]
    exact ⟨rfl, rfl, rfl⟩
  have counted (other : Int) (key : String) : world.db.countedReferences other key =
      world.db.liveReferences other key + if other = accountId then
        (((world.db.listMessageCacheObjects accountId target.data.messageId).map (·.blobKey)).count key : Int)
      else 0 := by
    have before := right other key
    have split := Db.liveReferences_insert perm (fun id => (writes.owner id).symm) others.1.symm others.2.1.symm
      place.2 other key
    have still : world.db.countedReferences other key = db.countedReferences other key := by
      rw [Db.countedReferences, others.2.2]
      rfl
    rw [still, before, split, place.1, writes.owner, owner]
    by_cases own : other = accountId
    · subst own
      simp [Db.uses]
    · have foreign : ¬ accountId = other := fun eq => own eq.symm
      simp [own, foreign]
  obtain ⟨cacheObjects, released, consistent'', right', avoids⟩ := releaseEach_eval lib accountId
    (world.db.listMessageCacheObjects accountId target.data.messageId) world consistent' counted
  have found : world.perform lib (.accountIdForMailbox mailboxId) = (.ok (some accountId), world) := by
    rw [World.perform, writes.owner, owner]
    rfl
  have listed : world.perform lib (.listMessageCacheObjects accountId target.data.messageId) =
      (.ok (world.db.listMessageCacheObjects accountId target.data.messageId), world) := rfl
  obtain ⟨told, published, same⟩ := publish_eval lib (.messageChangedWithContext (some accountId)
    (some mailboxId) none (some localUid) (some position) [] ("delete_mailbox_message:" ++ toString localUid)) 1
    { world with db := { world.db with cacheObjects } }
  refine ⟨told, ?_, ?_, ?_, ?_⟩
  · unfold afterDelete
    simp only [bind_eq]
    rw [eval_await_bind found]
    simp only [orThrow, ret_bind]
    rw [eval_await_bind listed, eval_bind, released]
    exact published
  · rw [same]
    exact consistent''
  · rw [same]
    exact right'
  · unfold afterDelete
    simp only [bind_eq]
    refine avoids_await_bind rfl found (avoids_await_bind rfl listed ?_)
    refine avoids_bind.mpr ⟨avoids, fun _ after _ => ?_⟩
    refine avoids_of_uses ?_ after
    exact Uses.bind (Uses.tell rfl) fun _ => trivial

theorem deleteMessage_kept (consistent : world.db.Consistent) (right : world.db.CountsRight)
    (mailboxId localUid : Int) : Kept lib createdAt world (.deleteMessage mailboxId localUid) := by
  have shape : Repository.deleteMailboxMessage mailboxId localUid =
      (await (.deleteMailboxMessage mailboxId localUid)).bind fun deleted =>
        deleted.elim (pure 0) fun written => afterDelete mailboxId localUid written.1 written.2 := by
    unfold Repository.deleteMailboxMessage
    rw [bind_eq]
    congr 1
    funext deleted
    cases deleted with
    | none => rfl
    | some written => rfl
  cases result : world.db.deleteMailboxMessage mailboxId localUid with
  | error failure =>
      have performed : world.perform lib (.deleteMailboxMessage mailboxId localUid) = (.error failure, world) :=
        World.commit_of_error result
      have ended : (Repository.deleteMailboxMessage mailboxId localUid).eval (cacheHandler lib) world =
          (.error failure, world) := by
        rw [shape, eval_await_bind_error performed]
      refine ⟨?_, ?_, ?_⟩
      · rw [apply, ended]
        exact consistent
      · rw [apply, ended]
        exact right
      · rw [GivesUpSafely, shape]
        exact avoids_await_bind_error rfl performed
  | ok deleted =>
      obtain ⟨deleted, db'⟩ := deleted
      have performed : world.perform lib (.deleteMailboxMessage mailboxId localUid) =
          (.ok deleted, { world with db := db' }) := World.commit_of_ok result
      rcases Db.deleteMailboxMessage_ok result with ⟨rfl, rfl, -⟩ | ⟨target, member, live, ⟨position, rfl⟩, drop⟩
      · refine ⟨?_, ?_, ?_⟩
        · rw [apply, shape, eval_await_bind performed]
          exact consistent
        · rw [apply, shape, eval_await_bind performed]
          exact right
        · rw [GivesUpSafely, shape]
          exact avoids_await_bind rfl performed trivial
      · obtain ⟨accountId, owner⟩ := deleteMailboxMessage_mailbox result
        have dropped : Db.DropRow world.db ({ world with db := db' } : World).db mailboxId localUid := drop
        obtain ⟨world', ended, consistent', right', avoids⟩ :=
          afterDelete_kept lib consistent right member live dropped owner position
        refine ⟨?_, ?_, ?_⟩
        · rw [apply, shape, eval_await_bind performed, Option.elim_some, ended]
          exact consistent'
        · rw [apply, shape, eval_await_bind performed, Option.elim_some, ended]
          exact right'
        · rw [GivesUpSafely, shape]
          exact avoids_await_bind rfl performed avoids

/-! ## Copying a message -/

/-- What copying a message does once the copy has its row. -/
def afterCopy (destination : Int) (row source : Row MailboxMessage) (position : Int) :
    Action (Option (Row MailboxMessage)) := do
  let accountId ← await (.accountIdForMailbox destination)
  let accountId ← orThrow accountId (.storage
    ("mailbox not found for cache refcount update: " ++ toString destination))
  let objects ← await (.listMessageCacheObjects accountId source.data.messageId)
  addEach accountId objects
  Repository.publishEvent (.messageChangedWithContext (some accountId) (some destination)
    (some row.data.messageId) (some row.data.localUid) (some position) row.data.flags "copy_mailbox_message")
  pure (some row)

theorem assignMailboxLocalUid_owner {db : Db} {mailboxId localUid : Int}
    (ok : db.assignMailboxLocalUid mailboxId = .ok localUid) :
    ∃ mailbox ∈ db.mailboxes.rows, db.accountIdForMailbox mailboxId = some mailbox.data.accountId := by
  unfold Db.assignMailboxLocalUid at ok
  split at ok
  · cases ok
  · rename_i mailbox found
    refine ⟨mailbox, (Table.mem_of_find found).1, ?_⟩
    rw [Db.accountIdForMailbox, found, Option.map_some]

theorem counts_of_inserted {db db' : Db} {cacheObjects : Table CacheObject cacheObjectKeys} {row : Row MailboxMessage}
    (right : db.CountsRight) (frame : Db.WritesRows db db')
    (perm : db'.mailboxMessages.rows.Perm (row :: db.mailboxMessages.rows)) (live : row.data.isExpunged = false)
    {accountId : Int} (owner : db.accountIdForMailbox row.data.mailboxId = some accountId)
    (counts : ∀ other key, countIn cacheObjects.rows other key = countIn db.cacheObjects.rows other key +
      if other = accountId then (db.uses accountId row.data.messageId key : Int) else 0) :
    ({ db' with cacheObjects } : Db).CountsRight := by
  intro other key
  have others : db'.messages = db.messages ∧ db'.mimeParts = db.mimeParts := by
    obtain ⟨_, _, same, -⟩ := frame
    rw [same]
    exact ⟨rfl, rfl⟩
  have inserted := Db.liveReferences_insert perm frame.owner others.1 others.2 live other key
  have before := right other key
  rw [Db.countedReferences_eq] at before
  change countIn cacheObjects.rows other key = (db'.liveReferences other key : Int)
  rw [counts, before, inserted, owner]
  by_cases own : other = accountId
  · subst own
    simp
  · have foreign : ¬ accountId = other := fun eq => own eq.symm
    simp [own, foreign]

theorem afterCopy_kept (lib : Libraries) (world : World) {db : Db} {destination : Int} (consistent : db.Consistent)
    (right : db.CountsRight) {row source : Row MailboxMessage} (frame : Db.WritesRows db world.db)
    (perm : world.db.mailboxMessages.rows.Perm (row :: db.mailboxMessages.rows))
    (member : source ∈ db.mailboxMessages.rows) (live : row.data.isExpunged = false)
    (place : row.data.mailboxId = destination) (same : row.data.messageId = source.data.messageId)
    {mailbox : Row Mailbox} (known : mailbox ∈ db.mailboxes.rows)
    (owner : db.accountIdForMailbox destination = some mailbox.data.accountId) (position : Int) :
    ∃ world', (afterCopy destination row source position).eval (cacheHandler lib) world = (.ok (some row), world') ∧
      world'.db.Consistent ∧ world'.db.CountsRight := by
  have others : world.db.messages = db.messages ∧ world.db.mimeParts = db.mimeParts ∧
      world.db.cacheObjects = db.cacheObjects ∧ world.db.accounts = db.accounts := by
    obtain ⟨_, _, same, -⟩ := frame
    rw [same]
    exact ⟨rfl, rfl, rfl, rfl⟩
  have consistent' : world.db.Consistent := by
    refine consistent.writesRows frame fun other here => ?_
    rcases List.mem_cons.mp (perm.mem_iff.mp here) with rfl | old
    · rw [same]
      exact consistent.rowMessages source member
    · exact consistent.rowMessages other old
  have account : world.db.hasAccount mailbox.data.accountId = true := by
    rw [Db.hasAccount, others.2.2.2]
    exact consistent.accounts mailbox known
  obtain ⟨cacheObjects, added, consistent'', counts⟩ := addEach_eval lib mailbox.data.accountId
    (world.db.listMessageCacheObjects mailbox.data.accountId source.data.messageId) world consistent' account
    fun object listed => consistent'.listed listed
  have right' : { world.db with cacheObjects }.CountsRight := by
    refine counts_of_inserted right frame perm live (place ▸ owner) fun other key => ?_
    rw [counts, others.2.2.1, same]
    congr 2
    rw [Db.uses, Db.listMessageCacheObjects, Db.listMessageCacheObjects, others.1, others.2.1]
  have found : world.perform lib (.accountIdForMailbox destination) =
      (.ok (some mailbox.data.accountId), world) := by
    rw [World.perform, frame.owner, owner]
    rfl
  have listed : world.perform lib (.listMessageCacheObjects mailbox.data.accountId source.data.messageId) =
      (.ok (world.db.listMessageCacheObjects mailbox.data.accountId source.data.messageId), world) := rfl
  obtain ⟨told, published, unchanged⟩ := publish_eval lib (.messageChangedWithContext
    (some mailbox.data.accountId) (some destination) (some row.data.messageId) (some row.data.localUid)
    (some position) row.data.flags "copy_mailbox_message") (some row)
    { world with db := { world.db with cacheObjects } }
  refine ⟨told, ?_, unchanged ▸ consistent'', unchanged ▸ right'⟩
  unfold afterCopy
  simp only [bind_eq]
  rw [eval_await_bind found]
  simp only [orThrow, ret_bind]
  rw [eval_await_bind listed, eval_bind, added]
  exact published

theorem copy_kept (consistent : world.db.Consistent) (right : world.db.CountsRight)
    (source destination localUid : Int) : Kept lib createdAt world (.copy source destination localUid) := by
  have shape : Repository.copyMailboxMessage source destination localUid =
      (await (.copyMailboxMessage source destination localUid)).bind fun copied =>
        copied.elim (pure none) fun written => afterCopy destination written.1 written.2.1 written.2.2 := by
    unfold Repository.copyMailboxMessage
    rw [bind_eq]
    congr 1
    funext copied
    cases copied with
    | none => rfl
    | some written => rfl
  have safe : (copy source destination localUid).GivesUpSafely lib createdAt world := by
    refine avoids_of_uses ?_ world
    rw [shape]
    refine (uses_await rfl).bind fun copied => ?_
    cases copied with
    | none => trivial
    | some written =>
      refine (uses_await rfl).bind fun accountId => (Uses.orThrow _ _).bind fun accountId => ?_
      refine (uses_await rfl).bind fun objects => (Uses.forEach fun object _ => uses_await rfl).bind fun _ => ?_
      exact Uses.bind (Uses.tell rfl) fun _ => trivial
  cases result : world.db.copyMailboxMessage source destination localUid with
  | error failure =>
      have performed : world.perform lib (.copyMailboxMessage source destination localUid) =
          (.error failure, world) := World.commit_of_error result
      refine ⟨?_, ?_, safe⟩
      · rw [apply, shape, eval_await_bind_error performed]
        exact consistent
      · rw [apply, shape, eval_await_bind_error performed]
        exact right
  | ok copied =>
      obtain ⟨copied, db'⟩ := copied
      have performed : world.perform lib (.copyMailboxMessage source destination localUid) =
          (.ok copied, { world with db := db' }) := World.commit_of_ok result
      rcases Db.copyMailboxMessage_ok result with
        ⟨rfl, rfl, -⟩ | ⟨original, member, -, row, position, rfl, put, assigned, ⟨modseq, data⟩, free⟩
      · refine ⟨?_, ?_, safe⟩
        · rw [apply, shape, eval_await_bind performed]
          exact consistent
        · rw [apply, shape, eval_await_bind performed]
          exact right
      · obtain ⟨mailbox, known, owner⟩ := assignMailboxLocalUid_owner assigned
        have place : row.data.mailboxId = destination := by rw [data]
        have perm := put.perm fun other here taken => free other here (taken.1.trans place) taken.2
        obtain ⟨world', ended, consistent', right'⟩ := afterCopy_kept lib { world with db := db' }
          consistent right put.frame perm member (by rw [data]) place (by rw [data]) known owner position
        refine ⟨?_, ?_, safe⟩
        · rw [apply, shape, eval_await_bind performed, Option.elim_some, ended]
          exact consistent'
        · rw [apply, shape, eval_await_bind performed, Option.elim_some, ended]
          exact right'

/-! ## Deleting a mailbox -/

/-- No message in the mailboxes of that name uses an object. -/
def NothingUsed (db : Db) (accountId : Int) (mailboxName : String) : Prop :=
  ∀ row ∈ db.currentMessages accountId,
    (∃ mailbox ∈ db.mailboxes.rows, Db.namedMailbox accountId mailboxName mailbox = true ∧
      mailbox.id = row.data.mailboxId) → db.listMessageCacheObjects accountId row.data.messageId = []

section
variable {db : Db} {accountId : Int} {mailboxName : String}

def goes (db : Db) (accountId : Int) (mailboxName : String) (mailboxId : Int) : Bool :=
  (db.mailboxes.rows.filter (Db.namedMailbox accountId mailboxName)).any (·.id == mailboxId)

theorem goes_iff {mailboxId : Int} : goes db accountId mailboxName mailboxId = true ↔
    ∃ mailbox ∈ db.mailboxes.rows, Db.namedMailbox accountId mailboxName mailbox = true ∧
      mailbox.id = mailboxId := by
  simp [goes]

theorem owner_of_goes {mailboxId : Int} (gone : goes db accountId mailboxName mailboxId = true) :
    db.accountIdForMailbox mailboxId = some accountId := by
  obtain ⟨mailbox, member, named, same⟩ := goes_iff.mp gone
  have found : db.mailbox mailboxId = some mailbox := Table.find_id.mpr ⟨member, same⟩
  simp only [Db.namedMailbox, Bool.and_eq_true, beq_iff_eq] at named
  rw [Db.accountIdForMailbox, found, Option.map_some, named.1]

theorem owner_of_stays {mailboxId : Int} (stays : goes db accountId mailboxName mailboxId = false) :
    (db.deleteMailbox accountId mailboxName).2.accountIdForMailbox mailboxId =
      db.accountIdForMailbox mailboxId := by
  have found : (db.deleteMailbox accountId mailboxName).2.mailbox mailboxId = db.mailbox mailboxId := by
    apply Option.ext
    intro mailbox
    unfold Db.mailbox
    rw [Table.find_id, Table.find_id]
    simp only [Db.deleteMailbox, Table.mem_remove]
    constructor
    · rintro ⟨⟨member, -⟩, same⟩
      exact ⟨member, same⟩
    · rintro ⟨member, same⟩
      refine ⟨⟨member, ?_⟩, same⟩
      rw [Bool.eq_false_iff]
      intro named
      rw [goes_iff.mpr ⟨mailbox, member, named, same⟩] at stays
      cases stays
  rw [Db.accountIdForMailbox, Db.accountIdForMailbox, found]

theorem sum_filter {α : Type} (items : List α) (p : α → Bool) (f : α → Nat)
    (zero : ∀ item ∈ items, p item = true → f item = 0) :
    ((items.filter fun item => !p item).map f).sum = (items.map f).sum := by
  induction items with
  | nil => rfl
  | cons item items ih =>
      have rest := ih fun other member => zero other (List.mem_cons_of_mem _ member)
      rw [List.filter_cons, List.map_cons, List.sum_cons]
      cases holds : p item with
      | true =>
          have first := zero item (List.mem_cons_self ..) holds
          simp only [Bool.not_true, Bool.false_eq_true, if_false, rest, first, Nat.zero_add]
      | false => simp only [Bool.not_false, if_true, List.map_cons, List.sum_cons, rest]

theorem deleteMailbox_liveReferences (unused : NothingUsed db accountId mailboxName) (other : Int) (key : String) :
    (db.deleteMailbox accountId mailboxName).2.liveReferences other key = db.liveReferences other key := by
  have current : (db.deleteMailbox accountId mailboxName).2.currentMessages other =
      (db.currentMessages other).filter fun row => !goes db accountId mailboxName row.data.mailboxId := by
    rw [Db.currentMessages_eq, Db.currentMessages_eq, List.filter_filter]
    change (db.mailboxMessages.rows.filter fun row => !goes db accountId mailboxName row.data.mailboxId).filter _ = _
    rw [List.filter_filter]
    refine List.filter_congr fun row _ => ?_
    cases gone : goes db accountId mailboxName row.data.mailboxId with
    | true => simp
    | false => rw [owner_of_stays gone, Bool.and_comm]
  have uses (messageId : Int) :
      (db.deleteMailbox accountId mailboxName).2.uses other messageId key = db.uses other messageId key := rfl
  unfold Db.liveReferences
  rw [current]
  simp only [uses]
  refine sum_filter _ (fun row : Row MailboxMessage => goes db accountId mailboxName row.data.mailboxId) _ fun row member gone => ?_
  have owner := owner_of_goes gone
  have here := member
  rw [Db.currentMessages_eq, List.mem_filter, Bool.and_eq_true, beq_iff_eq, owner, Option.some.injEq] at here
  obtain rfl := here.2.2
  rw [Db.uses, unused row member (goes_iff.mp gone)]
  rfl

end

theorem deleteMailbox_kept (consistent : world.db.Consistent) (right : world.db.CountsRight) {accountId : Int}
    {mailboxName : String} (unused : NothingUsed world.db accountId mailboxName) :
    Kept lib createdAt world (.deleteMailbox accountId mailboxName) := by
  have shape : Repository.deleteMailbox accountId mailboxName =
      (await (.deleteMailbox accountId mailboxName)).bind fun rowsAffected =>
        (onlyIf (rowsAffected > 0) (Repository.publishEvent
          (.mailboxChanged (some accountId) none ("delete_mailbox:" ++ mailboxName)))).bind fun _ =>
            .ret rowsAffected := rfl
  have performed : world.perform lib (.deleteMailbox accountId mailboxName) =
      (.ok (world.db.deleteMailbox accountId mailboxName).1,
        { world with db := (world.db.deleteMailbox accountId mailboxName).2 }) := rfl
  have left : ((deleteMailbox accountId mailboxName).apply lib createdAt world).db =
      (world.db.deleteMailbox accountId mailboxName).2 := by
    rw [apply, shape, eval_await_bind performed]
    unfold onlyIf
    split <;> rfl
  refine ⟨?_, ?_, ?_⟩
  · rw [left]
    refine ⟨consistent.counts, consistent.objects, consistent.messages, consistent.parts, ?_,
      consistent.partMessages, ?_⟩
    · exact fun row member => consistent.rowMessages row (Table.mem_remove.mp member).1
    · exact fun row member => consistent.accounts row (Table.mem_remove.mp member).1
  · rw [left]
    intro other key
    rw [deleteMailbox_liveReferences unused]
    exact right other key
  · refine avoids_of_uses ?_ world
    rw [shape]
    refine (uses_await rfl).bind fun rowsAffected => Uses.bind (Uses.onlyIf fun _ => Uses.tell rfl) fun _ => trivial

/-! ## Pruning -/

/-- The account has no more objects than the prune keeps. -/
def NothingSelected (db : Db) (accountId : Int) (keepLatestObjects : Nat) : Prop :=
  (db.cacheObjects.rows.filter fun row => row.data.accountId == some accountId).length ≤ keepLatestObjects

theorem prune_unchanged {accountId : Int} {keepLatestObjects : Nat}
    (nothing : NothingSelected world.db accountId keepLatestObjects) :
    (Admin.pruneCacheObjectsForAccount accountId keepLatestObjects).eval (Admin.adminHandler createdAt) world =
        (.ok 0, world) ∧
      (Admin.pruneCacheObjectsForAccount accountId keepLatestObjects).Avoids (Admin.adminHandler createdAt)
        GivesUpSafely.badPrune world := by
  have lists (op : Admin.AdminOp) (next : op.Ret → Admin.AdminAction Nat) (value : op.Ret)
      (keeps : ¬ GivesUpSafely.badPrune op world) (performed : Admin.perform createdAt world op = (.ok value, world))
      (ends : next value = .ret 0) :
      ((Admin.request op).bind next).eval (Admin.adminHandler createdAt) world = (.ok 0, world) ∧
        ((Admin.request op).bind next).Avoids (Admin.adminHandler createdAt) GivesUpSafely.badPrune world := by
    have asked : (Admin.request op).eval (Admin.adminHandler createdAt) world = (.ok value, world) := by
      rw [eval_ask]
      exact performed
    refine ⟨?_, ?_⟩
    · rw [eval_bind, asked]
      change (next value).eval (Admin.adminHandler createdAt) world = _
      rw [ends, eval]
    · refine avoids_bind.mpr ⟨⟨keeps, ?_⟩, fun value' after evaluated => ?_⟩
      · have executed : (Admin.adminHandler createdAt).exec op world = (.ok value, world) := performed
        rw [executed]
        trivial
      · rw [asked] at evaluated
        cases evaluated
        rw [ends]
        trivial
  unfold NothingSelected at nothing
  unfold Admin.pruneCacheObjectsForAccount
  simp only [bind_eq]
  by_cases all : keepLatestObjects = 0
  · rw [if_pos all]
    refine lists (.listCacheObjectsForAccount accountId) _
      (Admin.listCacheObjectsForAccount world.db accountId) not_false rfl ?_
    have none : Admin.listCacheObjectsForAccount world.db accountId = [] := by
      rw [← List.length_eq_zero_iff, Admin.listCacheObjectsForAccount, List.length_insertionSort]
      omega
    rw [if_pos all, none]
    rfl
  · rw [if_neg all]
    refine lists (.listCacheObjectsForAccountByRecency accountId) _
      (Admin.listCacheObjectsForAccountByRecency createdAt world.db accountId) not_false rfl ?_
    have few : (Admin.listCacheObjectsForAccountByRecency createdAt world.db accountId).length ≤
        keepLatestObjects := by
      rw [Admin.listCacheObjectsForAccountByRecency, List.length_insertionSort]
      exact nothing
    rw [if_neg all, Nat.sub_eq_zero_of_le few]
    rfl

theorem prune_kept (consistent : world.db.Consistent) (right : world.db.CountsRight) {accountId : Int}
    {keepLatestObjects : Nat} (nothing : NothingSelected world.db accountId keepLatestObjects) :
    Kept lib createdAt world (.prune accountId keepLatestObjects) := by
  obtain ⟨ended, avoids⟩ := prune_unchanged nothing
  refine ⟨?_, ?_, avoids⟩
  · rw [apply, ended]
    exact consistent
  · rw [apply, ended]
    exact right

end

end ImapCache.CacheCommand
