import Mathlib.Data.List.Sort
import ImapCache.Proof.Footprints

/-!
# The messages of a mailbox in the order of their UIDs

`list_mailbox_messages` numbers the live rows of a mailbox by their local UIDs. What the
operations on rows do to that list.
-/

namespace ImapCache
open Lib Prog

namespace Db
variable {db db' : Db}

theorem listMailboxMessages_ascending (db : Db) (mailboxId : Int) :
    (db.listMailboxMessages mailboxId).Pairwise fun a b => a.data.localUid < b.data.localUid := by
  have ordered : (db.listMailboxMessages mailboxId).Pairwise fun a b => a.data.localUid ≤ b.data.localUid :=
    List.pairwise_insertionSort _ _
  have live : (db.liveMessages mailboxId).Pairwise fun a b => a.data.localUid ≠ b.data.localUid := by
    refine (db.mailboxMessages.distinct.filter _).imp_of_mem ?_
    intro a b ha hb separate
    simp only [List.mem_filter, Bool.and_eq_true, beq_iff_eq] at ha hb
    exact ((mailboxMessageKeys_admits _ _).mp separate.2).1 (ha.2.1.trans hb.2.1.symm)
  have distinct : (db.listMailboxMessages mailboxId).Pairwise fun a b => a.data.localUid ≠ b.data.localUid :=
    (List.perm_insertionSort _ _).symm.pairwise live fun different => different.symm
  exact (ordered.and distinct).imp fun both => lt_of_le_of_ne both.1 both.2

theorem listMailboxMessages_unique {mailboxId : Int} {rows : List (Row MailboxMessage)}
    (ascending : rows.Pairwise fun a b => a.data.localUid < b.data.localUid)
    (members : ∀ row, row ∈ db.listMailboxMessages mailboxId ↔ row ∈ rows) :
    db.listMailboxMessages mailboxId = rows := by
  let r : Row MailboxMessage → Row MailboxMessage → Prop := fun a b => a.data.localUid < b.data.localUid
  have : Std.Antisymm r := ⟨fun a b less greater => absurd less (lt_asymm greater)⟩
  have : Std.Irrefl r := ⟨fun a => lt_irrefl a.data.localUid⟩
  exact List.Pairwise.eq_of_mem_iff (r := r) (db.listMailboxMessages_ascending mailboxId) ascending members

theorem listMailboxMessages_congr {mailboxId : Int} (same : db'.mailboxMessages = db.mailboxMessages) :
    db'.listMailboxMessages mailboxId = db.listMailboxMessages mailboxId := by
  rw [listMailboxMessages, listMailboxMessages, liveMessages_congr same]

theorem eq_of_localUid {mailboxId : Int} {a b : Row MailboxMessage}
    (ha : a ∈ db.listMailboxMessages mailboxId) (hb : b ∈ db.listMailboxMessages mailboxId)
    (same : a.data.localUid = b.data.localUid) : a = b := by
  obtain ⟨ha, mailbox, -⟩ := mem_liveMessages.mp (mem_listMailboxMessages.mp ha)
  obtain ⟨hb, mailbox', -⟩ := mem_liveMessages.mp (mem_listMailboxMessages.mp hb)
  exact mailboxMessage_unique ha hb (mailbox.trans mailbox'.symm) same

theorem DropRow.listMailboxMessages {mailboxId localUid : Int} (drop : DropRow db db' mailboxId localUid)
    (id : Int) :
    db'.listMailboxMessages id =
      (db.listMailboxMessages id).filter fun row => !isLiveAt mailboxId localUid row := by
  refine listMailboxMessages_unique ((db.listMailboxMessages_ascending id).filter _) fun row => ?_
  rw [mem_listMailboxMessages, List.mem_filter, mem_listMailboxMessages, mem_liveMessages,
    mem_liveMessages, drop.rows row, Bool.not_eq_true', and_assoc, and_assoc, and_assoc]
  refine and_congr_right fun _ => ?_
  rw [and_comm, and_assoc]

theorem PutRow.listMailboxMessages {row : Row MailboxMessage} (put : PutRow db db' row)
    (live : row.data.isExpunged = false)
    (fresh : ∀ other ∈ db.mailboxMessages.rows, other.data.mailboxId = row.data.mailboxId →
      other.data.localUid ≠ row.data.localUid)
    (last : ∀ other ∈ db.liveMessages row.data.mailboxId, other.data.localUid < row.data.localUid) (id : Int) :
    db'.listMailboxMessages id =
      db.listMailboxMessages id ++ if row.data.mailboxId = id then [row] else [] := by
  refine listMailboxMessages_unique ?_ fun other => ?_
  · rw [List.pairwise_append]
    refine ⟨db.listMailboxMessages_ascending id, ?_, ?_⟩
    · split <;> simp
    · intro a ha b hb
      split at hb
      · rename_i here
        subst here
        rw [List.mem_singleton.mp hb]
        exact last a (mem_listMailboxMessages.mp ha)
      · cases hb
  · have here : other ∈ (if row.data.mailboxId = id then [row] else []) ↔
        other = row ∧ row.data.mailboxId = id := by
      split <;> simp [*]
    rw [mem_listMailboxMessages, mem_liveMessages, put.rows other, List.mem_append, here,
      mem_listMailboxMessages, mem_liveMessages]
    constructor
    · rintro ⟨rfl | ⟨old, -⟩, mailbox, otherLive⟩
      · exact Or.inr ⟨rfl, mailbox⟩
      · exact Or.inl ⟨old, mailbox, otherLive⟩
    · rintro (⟨old, mailbox, otherLive⟩ | ⟨rfl, mailbox⟩)
      · exact ⟨Or.inr ⟨old, fun key => fresh other old key.1 key.2⟩, mailbox, otherLive⟩
      · exact ⟨Or.inl rfl, mailbox, live⟩

theorem listMailboxMessages_absent {mailboxId localUid : Int}
    (absent : ∀ row ∈ db.mailboxMessages.rows, isLiveAt mailboxId localUid row = false) (id : Int) :
    (db.listMailboxMessages id).filter (fun row => !isLiveAt mailboxId localUid row) =
      db.listMailboxMessages id := by
  refine List.filter_eq_self.mpr fun row member => ?_
  rw [absent row (mem_liveMessages.mp (mem_listMailboxMessages.mp member)).1]
  rfl

end Db

/-- The UIDs of a mailbox, in the order that numbers them. -/
def uidOrder (world : World) (mailboxId : Int) : List Int :=
  (world.db.listMailboxMessages mailboxId).map (·.data.localUid)

theorem uidOrder_ascending (world : World) (mailboxId : Int) :
    (uidOrder world mailboxId).Pairwise (· < ·) :=
  List.pairwise_map.mpr (world.db.listMailboxMessages_ascending mailboxId)

theorem mem_uidOrder {world : World} {mailboxId uid : Int} :
    uid ∈ uidOrder world mailboxId ↔
      ∃ row ∈ world.db.mailboxMessages.rows, Db.isLiveAt mailboxId uid row = true := by
  simp only [uidOrder, List.mem_map, Db.mem_listMailboxMessages, Db.mem_liveMessages, Db.isLiveAt_iff]
  constructor
  · rintro ⟨row, ⟨member, mailbox, live⟩, rfl⟩
    exact ⟨row, member, mailbox, rfl, live⟩
  · rintro ⟨row, member, mailbox, uid, live⟩
    exact ⟨row, ⟨member, mailbox, live⟩, uid⟩

theorem uidOrder_eq {world world' : World} {mailboxId : Int}
    (members : ∀ uid, uid ∈ uidOrder world' mailboxId ↔ uid ∈ uidOrder world mailboxId) :
    uidOrder world' mailboxId = uidOrder world mailboxId :=
  List.Pairwise.eq_of_mem_iff (r := (· < ·)) (uidOrder_ascending world' mailboxId)
    (uidOrder_ascending world mailboxId) members

/-! ## The operations on rows -/

def Op.keepsRows (op : Op) : Prop := .mailboxMessages ∉ op.writes

theorem Op.keepsRows_of_bookkeeping (op : Op) (bookkeeping : op.bookkeeping = true) : op.keepsRows := by
  cases op <;> simp_all [keepsRows, writes, Op.bookkeeping]

variable {lib : Libraries} {allowed : Fault Error → Prop}

theorem keeps_rows (op : Op) (world : World) (keeps : op.keepsRows) :
    ((cacheHandler lib).exec op world).2.db.mailboxMessages = world.db.mailboxMessages :=
  World.perform_frame lib world op .mailboxMessages keeps

theorem ensures_rows {α : Type} {p : Action α} (uses : p.Uses Op.keepsRows) (world : World) :
    p.Ensures (cacheHandler lib) allowed
      (fun _ world' => world'.db.mailboxMessages = world.db.mailboxMessages) (fun _ _ => True) world := by
  let kept (world' : World) : Prop := world'.db.mailboxMessages = world.db.mailboxMessages
  have throughout : p.Ensures (cacheHandler lib) allowed (fun _ => kept) (fun _ => kept) world :=
    uses.ensures (fun op s keeps holds => (keeps_rows op s keeps).trans holds) rfl
  exact throughout.mono (fun _ _ => id) fun _ _ _ => trivial

theorem ensures_read {op : Op} {value : op.Ret} {world : World} {ok : op.Ret → World → Prop}
    (reads : world.perform lib op = (.ok value, world)) (holds : ok value world) :
    (await op).Ensures (cacheHandler lib) allowed ok (fun _ _ => True) world := by
  refine ensures_await fun answer success => ?_
  rw [reads] at success ⊢
  cases success
  exact holds

theorem ensures_orPanic {α : Type} {value : Except Panic α} {world : World} {ok : α → World → Prop}
    (holds : ∀ result, value = .ok result → ok result world) :
    (orPanic value).Ensures (cacheHandler lib) allowed ok (fun _ _ => True) world := by
  cases value with
  | ok result => exact holds result rfl
  | error reason =>
      have asked : (await (.panic reason)).Ensures (cacheHandler lib) allowed (fun _ _ => False)
          (fun _ _ => True) world := ensures_await fun never _ => Empty.elim never
      exact ensures_bind.mpr (asked.mono (fun _ _ => False.elim) fun _ _ => id)

theorem Commands.ensures_numberSet {set : String} {maxValue : Int} {world : World}
    {ok : List Int → World → Prop} (holds : ok (parseNumberSet set maxValue) world) :
    (numberSet set maxValue).Ensures (cacheHandler lib) allowed ok (fun _ _ => True) world := by
  unfold numberSet
  split
  · exact holds
  · exact ensures_orPanic fun result same => by cases same

namespace Repository

theorem refreshMailboxCounts_rows (mailboxId : Int) (world : World) :
    (refreshMailboxCounts mailboxId).Ensures (cacheHandler lib) allowed
      (fun _ world' => world'.db.mailboxMessages = world.db.mailboxMessages) (fun _ _ => True) world :=
  ensures_rows (refreshMailboxCounts_uses Op.keepsRows_of_bookkeeping (by simp [Op.keepsRows, Op.writes]))
    world

theorem deleteMailboxMessage_listed (mailboxId localUid : Int) (world : World) :
    (deleteMailboxMessage mailboxId localUid).Ensures (cacheHandler lib) allowed
      (fun _ world' => ∀ id, world'.db.listMailboxMessages id =
        (world.db.listMailboxMessages id).filter fun row => !Db.isLiveAt mailboxId localUid row)
      (fun _ _ => True) world := by
  let after (world' : World) : Prop := ∀ id, world'.db.listMailboxMessages id =
    (world.db.listMailboxMessages id).filter fun row => !Db.isLiveAt mailboxId localUid row
  have leads := deleteMailboxMessage_leads Op.keepsRows_of_bookkeeping mailboxId localUid
  refine (leads.ensures trivial ?_ ?_ : Ensures _ _ (fun _ => after) (fun _ s' => True ∨ after s') _ _).mono (fun _ _ => id)
    fun _ _ _ => trivial
  · cases outcome : ((cacheHandler lib).exec (.deleteMailboxMessage mailboxId localUid) world).1 with
    | error failure => exact Or.inr ⟨trivial, failure, rfl⟩
    | ok deleted =>
        obtain ⟨db, success, committed⟩ := World.commit_state outcome
        have state : ((cacheHandler lib).exec (.deleteMailboxMessage mailboxId localUid) world).2 =
          { world with db } := committed
        refine Or.inl fun id => ?_
        rw [state]
        obtain ⟨-, rfl, absent⟩ | ⟨-, -, -, -, drop⟩ := Db.deleteMailboxMessage_ok success
        · exact (Db.listMailboxMessages_absent absent id).symm
        · exact drop.listMailboxMessages id
  · intro op s keeps holds id
    exact (Db.listMailboxMessages_congr (keeps_rows op s keeps)).trans (holds id)

theorem updateMailboxMessageFlags_order (mailboxId localUid : Int) (flags : List String) (world : World) :
    (updateMailboxMessageFlags mailboxId localUid flags).Ensures (cacheHandler lib) allowed
      (fun _ world' => ∀ id, uidOrder world' id = uidOrder world id) (fun _ _ => True) world := by
  let after (world' : World) : Prop := ∀ id, uidOrder world' id = uidOrder world id
  have leads := updateMailboxMessageFlags_leads Op.keepsRows_of_bookkeeping mailboxId localUid flags
  refine (leads.ensures trivial ?_ ?_ : Ensures _ _ (fun _ => after) (fun _ s' => True ∨ after s') _ _).mono
    (fun _ _ => id) fun _ _ _ => trivial
  · cases outcome : ((cacheHandler lib).exec (.updateMailboxMessageFlags mailboxId localUid flags) world).1 with
    | error failure => exact Or.inr ⟨trivial, failure, rfl⟩
    | ok updated =>
        obtain ⟨db, success, committed⟩ := World.commit_state outcome
        have state : ((cacheHandler lib).exec (.updateMailboxMessageFlags mailboxId localUid flags) world).2 =
          { world with db } := committed
        refine Or.inl fun id => uidOrder_eq fun uid => ?_
        rw [state, mem_uidOrder, mem_uidOrder]
        obtain ⟨-, keep, -⟩ | ⟨old, member, live, modseq, _, -, put⟩ := Db.updateMailboxMessageFlags_ok success
        · exact exists_congr fun row => and_congr_left fun _ => keep.rows row
        · constructor
          · rintro ⟨row, isRow, here⟩
            rcases (put.rows row).mp isRow with rfl | ⟨isRow, -⟩
            · exact ⟨old, member, here⟩
            · exact ⟨row, isRow, here⟩
          · rintro ⟨row, isRow, here⟩
            by_cases same : row.data.mailboxId = old.data.mailboxId ∧ row.data.localUid = old.data.localUid
            · have isOld := Db.mailboxMessage_unique isRow member same.1 same.2
              subst isOld
              exact ⟨_, (put.rows _).mpr (Or.inl rfl), here⟩
            · exact ⟨row, (put.rows row).mpr (Or.inr ⟨isRow, same⟩), here⟩
  · intro op s keeps holds id
    rw [uidOrder, Db.listMailboxMessages_congr (keeps_rows op s keeps)]
    exact holds id

/-- A copy that succeeds puts a message with a UID above all others into the destination, if the
message is there to copy. -/
theorem copyMailboxMessage_listed (source destination localUid : Int) (world : World)
    (here : ∃ row ∈ world.db.mailboxMessages.rows, Db.isLiveAt source localUid row = true) :
    (copyMailboxMessage source destination localUid).Ensures (cacheHandler lib) allowed
      (fun _ world' => ∃ row : Row MailboxMessage,
        (∀ other ∈ world.db.liveMessages destination, other.data.localUid < row.data.localUid) ∧
        ∀ id, world'.db.listMailboxMessages id =
          world.db.listMailboxMessages id ++ if destination = id then [row] else [])
      (fun _ _ => True) world := by
  let after (world' : World) : Prop := ∃ row : Row MailboxMessage,
    (∀ other ∈ world.db.liveMessages destination, other.data.localUid < row.data.localUid) ∧
    ∀ id, world'.db.listMailboxMessages id =
      world.db.listMailboxMessages id ++ if destination = id then [row] else []
  have leads := copyMailboxMessage_leads Op.keepsRows_of_bookkeeping source destination localUid
  refine (leads.ensures trivial ?_ ?_ : Ensures _ _ (fun _ => after) (fun _ s' => True ∨ after s') _ _).mono
    (fun _ _ => id) fun _ _ _ => trivial
  · cases outcome : ((cacheHandler lib).exec (.copyMailboxMessage source destination localUid) world).1 with
    | error failure => exact Or.inr ⟨trivial, failure, rfl⟩
    | ok copied =>
        obtain ⟨db, success, committed⟩ := World.commit_state outcome
        have state : ((cacheHandler lib).exec (.copyMailboxMessage source destination localUid) world).2 =
          { world with db } := committed
        refine Or.inl ?_
        rw [state]
        obtain ⟨-, -, absent⟩ | ⟨_, -, -, row, _, -, put, assigned, ⟨_, contents⟩, fresh⟩ :=
          Db.copyMailboxMessage_ok success
        · obtain ⟨row, member, live⟩ := here
          rw [absent row member] at live
          cases live
        · have mailbox : row.data.mailboxId = destination := by rw [contents]
          have live : row.data.isExpunged = false := by rw [contents]
          have last := Db.assignMailboxLocalUid_ok assigned
          subst mailbox
          exact ⟨row, last, put.listMailboxMessages live fresh last⟩
  · rintro op s keeps ⟨row, last, listed⟩
    refine ⟨row, last, fun id => ?_⟩
    exact (Db.listMailboxMessages_congr (keeps_rows op s keeps)).trans (listed id)

end Repository

end ImapCache
