import ImapCache.Model.Database

/-!
# What the statements do

One lemma for each statement or transaction that writes: which tables it changes and how. The
proofs about the cache use these and never unfold a statement.
-/

namespace ImapCache
open Lib

/-! ## Keys -/

theorem mailboxMessageKeys_admits (a b : MailboxMessage) :
    mailboxMessageKeys.admits a b = true ↔
      (a.mailboxId = b.mailboxId → a.localUid ≠ b.localUid) ∧
        ∀ uid, a.upstreamUid = some uid → a.mailboxId = b.mailboxId → b.upstreamUid ≠ some uid := by
  rw [mailboxMessageKeys, Constraint.and_admits, Constraint.unique_admits, Constraint.unique_admits]
  simp only [Option.some.injEq, ne_eq, forall_eq', Prod.mk.injEq, not_and, Option.map_eq_some_iff]
  refine and_congr ⟨fun h m u => h m.symm u.symm, fun h m u => h m.symm u.symm⟩ ⟨?_, ?_⟩
  · exact fun h uid ua m ub => h _ ⟨uid, ua, rfl⟩ ⟨uid, ub, by rw [m]⟩
  · rintro h _ ⟨uid, ua, rfl⟩ ⟨uid', ub, eq⟩
    simp only [Prod.mk.injEq] at eq
    exact h uid ua eq.1.symm (by rw [ub, eq.2])

theorem uidMappingKeys_admits (a b : UidMapping) :
    uidMappingKeys.admits a b = true ↔ (a.mailboxId = b.mailboxId →
      a.localUid ≠ b.localUid ∧ a.upstreamUid ≠ b.upstreamUid) := by
  rw [uidMappingKeys, Constraint.and_admits, Constraint.unique_admits, Constraint.unique_admits]
  simp only [Option.some.injEq, ne_eq, forall_eq', Prod.mk.injEq, not_and]
  constructor
  · exact fun h m => ⟨fun u => h.1 m.symm u.symm, fun u => h.2 m.symm u.symm⟩
  · exact fun h => ⟨fun m u => (h m.symm).1 u.symm, fun m u => (h m.symm).2 u.symm⟩

theorem mailboxKeys_admits (a b : Mailbox) :
    mailboxKeys.admits a b = true ↔
      (a.accountId = b.accountId → a.canonicalName ≠ b.canonicalName) := by
  rw [mailboxKeys, Constraint.unique_admits]
  simp only [Option.some.injEq, ne_eq, forall_eq', Prod.mk.injEq, not_and]
  exact ⟨fun h account name => h account.symm name.symm, fun h account name => h account.symm name.symm⟩

theorem pendingMutationKeys_admits (a b : PendingMutation) :
    pendingMutationKeys.admits a b = true ↔ a.idempotencyKey ≠ b.idempotencyKey := by
  rw [pendingMutationKeys, Constraint.unique_admits]
  simp only [Option.some.injEq, ne_eq, forall_eq']
  exact not_congr eq_comm

theorem syncStateKeys_admits (a b : SyncState) :
    syncStateKeys.admits a b = true ↔
      ∀ mailboxId, a.mailboxId = some mailboxId → a.accountId = b.accountId →
        b.mailboxId ≠ some mailboxId := by
  rw [syncStateKeys, Constraint.unique_admits]
  simp only [ne_eq, Option.map_eq_some_iff]
  constructor
  · exact fun h mailboxId ha account hb => h _ ⟨mailboxId, ha, rfl⟩ ⟨mailboxId, hb, by rw [account]⟩
  · rintro h _ ⟨mailboxId, ha, rfl⟩ ⟨mailboxId', hb, eq⟩
    simp only [Prod.mk.injEq] at eq
    exact h mailboxId ha eq.1.symm (by rw [hb, eq.2])

theorem admits_false {α : Type} {c : Constraint α} {a b : α} (h : ¬ c.admits a b = true) :
    c.admits a b = false := by
  simpa using h

namespace Db
variable {db db' : Db}

theorem mailboxMessage_unique {a b : Row MailboxMessage} (ha : a ∈ db.mailboxMessages.rows)
    (hb : b ∈ db.mailboxMessages.rows) (mailbox : a.data.mailboxId = b.data.mailboxId)
    (uid : a.data.localUid = b.data.localUid) : a = b :=
  Table.eq_of_clash ha hb (admits_false fun admits =>
    ((mailboxMessageKeys_admits _ _).mp admits).1 mailbox uid)

theorem mailboxMessage_unique_upstream {a b : Row MailboxMessage} {uid : Int}
    (ha : a ∈ db.mailboxMessages.rows) (hb : b ∈ db.mailboxMessages.rows)
    (mailbox : a.data.mailboxId = b.data.mailboxId) (ua : a.data.upstreamUid = some uid)
    (ub : b.data.upstreamUid = some uid) : a = b :=
  Table.eq_of_clash ha hb (admits_false fun admits =>
    ((mailboxMessageKeys_admits _ _).mp admits).2 uid ua mailbox ub)

theorem isLiveAt_iff {mailboxId localUid : Int} {row : Row MailboxMessage} :
    isLiveAt mailboxId localUid row = true ↔ row.data.mailboxId = mailboxId ∧
      row.data.localUid = localUid ∧ row.data.isExpunged = false := by
  simp [isLiveAt, and_assoc]

theorem mem_liveMessages {mailboxId : Int} {row : Row MailboxMessage} :
    row ∈ db.liveMessages mailboxId ↔ row ∈ db.mailboxMessages.rows ∧
      row.data.mailboxId = mailboxId ∧ row.data.isExpunged = false := by
  simp [liveMessages]

theorem liveMessages_congr {mailboxId : Int} (same : db'.mailboxMessages = db.mailboxMessages) :
    db'.liveMessages mailboxId = db.liveMessages mailboxId := by
  simp [liveMessages, same]

theorem mem_listMailboxMessages {mailboxId : Int} {row : Row MailboxMessage} :
    row ∈ db.listMailboxMessages mailboxId ↔ row ∈ db.liveMessages mailboxId := by
  simp [listMailboxMessages]

theorem find_live {mailboxId localUid : Int} {row : Row MailboxMessage}
    (member : row ∈ db.mailboxMessages.rows) (live : isLiveAt mailboxId localUid row = true) :
    db.mailboxMessages.find (isLiveAt mailboxId localUid) = some row := by
  refine Table.find_eq_some member live fun other otherMember otherLive => ?_
  obtain ⟨m, u, -⟩ := isLiveAt_iff.mp live
  obtain ⟨m', u', -⟩ := isLiveAt_iff.mp otherLive
  exact admits_false fun admits =>
    ((mailboxMessageKeys_admits _ _).mp admits).1 (m'.trans m.symm) (u'.trans u.symm)

/-! ## UIDs and modification sequences -/

theorem assignMailboxLocalUid_ok {mailboxId uid : Int}
    (h : db.assignMailboxLocalUid mailboxId = .ok uid) :
    ∀ row ∈ db.liveMessages mailboxId, row.data.localUid < uid := by
  unfold assignMailboxLocalUid at h
  split at h
  · cases h
  · split at h
    · rename_i none
      intro row member
      rw [List.max?_eq_none_iff, List.map_eq_nil_iff] at none
      simp [none] at member
    · rename_i largest found
      split at h
      · cases h
        intro row member
        have := (List.max?_eq_some_iff.mp found).2 row.data.localUid
          (List.mem_map_of_mem (f := fun row : Row MailboxMessage => row.data.localUid) member)
        omega
      · cases h

/-- The mailboxes after a statement that writes the modification sequence of one of them. -/
def SameButModseq (before after : Table Mailbox mailboxKeys) : Prop :=
  ∃ (p : Row Mailbox → Bool) (modseq : Option Int),
    after.rows = before.rows.map
      (Table.modified p fun mailbox => { mailbox with highestmodseq := modseq })

theorem assignMailboxModseq_ok {mailboxId modseq : Int} {requested : Option Int}
    (h : db.assignMailboxModseq mailboxId requested = .ok (modseq, db')) :
    ∃ mailboxes, db' = { db with mailboxes } ∧ SameButModseq db.mailboxes mailboxes ∧
      ∃ row ∈ db.mailboxes.rows, row.id = mailboxId := by
  unfold assignMailboxModseq at h
  split at h
  · cases h
  · rename_i row found
    obtain ⟨member, id⟩ := Table.mem_of_find found
    have here : ∃ row ∈ db.mailboxes.rows, row.id = mailboxId := ⟨row, member, by simpa using id⟩
    dsimp only at h
    split at h
    · cases h
      exact ⟨db.mailboxes, rfl, ⟨fun _ => false, none, (List.map_id _).symm⟩, here⟩
    · split at h
      · rename_i mailboxes success
        cases h
        exact ⟨mailboxes, rfl, ⟨_, _, (Table.modify_eq_some success).1⟩, here⟩
      · cases h

/-! ## Rows of a mailbox -/

/-- The effect of a statement that writes the rows of mailboxes: nothing else changes but a
modification sequence. -/
def WritesRows (db db' : Db) : Prop :=
  ∃ mailboxes mailboxMessages, db' = { db with mailboxes, mailboxMessages } ∧
    SameButModseq db.mailboxes mailboxes

/-- `row` is there, in the place of any other row of its mailbox with its local UID. -/
structure PutRow (db db' : Db) (row : Row MailboxMessage) : Prop where
  frame : WritesRows db db'
  rows : ∀ other, other ∈ db'.mailboxMessages.rows ↔ other = row ∨
    (other ∈ db.mailboxMessages.rows ∧
      ¬ (other.data.mailboxId = row.data.mailboxId ∧ other.data.localUid = row.data.localUid))

/-- The live row of a mailbox with a local UID is gone. -/
structure DropRow (db db' : Db) (mailboxId localUid : Int) : Prop where
  frame : WritesRows db db'
  rows : ∀ other, other ∈ db'.mailboxMessages.rows ↔
    other ∈ db.mailboxMessages.rows ∧ isLiveAt mailboxId localUid other = false

/-- No row has changed. -/
structure KeepRows (db db' : Db) : Prop where
  frame : WritesRows db db'
  rows : ∀ other, other ∈ db'.mailboxMessages.rows ↔ other ∈ db.mailboxMessages.rows

theorem SameButModseq.refl (mailboxes : Table Mailbox mailboxKeys) :
    SameButModseq mailboxes mailboxes :=
  ⟨fun _ => false, none, (List.map_id _).symm⟩

theorem putRow_of_modify {mailboxes : Table Mailbox mailboxKeys}
    {mailboxMessages : Table MailboxMessage mailboxMessageKeys} {mailboxId localUid : Int}
    {f : MailboxMessage → MailboxMessage} {row : Row MailboxMessage}
    (success : db.mailboxMessages.modify (isLiveAt mailboxId localUid) f = some mailboxMessages)
    (found : mailboxMessages.find (isLiveAt mailboxId localUid) = some row)
    (keepsKey : ∀ m, (f m).mailboxId = m.mailboxId ∧ (f m).localUid = m.localUid)
    (modseq : SameButModseq db.mailboxes mailboxes) :
    PutRow db { db with mailboxes, mailboxMessages } row ∧
      ∃ old ∈ db.mailboxMessages.rows, isLiveAt mailboxId localUid old = true ∧
        row = ⟨old.id, f old.data⟩ := by
  obtain ⟨member, live⟩ := Table.mem_of_find found
  obtain ⟨old, oldMember, rfl⟩ := (Table.mem_modify success row).mp member
  have key : ∀ r : Row MailboxMessage,
      (Table.modified (isLiveAt mailboxId localUid) f r).data.mailboxId = r.data.mailboxId ∧
        (Table.modified (isLiveAt mailboxId localUid) f r).data.localUid = r.data.localUid := by
    intro r
    unfold Table.modified
    split
    · exact keepsKey r.data
    · exact ⟨rfl, rfl⟩
  have oldLive : isLiveAt mailboxId localUid old = true := by
    by_contra dead
    simp only [Table.modified, dead] at live
    exact dead live
  have here := isLiveAt_iff.mp oldLive
  refine ⟨⟨⟨mailboxes, mailboxMessages, rfl, modseq⟩, fun other => ?_⟩, old, oldMember, oldLive,
    by simp [Table.modified, oldLive]⟩
  rw [Table.mem_modify success, (key old).1, (key old).2]
  constructor
  · rintro ⟨source, sourceMember, rfl⟩
    by_cases same : source.data.mailboxId = old.data.mailboxId ∧ source.data.localUid = old.data.localUid
    · exact Or.inl (by rw [mailboxMessage_unique sourceMember oldMember same.1 same.2])
    · refine Or.inr ⟨?_, by rwa [(key source).1, (key source).2]⟩
      have dead : isLiveAt mailboxId localUid source = false := by
        by_contra sourceLive
        simp only [Bool.not_eq_false] at sourceLive
        have there := isLiveAt_iff.mp sourceLive
        exact same ⟨there.1.trans here.1.symm, there.2.1.trans here.2.1.symm⟩
      simpa [Table.modified, dead] using sourceMember
  · rintro (rfl | ⟨otherMember, different⟩)
    · exact ⟨old, oldMember, rfl⟩
    · refine ⟨other, otherMember, ?_⟩
      have dead : isLiveAt mailboxId localUid other = false := by
        by_contra otherLive
        simp only [Bool.not_eq_false] at otherLive
        have there := isLiveAt_iff.mp otherLive
        exact different ⟨there.1.trans here.1.symm, there.2.1.trans here.2.1.symm⟩
      simp [Table.modified, dead]

theorem keepRows_of_modify {mailboxes : Table Mailbox mailboxKeys}
    {mailboxMessages : Table MailboxMessage mailboxMessageKeys} {mailboxId localUid : Int}
    {f : MailboxMessage → MailboxMessage}
    (success : db.mailboxMessages.modify (isLiveAt mailboxId localUid) f = some mailboxMessages)
    (none : mailboxMessages.find (isLiveAt mailboxId localUid) = none)
    (keepsKey : ∀ m, (f m).mailboxId = m.mailboxId ∧ (f m).localUid = m.localUid ∧
      (f m).isExpunged = m.isExpunged)
    (modseq : SameButModseq db.mailboxes mailboxes) :
    KeepRows db { db with mailboxes, mailboxMessages } ∧
      ∀ row ∈ db.mailboxMessages.rows, isLiveAt mailboxId localUid row = false := by
  have dead : ∀ row ∈ db.mailboxMessages.rows, isLiveAt mailboxId localUid row = false := by
    intro row member
    by_contra live
    simp only [Bool.not_eq_false] at live
    have after : Table.modified (isLiveAt mailboxId localUid) f row ∈ mailboxMessages.rows :=
      (Table.mem_modify success _).mpr ⟨row, member, rfl⟩
    have := Table.find_none.mp none _ after
    obtain ⟨m, u, e⟩ := isLiveAt_iff.mp live
    obtain ⟨m', u', e'⟩ := keepsKey row.data
    simp [Table.modified, isLiveAt, m, u, e, m', u', e'] at this
  refine ⟨⟨⟨mailboxes, mailboxMessages, rfl, modseq⟩, fun other => ?_⟩, dead⟩
  rw [Table.mem_modify success]
  constructor
  · rintro ⟨source, member, rfl⟩
    simpa [Table.modified, dead source member] using member
  · exact fun member => ⟨other, member, by simp [Table.modified, dead other member]⟩

/-! ### The live row at a UID -/

def rowAt (db : Db) (mailboxId localUid : Int) : Option (Row MailboxMessage) :=
  db.mailboxMessages.find (isLiveAt mailboxId localUid)

def flagsAt (db : Db) (mailboxId localUid : Int) : Option (List String) :=
  (db.rowAt mailboxId localUid).map (·.data.flags)

theorem rowAt_eq_some {mailboxId localUid : Int} {row : Row MailboxMessage} :
    db.rowAt mailboxId localUid = some row ↔
      row ∈ db.mailboxMessages.rows ∧ isLiveAt mailboxId localUid row = true :=
  ⟨Table.mem_of_find, fun found => find_live found.1 found.2⟩

theorem rowAt_congr {mailboxId localUid : Int} (same : ∀ row, isLiveAt mailboxId localUid row = true →
    (row ∈ db'.mailboxMessages.rows ↔ row ∈ db.mailboxMessages.rows)) :
    db'.rowAt mailboxId localUid = db.rowAt mailboxId localUid := by
  apply Option.ext
  intro row
  rw [rowAt_eq_some, rowAt_eq_some]
  exact and_congr_left (same row)

theorem PutRow.rowAt {row : Row MailboxMessage} (put : PutRow db db' row)
    (live : row.data.isExpunged = false) (mailboxId localUid : Int) :
    db'.rowAt mailboxId localUid =
      if row.data.mailboxId = mailboxId ∧ row.data.localUid = localUid then some row
      else db.rowAt mailboxId localUid := by
  split
  · rename_i here
    exact rowAt_eq_some.mpr ⟨(put.rows row).mpr (Or.inl rfl), isLiveAt_iff.mpr ⟨here.1, here.2, live⟩⟩
  · rename_i elsewhere
    refine rowAt_congr fun other there => ?_
    obtain ⟨mailbox, uid, -⟩ := isLiveAt_iff.mp there
    rw [put.rows other]
    constructor
    · rintro (rfl | ⟨member, -⟩)
      · exact absurd ⟨mailbox, uid⟩ elsewhere
      · exact member
    · intro member
      refine Or.inr ⟨member, fun same => elsewhere ⟨?_, ?_⟩⟩
      · exact same.1.symm.trans mailbox
      · exact same.2.symm.trans uid

theorem DropRow.rowAt {droppedMailbox droppedUid : Int} (drop : DropRow db db' droppedMailbox droppedUid)
    (mailboxId localUid : Int) :
    db'.rowAt mailboxId localUid =
      if droppedMailbox = mailboxId ∧ droppedUid = localUid then none
      else db.rowAt mailboxId localUid := by
  split
  · rename_i here
    rw [Option.eq_none_iff_forall_ne_some]
    intro row found
    obtain ⟨member, live⟩ := rowAt_eq_some.mp found
    obtain ⟨-, dead⟩ := (drop.rows row).mp member
    rw [here.1, here.2, live] at dead
    cases dead
  · rename_i elsewhere
    refine rowAt_congr fun other there => ?_
    obtain ⟨mailbox, uid, -⟩ := isLiveAt_iff.mp there
    rw [drop.rows other]
    refine and_iff_left ?_
    rw [← Bool.not_eq_true, isLiveAt_iff]
    rintro ⟨mailbox', uid', -⟩
    exact elsewhere ⟨mailbox'.symm.trans mailbox, uid'.symm.trans uid⟩

theorem KeepRows.rowAt (keep : KeepRows db db') (mailboxId localUid : Int) :
    db'.rowAt mailboxId localUid = db.rowAt mailboxId localUid :=
  rowAt_congr fun other _ => keep.rows other

/-- The transaction of an upsert: the UID of the row is the requested one, or exceeds every UID
in use when none was requested. -/
theorem insertMailboxMessage_ok {input : MailboxMessage} {row : Row MailboxMessage} {position : Int}
    (h : db.insertMailboxMessage input = .ok ((row, position), db')) :
    PutRow db db' row ∧
      (∃ modseq, row.data = { input with localUid := row.data.localUid, modseq }) ∧
      (input.localUid ≠ 0 → row.data.localUid = input.localUid) ∧
      (input.localUid = 0 → db.assignMailboxLocalUid input.mailboxId = .ok row.data.localUid) := by
  unfold insertMailboxMessage at h
  simp only [bind, Except.bind] at h
  split at h
  · cases h
  · rename_i localUid chosen
    split at h
    · cases h
    · rename_i assigned success
      obtain ⟨modseq, db₁⟩ := assigned
      obtain ⟨mailboxes, rfl, same, -⟩ := assignMailboxModseq_ok success
      dsimp only at h
      split at h
      · cases h
      · rename_i upserted mailboxMessages written
        split at h
        · cases h
        · cases h
          have data : row.data = { input with localUid, modseq := some modseq } := by
            rcases Table.upsert_row written with ⟨old, -, rfl⟩ | ⟨-, rfl⟩ <;> rfl
          have uid : row.data.localUid = localUid := by rw [data]
          have mailbox : row.data.mailboxId = input.mailboxId := by rw [data]
          refine ⟨⟨⟨mailboxes, mailboxMessages, rfl, same⟩, fun other => ?_⟩,
            ⟨some modseq, by rw [uid, data]⟩, fun requested => ?_, fun zero => ?_⟩
          · rw [Table.mem_upsert written, mailbox, uid]
            · simp only [Bool.and_eq_false_iff, beq_eq_false_iff_ne, ne_eq, not_and_or]
            · intro x hx y hy cx cy
              simp only [Bool.and_eq_true, beq_iff_eq] at cx cy
              exact @mailboxMessage_unique db x y hx hy (cx.1.trans cy.1.symm) (cx.2.trans cy.2.symm)
          · rw [chooseLocalUid, if_neg requested] at chosen
            cases chosen
            exact uid
          · rw [chooseLocalUid, if_pos zero] at chosen
            rw [uid, chosen]

theorem setMailboxMessageUpstreamUid_ok {mailboxId localUid upstreamUid : Int}
    {result : Option (Row MailboxMessage)}
    (h : db.setMailboxMessageUpstreamUid mailboxId localUid upstreamUid = .ok (result, db')) :
    (result = none ∧ KeepRows db db' ∧
      ∀ row ∈ db.mailboxMessages.rows, isLiveAt mailboxId localUid row = false) ∨
    ∃ old ∈ db.mailboxMessages.rows, isLiveAt mailboxId localUid old = true ∧
      result = some ⟨old.id, { old.data with upstreamUid := some upstreamUid }⟩ ∧
      PutRow db db' ⟨old.id, { old.data with upstreamUid := some upstreamUid }⟩ := by
  unfold setMailboxMessageUpstreamUid at h
  split at h
  · cases h
  · rename_i mailboxMessages success
    cases h
    cases found : mailboxMessages.find (isLiveAt mailboxId localUid) with
    | none =>
        obtain ⟨keeps, dead⟩ := keepRows_of_modify success found (fun _ => ⟨rfl, rfl, rfl⟩)
          (SameButModseq.refl db.mailboxes)
        exact Or.inl ⟨rfl, keeps, dead⟩
    | some row =>
        obtain ⟨put, old, member, live, rfl⟩ := putRow_of_modify success found
          (fun _ => ⟨rfl, rfl⟩) (SameButModseq.refl db.mailboxes)
        exact Or.inr ⟨old, member, live, rfl, put⟩

theorem updateMailboxMessageFlags_ok {mailboxId localUid : Int} {flags : List String}
    {result : Option (Row MailboxMessage × Int)}
    (h : db.updateMailboxMessageFlags mailboxId localUid flags = .ok (result, db')) :
    (result = none ∧ KeepRows db db' ∧
      ∀ row ∈ db.mailboxMessages.rows, isLiveAt mailboxId localUid row = false) ∨
    ∃ old ∈ db.mailboxMessages.rows, isLiveAt mailboxId localUid old = true ∧
      ∃ modseq position, result = some (⟨old.id, { old.data with flags, modseq }⟩, position) ∧
      PutRow db db' ⟨old.id, { old.data with flags, modseq }⟩ := by
  unfold updateMailboxMessageFlags at h
  simp only [bind, Except.bind] at h
  split at h
  · cases h
  · rename_i assigned success
    obtain ⟨modseq, db₁⟩ := assigned
    obtain ⟨mailboxes, rfl, same, -⟩ := assignMailboxModseq_ok success
    dsimp only at h
    split at h
    · cases h
    · rename_i mailboxMessages success
      cases h
      cases found : mailboxMessages.find (isLiveAt mailboxId localUid) with
      | none =>
          obtain ⟨keeps, dead⟩ := keepRows_of_modify success found
            (fun _ => ⟨rfl, rfl, rfl⟩) same
          exact Or.inl ⟨rfl, keeps, dead⟩
      | some row =>
          obtain ⟨put, old, member, live, rfl⟩ := putRow_of_modify success found
            (fun _ => ⟨rfl, rfl⟩) same
          exact Or.inr ⟨old, member, live, some modseq, _, rfl, put⟩

theorem flagsAt_updateMailboxMessageFlags {mailboxId localUid : Int} {flags : List String}
    {result : Option (Row MailboxMessage × Int)}
    (h : db.updateMailboxMessageFlags mailboxId localUid flags = .ok (result, db'))
    (otherMailbox otherUid : Int) :
    db'.flagsAt otherMailbox otherUid =
      if mailboxId = otherMailbox ∧ localUid = otherUid then
        (db.flagsAt otherMailbox otherUid).map fun _ => flags
      else db.flagsAt otherMailbox otherUid := by
  unfold flagsAt
  rcases updateMailboxMessageFlags_ok h with
    ⟨-, keep, dead⟩ | ⟨old, member, live, modseq, position, -, put⟩
  · rw [keep.rowAt]
    split
    · rename_i here
      have missing : db.rowAt otherMailbox otherUid = none := by
        rw [Option.eq_none_iff_forall_ne_some]
        intro row found
        obtain ⟨inTable, there⟩ := rowAt_eq_some.mp found
        rw [← here.1, ← here.2, dead row inTable] at there
        cases there
      rw [missing]
      rfl
    · rfl
  · obtain ⟨mailbox, uid, notExpunged⟩ := isLiveAt_iff.mp live
    rw [put.rowAt notExpunged, mailbox, uid]
    split
    · rename_i here
      obtain ⟨rfl, rfl⟩ := here
      rw [rowAt_eq_some.mpr ⟨member, live⟩]
      rfl
    · rfl

/-- The transaction of a copy: a new row with the contents of the source, not yet upstream. -/
theorem copyMailboxMessage_ok {source destination localUid : Int}
    {result : Option (Row MailboxMessage × Row MailboxMessage × Int)}
    (h : db.copyMailboxMessage source destination localUid = .ok (result, db')) :
    (result = none ∧ db' = db ∧
      ∀ row ∈ db.mailboxMessages.rows, isLiveAt source localUid row = false) ∨
    ∃ original ∈ db.mailboxMessages.rows, isLiveAt source localUid original = true ∧
      ∃ row position, result = some (row, original, position) ∧ PutRow db db' row ∧
        db.assignMailboxLocalUid destination = .ok row.data.localUid ∧
        (∃ modseq, row.data =
          { original.data with
            mailboxId := destination, localUid := row.data.localUid, upstreamUid := none, modseq
            isExpunged := false, expungedAt := none }) ∧
        ∀ other ∈ db.mailboxMessages.rows, other.data.mailboxId = destination →
          other.data.localUid ≠ row.data.localUid := by
  unfold copyMailboxMessage at h
  split at h
  · rename_i none
    cases h
    exact Or.inl ⟨rfl, rfl, Table.find_none.mp none⟩
  · rename_i original found
    obtain ⟨member, live⟩ := Table.mem_of_find found
    simp only [bind, Except.bind] at h
    split at h
    · cases h
    · rename_i uid chosen
      split at h
      · cases h
      · rename_i assigned success
        obtain ⟨modseq, db₁⟩ := assigned
        obtain ⟨mailboxes, rfl, same, -⟩ := assignMailboxModseq_ok success
        dsimp only at h
        split at h
        · cases h
        · rename_i row mailboxMessages inserted
          cases h
          obtain ⟨rfl, rows, -, admitted⟩ := Table.insert_eq_some inserted
          have free : ∀ other ∈ db.mailboxMessages.rows, other.data.mailboxId = destination →
              other.data.localUid ≠ uid := fun other otherMember =>
            ((mailboxMessageKeys_admits _ _).mp (admitted other otherMember)).1
          refine Or.inr ⟨original, member, live, _, _, rfl, ⟨⟨mailboxes, mailboxMessages, rfl, same⟩,
            fun other => ?_⟩, chosen, ⟨some modseq, rfl⟩, free⟩
          dsimp only
          rw [rows, List.mem_append, List.mem_singleton, or_comm]
          refine or_congr_right ⟨fun otherMember => ⟨otherMember, fun key => ?_⟩, And.left⟩
          exact free other otherMember key.1 key.2

theorem deleteMailboxMessage_ok {mailboxId localUid : Int} {result : Option (Int × Int)}
    (h : db.deleteMailboxMessage mailboxId localUid = .ok (result, db')) :
    (result = none ∧ db' = db ∧
      ∀ row ∈ db.mailboxMessages.rows, isLiveAt mailboxId localUid row = false) ∨
    ∃ target ∈ db.mailboxMessages.rows, isLiveAt mailboxId localUid target = true ∧
      (∃ position, result = some (target.data.messageId, position)) ∧
      DropRow db db' mailboxId localUid := by
  unfold deleteMailboxMessage at h
  split at h
  · rename_i none
    cases h
    exact Or.inl ⟨rfl, rfl, Table.find_none.mp none⟩
  · rename_i target found
    obtain ⟨member, live⟩ := Table.mem_of_find found
    simp only [bind, Except.bind] at h
    split at h
    · cases h
    · rename_i assigned success
      obtain ⟨modseq, db₁⟩ := assigned
      obtain ⟨mailboxes, rfl, same, -⟩ := assignMailboxModseq_ok success
      cases h
      refine Or.inr ⟨target, member, live, ⟨_, rfl⟩, ⟨⟨mailboxes, _, rfl, same⟩, fun other => ?_⟩⟩
      exact Table.mem_remove

theorem deleteMailboxMessage_position {mailboxId localUid messageId position : Int}
    (h : db.deleteMailboxMessage mailboxId localUid = .ok (some (messageId, position), db')) :
    position = db.mailboxSequenceNumber mailboxId localUid := by
  unfold deleteMailboxMessage at h
  split at h
  · cases h
  · simp only [bind, Except.bind] at h
    split at h
    · cases h
    · cases h
      rfl

/-! ## Mailboxes, mappings and checkpoints -/

theorem mailbox_some {id : Int} {row : Row Mailbox} :
    db.mailbox id = some row ↔ row ∈ db.mailboxes.rows ∧ row.id = id := Table.find_id

theorem message_some {id : Int} {row : Row Message} :
    db.message id = some row ↔ row ∈ db.messages.rows ∧ row.id = id := Table.find_id

/-- The row a sync writes first stands for its account and canonical name, under its old id. -/
theorem upsertMailbox_ok {input : Mailbox} {row : Row Mailbox}
    (h : db.upsertMailbox input = .ok (row, db')) :
    row.data = input ∧ (∃ mailboxes, db' = { db with mailboxes }) ∧
      (∀ other, other ∈ db'.mailboxes.rows ↔ other = row ∨ (other ∈ db.mailboxes.rows ∧
        ¬ (other.data.accountId = input.accountId ∧
          other.data.canonicalName = input.canonicalName))) ∧
      ∀ other ∈ db.mailboxes.rows, other.data.accountId = input.accountId →
        other.data.canonicalName = input.canonicalName → other.id = row.id := by
  unfold upsertMailbox at h
  split at h
  · cases h
  · split at h
    · rename_i written mailboxes upserted
      cases h
      have single : ∀ x ∈ db.mailboxes.rows, ∀ y ∈ db.mailboxes.rows,
          (x.data.accountId == input.accountId && x.data.canonicalName == input.canonicalName) = true →
          (y.data.accountId == input.accountId && y.data.canonicalName == input.canonicalName) = true →
          x = y := by
        intro x hx y hy cx cy
        simp only [Bool.and_eq_true, beq_iff_eq] at cx cy
        exact Table.eq_of_clash hx hy (admits_false fun admits =>
          (mailboxKeys_admits _ _).mp admits (cx.1.trans cy.1.symm) (cx.2.trans cy.2.symm))
      refine ⟨?_, ⟨mailboxes, rfl⟩, fun other => ?_, fun other member account name => ?_⟩
      · rcases Table.upsert_row upserted with ⟨old, -, rfl⟩ | ⟨-, rfl⟩ <;> rfl
      · rw [Table.mem_upsert upserted single]
        simp only [Bool.and_eq_false_iff, beq_eq_false_iff_ne, ne_eq, not_and_or]
      · rcases Table.upsert_row upserted with ⟨old, found, rfl⟩ | ⟨none, rfl⟩
        · obtain ⟨oldMember, conflicts⟩ := Table.mem_of_find found
          rw [single other member old oldMember (by simp [account, name]) conflicts]
        · simpa [account, name] using Table.find_none.mp none other member
    · cases h

/-- The mailboxes after a statement that changes nothing of a mailbox but what it caches of the
selection and the counts. -/
def SameButMetadata (before after : Table Mailbox mailboxKeys) (mailboxId : Int)
    (update : Mailbox → Mailbox) : Prop :=
  after.rows = before.rows.map (Table.modified (·.id == mailboxId) update)

theorem updateMailboxSyncMetadata_ok {mailboxId : Int} {selection : SelectedMailboxInfo}
    {result : Unit} (h : db.updateMailboxSyncMetadata mailboxId selection = .ok (result, db')) :
    ∃ mailboxes, db' = { db with mailboxes } ∧ ∃ update,
      SameButMetadata db.mailboxes mailboxes mailboxId update ∧ ∀ mailbox,
        (update mailbox).accountId = mailbox.accountId ∧
        (update mailbox).name = mailbox.name ∧
        (update mailbox).canonicalName = mailbox.canonicalName ∧
        (update mailbox).uidvalidity = selection.uidvalidity.or mailbox.uidvalidity := by
  unfold updateMailboxSyncMetadata at h
  split at h
  · rename_i mailboxes success
    cases h
    exact ⟨mailboxes, rfl, _, (Table.modify_eq_some success).1, fun _ => ⟨rfl, rfl, rfl, rfl⟩⟩
  · cases h

theorem refreshMailboxCounts_ok {mailboxId : Int} {result : Unit}
    (h : db.refreshMailboxCounts mailboxId = .ok (result, db')) :
    ∃ mailboxes, db' = { db with mailboxes } ∧ ∃ update,
      SameButMetadata db.mailboxes mailboxes mailboxId update ∧ ∀ mailbox,
        (update mailbox).accountId = mailbox.accountId ∧
        (update mailbox).name = mailbox.name ∧
        (update mailbox).canonicalName = mailbox.canonicalName ∧
        (update mailbox).uidvalidity = mailbox.uidvalidity := by
  unfold refreshMailboxCounts at h
  dsimp only at h
  split at h
  · rename_i mailboxes success
    cases h
    exact ⟨mailboxes, rfl, _, (Table.modify_eq_some success).1, fun _ => ⟨rfl, rfl, rfl, rfl⟩⟩
  · cases h

theorem createMailbox_ok {input : Mailbox} {result : Option (Row Mailbox)}
    (h : db.createMailbox input = .ok (result, db')) :
    (∃ mailboxes, db' = { db with mailboxes }) ∧ (result = none → db' = db) := by
  unfold createMailbox at h
  split at h
  · cases h
    exact ⟨⟨_, rfl⟩, fun _ => rfl⟩
  · split at h
    · cases h
    · split at h
      · cases h
        exact ⟨⟨_, rfl⟩, nofun⟩
      · cases h

theorem updateNamedMailbox_ok {accountId : Int} {mailboxName : String} {change : Mailbox → Mailbox}
    {result : Option (Row Mailbox)}
    (h : db.updateNamedMailbox accountId mailboxName change = .ok (result, db')) :
    (∃ mailboxes, db' = { db with mailboxes }) ∧ (result = none → db' = db) := by
  unfold updateNamedMailbox at h
  split at h
  · cases h
  · rename_i mailboxes success
    cases h
    refine ⟨⟨_, rfl⟩, fun none => ?_⟩
    have unmatched : db.mailboxes.find (namedMailbox accountId mailboxName) = .none := by
      cases found : db.mailboxes.find (namedMailbox accountId mailboxName) with
      | none => rfl
      | some old =>
          -- the row that was there is still there, under the same id
          obtain ⟨member, -⟩ := Table.mem_of_find found
          have kept := (Table.mem_modify success _).mpr ⟨old, member, rfl⟩
          have refound := Table.find_id.mpr ⟨kept, Table.modified_id ..⟩
          simp [found, refound] at none
    rw [Table.modify_none success unmatched]

theorem upsertUidMapping_ok {mailboxId localUid upstreamUid uidvalidity : Int} {result : Unit}
    (h : db.upsertUidMapping mailboxId localUid upstreamUid uidvalidity = .ok (result, db')) :
    ∃ uidMappings, db' = { db with uidMappings } ∧
      ∃ row : Row UidMapping, row.data = ⟨mailboxId, localUid, upstreamUid, uidvalidity⟩ ∧
        ∀ other, other ∈ uidMappings.rows ↔ other = row ∨ (other ∈ db.uidMappings.rows ∧
          ¬ (other.data.mailboxId = mailboxId ∧ other.data.localUid = localUid)) := by
  unfold upsertUidMapping at h
  split at h
  · cases h
  · split at h
    · rename_i row uidMappings upserted
      cases h
      refine ⟨uidMappings, rfl, row, ?_, fun other => ?_⟩
      · rcases Table.upsert_row upserted with ⟨old, found, rfl⟩ | ⟨-, rfl⟩
        · obtain ⟨-, conflicts⟩ := Table.mem_of_find found
          simp only [Bool.and_eq_true, beq_iff_eq] at conflicts
          simp [conflicts.1, conflicts.2]
        · rfl
      · rw [Table.mem_upsert upserted]
        · simp only [Bool.and_eq_false_iff, beq_eq_false_iff_ne, ne_eq, not_and_or]
        · intro x hx y hy cx cy
          simp only [Bool.and_eq_true, beq_iff_eq] at cx cy
          exact Table.eq_of_clash hx hy (admits_false fun admits =>
            ((uidMappingKeys_admits _ _).mp admits (cx.1.trans cy.1.symm)).1 (cx.2.trans cy.2.symm))
    · cases h

theorem putSyncState_ok {input : SyncState} {result : Unit}
    (h : db.putSyncState input = .ok (result, db')) :
    ∃ syncStates, db' = { db with syncStates } ∧ ∃ row : Row SyncState, row.data = input ∧
      ∀ other, other ∈ syncStates.rows ↔ other = row ∨ (other ∈ db.syncStates.rows ∧
        ¬ (other.data.mailboxId.isSome ∧ other.data.accountId = input.accountId ∧
          other.data.mailboxId = input.mailboxId)) := by
  unfold putSyncState at h
  split at h
  · cases h
  · split at h
    · rename_i row syncStates upserted
      cases h
      refine ⟨syncStates, rfl, row, ?_, fun other => ?_⟩
      · rcases Table.upsert_row upserted with ⟨old, -, rfl⟩ | ⟨-, rfl⟩ <;> rfl
      · rw [Table.mem_upsert upserted]
        · rw [← Bool.not_eq_true]
          simp only [Bool.and_eq_true, beq_iff_eq, and_assoc]
        · intro x hx y hy cx cy
          simp only [Bool.and_eq_true, beq_iff_eq] at cx cy
          obtain ⟨mailboxId, some⟩ := Option.isSome_iff_exists.mp cx.1.1
          exact Table.eq_of_clash hx hy (admits_false fun admits =>
            (syncStateKeys_admits _ _).mp admits mailboxId some (cx.1.2.trans cy.1.2.symm)
              (cy.2.trans (cx.2.symm.trans some)))
    · cases h

theorem loadSyncState_some {accountId mailboxId : Int} {row : Row SyncState} :
    db.loadSyncState accountId (some mailboxId) = some row ↔ row ∈ db.syncStates.rows ∧
      row.data.accountId = accountId ∧ row.data.mailboxId = some mailboxId := by
  have single : ∀ a ∈ db.syncStates.rows, ∀ b ∈ db.syncStates.rows,
      a.data.accountId = accountId ∧ a.data.mailboxId = some mailboxId →
      b.data.accountId = accountId ∧ b.data.mailboxId = some mailboxId → a = b := by
    intro a ha b hb keyA keyB
    exact Table.eq_of_clash ha hb (admits_false fun admits =>
      (syncStateKeys_admits _ _).mp admits mailboxId keyA.2 (keyA.1.trans keyB.1.symm) keyB.2)
  have members : ∀ {a}, db.loadSyncState accountId (some mailboxId) = some a →
      a ∈ db.syncStates.rows ∧ a.data.accountId = accountId ∧ a.data.mailboxId = some mailboxId := by
    intro a found
    have member := List.mem_of_mem_head? found
    simpa using member
  constructor
  · exact members
  · rintro ⟨member, key⟩
    cases found : db.loadSyncState accountId (some mailboxId) with
    | none =>
        unfold loadSyncState at found
        rw [List.head?_eq_none_iff] at found
        have listed : row ∈ ((db.syncStates.rows.filter fun row => row.data.accountId == accountId &&
            row.data.mailboxId == some mailboxId).insertionSort fun a b => b.id ≤ a.id) := by
          simpa using ⟨member, key⟩
        simp [found] at listed
    | some other =>
        obtain ⟨otherMember, otherKey⟩ := members found
        rw [single other otherMember row member otherKey key]

/-! ## Messages -/

theorem upsertMessage_ok {input : Message} {row : Row Message}
    (h : db.upsertMessage input = .ok (row, db')) :
    ∃ messages, db' = { db with messages } ∧ row = ⟨db.messages.nextId, input⟩ ∧
      messages.rows = db.messages.rows ++ [row] ∧ messages.nextId = db.messages.nextId + 1 := by
  unfold upsertMessage at h
  split at h
  · cases h
  · split at h
    · rename_i inserted messages success
      cases h
      obtain ⟨rfl, rows, next, -⟩ := Table.insert_eq_some success
      exact ⟨messages, rfl, rfl, rows, next⟩
    · cases h

/-! ## Pending mutations -/

theorem enqueueMutation_ok {input : PendingMutation} {row : Row PendingMutation}
    (h : db.enqueueMutation input = .ok (row, db')) :
    ∃ pendingMutations, db' = { db with pendingMutations } ∧
      row = ⟨db.pendingMutations.nextId, input⟩ ∧
      pendingMutations.rows = db.pendingMutations.rows ++ [row] ∧
      pendingMutations.nextId = db.pendingMutations.nextId + 1 := by
  unfold enqueueMutation at h
  split at h
  · cases h
  · rename_i inserted pendingMutations success
    split at h
    · cases h
    · cases h
      obtain ⟨rfl, rows, next, -⟩ := Table.insert_eq_some success
      exact ⟨pendingMutations, rfl, rfl, rows, next⟩

theorem updatePendingMutation_ok {id : Int} {status : MutationStatus} {attempts : Int}
    {nextAttemptAt : Option Time} {row : Row PendingMutation}
    (h : db.updatePendingMutation id status attempts nextAttemptAt = .ok (row, db')) :
    ∃ pendingMutations, db' = { db with pendingMutations } ∧
      pendingMutations.rows = db.pendingMutations.rows.map (Table.modified (·.id == id)
        fun mutation => { mutation with status, attempts, nextAttemptAt }) ∧
      pendingMutations.nextId = db.pendingMutations.nextId ∧
      ∃ old ∈ db.pendingMutations.rows, old.id = id ∧
        row = ⟨id, { old.data with status, attempts, nextAttemptAt }⟩ := by
  unfold updatePendingMutation at h
  split at h
  · cases h
  · rename_i pendingMutations success
    split at h
    · rename_i written found
      cases h
      obtain ⟨rows, next⟩ := Table.modify_eq_some success
      obtain ⟨member, same⟩ := Table.mem_of_find found
      obtain ⟨old, oldMember, rfl⟩ := (Table.mem_modify success _).mp member
      simp only [Table.modified_id, beq_iff_eq] at same
      exact ⟨pendingMutations, rfl, rows, next, old, oldMember, same, by
        simp [Table.modified, same]⟩
    · cases h

theorem updatePendingMutation_error {id : Int} {status : MutationStatus} {attempts : Int}
    {nextAttemptAt : Option Time} {failure : Error}
    (h : db.updatePendingMutation id status attempts nextAttemptAt = .error failure) :
    ∀ row ∈ db.pendingMutations.rows, row.id ≠ id := by
  intro row member same
  unfold updatePendingMutation at h
  split at h
  · rename_i refused
    obtain ⟨a, ha, b, hb, ne, clash⟩ := Table.modify_eq_none refused
    have key : ∀ r : Row PendingMutation, (Table.modified (·.id == id) (fun mutation =>
        { mutation with status, attempts, nextAttemptAt }) r).data.idempotencyKey =
          r.data.idempotencyKey := by
      intro r
      unfold Table.modified
      split <;> rfl
    have apart := (db.pendingMutations.distinct.forall ha hb ne).2
    rw [pendingMutationKeys_admits] at apart
    rw [← Bool.not_eq_true, pendingMutationKeys_admits, key, key] at clash
    exact clash apart
  · rename_i pendingMutations success
    split at h
    · cases h
    · rename_i missing
      have after := Table.find_none.mp missing _ ((Table.mem_modify success _).mpr ⟨row, member, rfl⟩)
      simp [same] at after

end Db
end ImapCache
