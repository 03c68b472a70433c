import ImapCache.Proof.Frames

/-!
# What an operation does to the row of a mailbox

Syncs and client commands write the same row through different statements. `MailboxEffect` lists
everything that one operation can do to it.
-/

namespace ImapCache
open Lib

/-- The columns that a sync takes over from the selection of the upstream mailbox. -/
def Mailbox.withSelection (selection : SelectedMailboxInfo) (mailbox : Mailbox) : Mailbox :=
  { mailbox with
    uidvalidity := selection.uidvalidity.or mailbox.uidvalidity
    uidnext := selection.uidnext.or mailbox.uidnext
    highestmodseq := selection.highestmodseq.or mailbox.highestmodseq
    existsCount := selection.exists'.getD mailbox.existsCount
    recentCount := selection.recent.getD mailbox.recentCount
    unseenCount := selection.unseen.getD mailbox.unseenCount }

/-- The mailbox whose modification sequence an operation advances. -/
def Op.sequences : Op → Option Int
  | insertMailboxMessage input => some input.mailboxId
  | updateMailboxMessageFlags mailboxId _ _ => some mailboxId
  | copyMailboxMessage _ destination _ => some destination
  | deleteMailboxMessage mailboxId _ => some mailboxId
  | _ => none

inductive MailboxEffect (op : Op) : Option (Row Mailbox) → Option (Row Mailbox) → Prop where
  | same (row) : MailboxEffect op row row
  | created {row : Row Mailbox} (insert : op = .upsertMailbox row.data ∨ op = .createMailbox row.data) :
      MailboxEffect op none (some row)
  | overwritten {row : Row Mailbox} {input} (upsert : op = .upsertMailbox input)
      (account : row.data.accountId = input.accountId)
      (name : row.data.canonicalName = input.canonicalName) :
      MailboxEffect op (some row) (some ⟨row.id, input⟩)
  | removed {row : Row Mailbox} {accountId mailboxName} (delete : op = .deleteMailbox accountId mailboxName)
      (named : Db.namedMailbox accountId mailboxName row = true) : MailboxEffect op (some row) none
  | subscribed {row : Row Mailbox} {accountId mailboxName subscribed}
      (subscribe : op = .setMailboxSubscribed accountId mailboxName subscribed)
      (named : Db.namedMailbox accountId mailboxName row = true) :
      MailboxEffect op (some row) (some ⟨row.id, { row.data with subscribed }⟩)
  | renamed {row : Row Mailbox} {accountId mailboxName newName}
      (rename : op = .renameMailbox accountId mailboxName newName)
      (named : Db.namedMailbox accountId mailboxName row = true) :
      MailboxEffect op (some row) (some ⟨row.id, { row.data with
        name := newName, canonicalName := toAsciiLowercase newName }⟩)
  | selected {row : Row Mailbox} {selection}
      (update : op = .updateMailboxSyncMetadata row.id selection) :
      MailboxEffect op (some row) (some ⟨row.id, row.data.withSelection selection⟩)
  | counted {row : Row Mailbox} {existsCount unseenCount}
      (refresh : op = .refreshMailboxCounts row.id) :
      MailboxEffect op (some row) (some ⟨row.id, { row.data with existsCount, unseenCount }⟩)
  | sequenced {row : Row Mailbox} {modseq} (advance : op.sequences = some row.id)
      (higher : row.data.highestmodseq.getD 0 < modseq) :
      MailboxEffect op (some row) (some ⟨row.id, { row.data with highestmodseq := some modseq }⟩)

namespace Db
variable {db db' : Db}

theorem mailbox_modify {p : Row Mailbox → Bool} {f : Mailbox → Mailbox}
    {mailboxes : Table Mailbox mailboxKeys} (success : db.mailboxes.modify p f = some mailboxes)
    (id : Int) :
    { db with mailboxes }.mailbox id = (db.mailbox id).map (Table.modified p f) := by
  cases before : db.mailbox id with
  | none =>
      cases after : { db with mailboxes }.mailbox id with
      | none => rfl
      | some row =>
          obtain ⟨member, same⟩ := mailbox_some.mp after
          obtain ⟨old, oldMember, rfl⟩ := (Table.mem_modify success row).mp member
          have found := mailbox_some.mpr ⟨oldMember, (Table.modified_id ..).symm.trans same⟩
          rw [before] at found
          cases found
  | some old =>
      obtain ⟨member, same⟩ := mailbox_some.mp before
      refine mailbox_some.mpr ⟨?_, (Table.modified_id ..).trans same⟩
      exact (Table.mem_modify success _).mpr ⟨old, member, rfl⟩

theorem mailbox_congr (same : db'.mailboxes = db.mailboxes) (id : Int) :
    db'.mailbox id = db.mailbox id := by
  rw [mailbox, mailbox, same]

theorem effect_of_modify {op : Op} {p : Row Mailbox → Bool} {f : Mailbox → Mailbox}
    {mailboxes : Table Mailbox mailboxKeys} (success : db.mailboxes.modify p f = some mailboxes)
    (effect : ∀ row ∈ db.mailboxes.rows, p row = true →
      MailboxEffect op (some row) (some ⟨row.id, f row.data⟩)) (id : Int) :
    MailboxEffect op (db.mailbox id) ({ db with mailboxes }.mailbox id) := by
  rw [mailbox_modify success]
  cases found : db.mailbox id with
  | none => exact .same none
  | some row =>
      cases selected : p row with
      | true => simpa [Table.modified, selected] using effect row (mailbox_some.mp found).1 selected
      | false =>
          have kept : MailboxEffect op (some row) (some row) := .same _
          simpa [Table.modified, selected] using kept

theorem assignMailboxModseq_value {mailboxId modseq : Int} {requested : Option Int}
    (h : db.assignMailboxModseq mailboxId requested = .ok (modseq, db')) :
    ∃ row, db.mailbox mailboxId = some row ∧ row.data.highestmodseq.getD 0 ≤ modseq ∧
      (db' = db ∧ modseq = row.data.highestmodseq.getD 0 ∨
        row.data.highestmodseq.getD 0 < modseq ∧
        ∃ mailboxes, db.mailboxes.modify (·.id == mailboxId)
          (fun mailbox => { mailbox with highestmodseq := some modseq }) = some mailboxes ∧
          db' = { db with mailboxes }) := by
  unfold assignMailboxModseq at h
  split at h
  · cases h
  · rename_i row found
    dsimp only at h
    split at h
    · rename_i unchanged
      cases h
      exact ⟨row, found, le_max_right .., Or.inl ⟨rfl, unchanged⟩⟩
    · rename_i changed
      split at h
      · rename_i mailboxes success
        cases h
        have higher := lt_of_le_of_ne (le_max_right (requested.getD
          (saturatingSucc (row.data.highestmodseq.getD 0))) (row.data.highestmodseq.getD 0))
          (Ne.symm changed)
        exact ⟨row, found, higher.le, Or.inr ⟨higher, mailboxes, success, rfl⟩⟩
      · cases h

theorem effect_of_assign {op : Op} {mailboxId modseq : Int} {requested : Option Int}
    (h : db.assignMailboxModseq mailboxId requested = .ok (modseq, db'))
    (advance : op.sequences = some mailboxId) (id : Int) :
    MailboxEffect op (db.mailbox id) (db'.mailbox id) := by
  obtain ⟨row, found, -, ⟨rfl, -⟩ | ⟨higher, mailboxes, success, rfl⟩⟩ := assignMailboxModseq_value h
  · exact .same _
  · refine effect_of_modify success (fun other member selected => ?_) id
    have same : other.id = mailboxId := by simpa using selected
    have unique : other = row := by
      rw [mailbox_some.mpr ⟨member, same⟩] at found
      exact Option.some.inj found
    subst unique
    exact .sequenced (advance.trans (congrArg some same.symm)) higher

/-! ## The statements on mailboxes -/

theorem upsertMailbox_effect {input : Mailbox} {row : Row Mailbox}
    (h : db.upsertMailbox input = .ok (row, db')) (id : Int) :
    MailboxEffect (.upsertMailbox input) (db.mailbox id) (db'.mailbox id) := by
  obtain ⟨rfl, ⟨mailboxes, rfl⟩, rows, sameId⟩ := upsertMailbox_ok h
  cases before : db.mailbox id with
  | none =>
      cases after : { db with mailboxes }.mailbox id with
      | none => exact .same none
      | some found =>
          obtain ⟨member, idFound⟩ := mailbox_some.mp after
          rcases (rows found).mp member with rfl | ⟨oldMember, -⟩
          · exact .created (Or.inl rfl)
          · rw [mailbox_some.mpr ⟨oldMember, idFound⟩] at before
            cases before
  | some old =>
      obtain ⟨oldMember, rfl⟩ := mailbox_some.mp before
      by_cases key : old.data.accountId = row.data.accountId ∧
          old.data.canonicalName = row.data.canonicalName
      · -- the conflicting row is replaced under its id
        have after : { db with mailboxes }.mailbox old.id = some row :=
          mailbox_some.mpr ⟨(rows row).mpr (Or.inl rfl), (sameId old oldMember key.1 key.2).symm⟩
        rw [after]
        have replaced : MailboxEffect (.upsertMailbox row.data) (some old) (some ⟨old.id, row.data⟩) :=
          .overwritten rfl key.1 key.2
        rwa [sameId old oldMember key.1 key.2] at replaced
      · rw [mailbox_some.mpr ⟨(rows old).mpr (Or.inr ⟨oldMember, key⟩), rfl⟩]
        exact .same _

theorem createMailbox_effect {input : Mailbox} {result : Option (Row Mailbox)}
    (h : db.createMailbox input = .ok (result, db')) (id : Int) :
    MailboxEffect (.createMailbox input) (db.mailbox id) (db'.mailbox id) := by
  unfold createMailbox at h
  split at h
  · cases h
    exact .same _
  · split at h
    · cases h
    · split at h
      · rename_i row mailboxes inserted
        cases h
        obtain ⟨rfl, rows, -, -⟩ := Table.insert_eq_some inserted
        cases after : { db with mailboxes }.mailbox id with
        | none =>
            cases before : db.mailbox id with
            | none => exact .same none
            | some old =>
                obtain ⟨member, same⟩ := mailbox_some.mp before
                have kept : old ∈ { db with mailboxes }.mailboxes.rows := by simp [rows, member]
                rw [mailbox_some.mpr ⟨kept, same⟩] at after
                cases after
        | some row =>
            obtain ⟨member, same⟩ := mailbox_some.mp after
            have member : row ∈ db.mailboxes.rows ∨ row = ⟨db.mailboxes.nextId, input⟩ := by
              simpa [rows] using member
            rcases member with old | rfl
            · rw [mailbox_some.mpr ⟨old, same⟩]
              exact .same _
            · have fresh : db.mailbox id = none := by
                rw [Option.eq_none_iff_forall_ne_some]
                intro old found
                obtain ⟨oldMember, oldSame⟩ := mailbox_some.mp found
                have bound := db.mailboxes.fresh old oldMember
                simp only at same
                omega
              rw [fresh]
              exact .created (Or.inr rfl)
      · cases h

theorem updateNamedMailbox_modify {accountId : Int} {mailboxName : String} {change : Mailbox → Mailbox}
    {result : Option (Row Mailbox)}
    (h : db.updateNamedMailbox accountId mailboxName change = .ok (result, db')) :
    ∃ mailboxes, db.mailboxes.modify (namedMailbox accountId mailboxName) change = some mailboxes ∧
      db' = { db with mailboxes } := by
  unfold updateNamedMailbox at h
  split at h
  · cases h
  · rename_i mailboxes success
    cases h
    exact ⟨mailboxes, success, rfl⟩

theorem setMailboxSubscribed_mailbox {accountId : Int} {mailboxName : String} {subscribed : Bool}
    {world : World} {row : Row Mailbox} (found : world.db.mailbox row.id = some row)
    (named : namedMailbox accountId mailboxName row = true) :
    (world.commit (world.db.setMailboxSubscribed accountId mailboxName subscribed)).2.db.mailbox row.id =
      some ⟨row.id, { row.data with subscribed }⟩ := by
  obtain ⟨mailboxes, success⟩ := world.db.mailboxes.modify_of_keeps
    (namedMailbox accountId mailboxName) (f := fun mailbox => { mailbox with subscribed }) fun _ _ => rfl
  have after := mailbox_modify success row.id
  simp only [found, Option.map_some, Table.modified, named, if_true] at after
  rw [← after]
  simp [World.commit, setMailboxSubscribed, updateNamedMailbox, success]

theorem deleteMailbox_effect (accountId : Int) (mailboxName : String) (id : Int) :
    MailboxEffect (.deleteMailbox accountId mailboxName) (db.mailbox id)
      ((db.deleteMailbox accountId mailboxName).2.mailbox id) := by
  have kept : ∀ row, row ∈ (db.deleteMailbox accountId mailboxName).2.mailboxes.rows ↔
      row ∈ db.mailboxes.rows ∧ namedMailbox accountId mailboxName row = false :=
    fun row => Table.mem_remove
  cases before : db.mailbox id with
  | none =>
      cases after : (db.deleteMailbox accountId mailboxName).2.mailbox id with
      | none => exact .same none
      | some row =>
          obtain ⟨member, same⟩ := mailbox_some.mp after
          rw [mailbox_some.mpr ⟨((kept row).mp member).1, same⟩] at before
          cases before
  | some row =>
      obtain ⟨member, same⟩ := mailbox_some.mp before
      cases named : namedMailbox accountId mailboxName row with
      | false =>
          rw [mailbox_some.mpr ⟨(kept row).mpr ⟨member, named⟩, same⟩]
          exact .same _
      | true =>
          cases after : (db.deleteMailbox accountId mailboxName).2.mailbox id with
          | none => exact .removed rfl named
          | some found =>
              obtain ⟨foundMember, foundSame⟩ := mailbox_some.mp after
              obtain ⟨oldMember, unnamed⟩ := (kept found).mp foundMember
              rw [Table.eq_of_id oldMember member (foundSame.trans same.symm), named] at unnamed
              cases unnamed

/-! ## The statements on messages -/

/-- The transaction assigned a modification sequence and changed the mailboxes no further. -/
def Sequenced (db db' : Db) (mailboxId modseq : Int) : Prop :=
  ∃ requested db₁, db.assignMailboxModseq mailboxId requested = .ok (modseq, db₁) ∧
    db'.mailboxes = db₁.mailboxes

theorem Sequenced.effect {op : Op} {mailboxId modseq : Int} (sequenced : Sequenced db db' mailboxId modseq)
    (advance : op.sequences = some mailboxId) (id : Int) :
    MailboxEffect op (db.mailbox id) (db'.mailbox id) := by
  obtain ⟨requested, db₁, assigned, same⟩ := sequenced
  rw [mailbox_congr same]
  exact effect_of_assign assigned advance id

theorem Sequenced.value {mailboxId modseq : Int} (sequenced : Sequenced db db' mailboxId modseq) :
    ∃ mailbox, db'.mailbox mailboxId = some mailbox ∧ mailbox.data.highestmodseq.getD 0 = modseq := by
  obtain ⟨requested, db₁, assigned, same⟩ := sequenced
  rw [mailbox_congr same]
  obtain ⟨row, found, -, ⟨rfl, eq⟩ | ⟨-, mailboxes, success, rfl⟩⟩ := assignMailboxModseq_value assigned
  · exact ⟨row, found, eq.symm⟩
  · rw [mailbox_modify success, found]
    refine ⟨_, rfl, ?_⟩
    simp [Table.modified, (mailbox_some.mp found).2]

theorem insertMailboxMessage_sequenced {input : MailboxMessage} {row : Row MailboxMessage} {position : Int}
    (h : db.insertMailboxMessage input = .ok ((row, position), db')) :
    ∃ modseq, row.data.modseq = some modseq ∧ Sequenced db db' input.mailboxId modseq := by
  unfold insertMailboxMessage at h
  simp only [bind, Except.bind] at h
  split at h
  · cases h
  · split at h
    · cases h
    · rename_i assigned success
      obtain ⟨modseq, db₁⟩ := assigned
      dsimp only at h
      split at h
      · cases h
      · rename_i upserted mailboxMessages written
        split at h
        · cases h
        · cases h
          refine ⟨modseq, ?_, input.modseq, db₁, success, rfl⟩
          rcases Table.upsert_row written with ⟨old, -, rfl⟩ | ⟨-, rfl⟩ <;> rfl

theorem updateMailboxMessageFlags_sequenced {mailboxId localUid : Int} {flags : List String}
    {result : Option (Row MailboxMessage × Int)}
    (h : db.updateMailboxMessageFlags mailboxId localUid flags = .ok (result, db')) :
    ∃ modseq, Sequenced db db' mailboxId modseq ∧ ∀ row ∈ db'.mailboxMessages.rows,
      row ∈ db.mailboxMessages.rows ∨ row.data.mailboxId = mailboxId ∧ row.data.modseq = some modseq := by
  unfold updateMailboxMessageFlags at h
  simp only [bind, Except.bind] at h
  split at h
  · cases h
  · rename_i assigned success
    obtain ⟨modseq, db₁⟩ := assigned
    obtain ⟨mailboxes, rfl, -⟩ := assignMailboxModseq_ok success
    dsimp only at h
    split at h
    · cases h
    · rename_i mailboxMessages written
      cases h
      refine ⟨modseq, ⟨none, _, success, rfl⟩, fun row member => ?_⟩
      obtain ⟨old, oldMember, rfl⟩ := (Table.mem_modify written row).mp member
      cases live : isLiveAt mailboxId localUid old with
      | false => exact Or.inl (by simpa [Table.modified, live] using oldMember)
      | true => exact Or.inr (by simpa [Table.modified, live] using (isLiveAt_iff.mp live).1)

theorem copyMailboxMessage_sequenced {source destination localUid : Int}
    {result : Option (Row MailboxMessage × Row MailboxMessage × Int)}
    (h : db.copyMailboxMessage source destination localUid = .ok (result, db')) :
    db' = db ∨ ∃ modseq, Sequenced db db' destination modseq ∧ ∀ row ∈ db'.mailboxMessages.rows,
      row ∈ db.mailboxMessages.rows ∨ row.data.mailboxId = destination ∧ row.data.modseq = some modseq := by
  unfold copyMailboxMessage at h
  split at h
  · cases h
    exact Or.inl rfl
  · simp only [bind, Except.bind] at h
    split at h
    · cases h
    · split at h
      · cases h
      · rename_i assigned success
        obtain ⟨modseq, db₁⟩ := assigned
        obtain ⟨mailboxes, rfl, -⟩ := assignMailboxModseq_ok success
        dsimp only at h
        split at h
        · cases h
        · rename_i inserted mailboxMessages written
          cases h
          obtain ⟨rfl, rows, -, -⟩ := Table.insert_eq_some written
          refine Or.inr ⟨modseq, ⟨none, _, success, rfl⟩, fun row member => ?_⟩
          dsimp only at member
          rw [rows, List.mem_append, List.mem_singleton] at member
          refine member.imp id fun inserted => ?_
          subst inserted
          exact ⟨rfl, rfl⟩

theorem deleteMailboxMessage_sequenced {mailboxId localUid : Int} {result : Option (Int × Int)}
    (h : db.deleteMailboxMessage mailboxId localUid = .ok (result, db')) :
    db' = db ∨ ∃ modseq, Sequenced db db' mailboxId modseq ∧ ∀ row ∈ db'.mailboxMessages.rows,
      row ∈ db.mailboxMessages.rows := by
  unfold deleteMailboxMessage at h
  split at h
  · cases h
    exact Or.inl rfl
  · simp only [bind, Except.bind] at h
    split at h
    · cases h
    · rename_i assigned success
      obtain ⟨modseq, db₁⟩ := assigned
      obtain ⟨mailboxes, rfl, -⟩ := assignMailboxModseq_ok success
      cases h
      exact Or.inr ⟨modseq, ⟨none, _, success, rfl⟩, fun row member => (Table.mem_remove.mp member).1⟩

end Db

namespace World

theorem commit_effect {α : Type} {op : Op} (world : World) (result : Except Error (α × Db)) (id : Int)
    (effect : ∀ value db, result = .ok (value, db) →
      MailboxEffect op (world.db.mailbox id) (db.mailbox id)) :
    MailboxEffect op (world.db.mailbox id) ((world.commit result).2.db.mailbox id) := by
  unfold commit
  split
  · exact effect _ _ rfl
  · exact .same _

theorem perform_mailbox (lib : Libraries) (world : World) (op : Op) (id : Int) :
    MailboxEffect op (world.db.mailbox id) ((world.perform lib op).2.db.mailbox id) := by
  by_cases untouched : Component.mailboxes ∉ op.writes
  · rw [Db.mailbox_congr (perform_frame lib world op .mailboxes untouched) id]
    exact .same _
  · cases op with
    | upsertMailbox input =>
        exact commit_effect _ _ _ fun row db h => Db.upsertMailbox_effect h id
    | createMailbox input =>
        exact commit_effect _ _ _ fun row db h => Db.createMailbox_effect h id
    | renameMailbox accountId mailboxName newName =>
        refine commit_effect _ _ _ fun value db h => ?_
        obtain ⟨mailboxes, success, rfl⟩ := Db.updateNamedMailbox_modify h
        exact Db.effect_of_modify success (fun row _ named => .renamed rfl named) id
    | setMailboxSubscribed accountId mailboxName subscribed =>
        refine commit_effect _ _ _ fun value db h => ?_
        obtain ⟨mailboxes, success, rfl⟩ := Db.updateNamedMailbox_modify h
        exact Db.effect_of_modify success (fun row _ named => .subscribed rfl named) id
    | deleteMailbox accountId mailboxName =>
        exact Db.deleteMailbox_effect accountId mailboxName id
    | updateMailboxSyncMetadata mailboxId selection =>
        refine commit_effect _ _ _ fun value db h => ?_
        unfold Db.updateMailboxSyncMetadata at h
        split at h
        · rename_i mailboxes success
          cases h
          refine Db.effect_of_modify success (fun row _ same => ?_) id
          have same : row.id = mailboxId := by simpa using same
          exact .selected (by rw [same])
        · cases h
    | insertMailboxMessage input =>
        refine commit_effect _ _ _ fun value db h => ?_
        obtain ⟨modseq, -, sequenced⟩ := Db.insertMailboxMessage_sequenced h
        exact sequenced.effect rfl id
    | setMailboxMessageUpstreamUid mailboxId localUid upstreamUid =>
        refine commit_effect _ _ _ fun value db h => ?_
        unfold Db.setMailboxMessageUpstreamUid at h
        split at h
        · cases h
        · cases h
          exact .same _
    | updateMailboxMessageFlags mailboxId localUid flags =>
        refine commit_effect _ _ _ fun value db h => ?_
        obtain ⟨modseq, sequenced, -⟩ := Db.updateMailboxMessageFlags_sequenced h
        exact sequenced.effect rfl id
    | copyMailboxMessage source destination localUid =>
        refine commit_effect _ _ _ fun value db h => ?_
        rcases Db.copyMailboxMessage_sequenced h with rfl | ⟨modseq, sequenced, -⟩
        · exact .same _
        · exact sequenced.effect rfl id
    | deleteMailboxMessage mailboxId localUid =>
        refine commit_effect _ _ _ fun value db h => ?_
        rcases Db.deleteMailboxMessage_sequenced h with rfl | ⟨modseq, sequenced, -⟩
        · exact .same _
        · exact sequenced.effect rfl id
    | refreshMailboxCounts mailboxId =>
        refine commit_effect _ _ _ fun value db h => ?_
        unfold Db.refreshMailboxCounts at h
        dsimp only at h
        split at h
        · rename_i mailboxes success
          cases h
          refine Db.effect_of_modify success (fun row _ same => ?_) id
          have same : row.id = mailboxId := by simpa using same
          exact .counted (by rw [same])
        · cases h
    | _ => exact absurd (by simp [Op.writes]) untouched

theorem answer_mailbox (lib : Libraries) (fault : Fault Error) (op : Op) (world : World) (id : Int) :
    MailboxEffect op (world.db.mailbox id)
        (((cacheHandler lib).answer fault op world).2.db.mailbox id) ∧
      (fault.reaches = false →
        ((cacheHandler lib).answer fault op world).2.db.mailbox id = world.db.mailbox id) := by
  constructor
  · rcases (cacheHandler lib).answer_state fault op world with eq | eq <;> rw [eq]
    · exact .same _
    · exact perform_mailbox lib world op id
  · intro lost
    cases fallible : op.fallible with
    | true => rw [Handler.answer_lost world fallible lost]
    | false =>
        have untouched : Component.mailboxes ∉ op.writes := by
          cases op <;> first | (simp [Op.writes]; done) | cases fallible
        exact Db.mailbox_congr (answer_frame lib fault op world .mailboxes untouched) id

end World
end ImapCache
