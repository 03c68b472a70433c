import ImapCache.Lib.Serial
import ImapCache.Model.Tasks
import ImapCache.Proof.MailboxRows

/-!
# The accounts of mailboxes and messages

No statement gives a mailbox or a message to another account, and none hands out an id again. No statement
changes what an account is configured with.
-/

namespace ImapCache
open Lib

namespace Db
variable {db db' : Db}

theorem assignMailboxModseq_succeeds {mailboxId modseq : Int} {requested : Option Int}
    (assigned : db.assignMailboxModseq mailboxId requested = .ok (modseq, db')) :
    db.mailboxes.Succeeds (·.accountId) db'.mailboxes := by
  obtain ⟨row, -, -, ⟨rfl, -⟩ | ⟨-, mailboxes, success, rfl⟩⟩ := assignMailboxModseq_value assigned
  · exact .refl _
  · exact Table.succeeds_modify success fun _ _ _ => rfl

theorem Sequenced.succeeds {mailboxId modseq : Int} (sequenced : Sequenced db db' mailboxId modseq) :
    db.mailboxes.Succeeds (·.accountId) db'.mailboxes := by
  obtain ⟨requested, db₁, assigned, same⟩ := sequenced
  rw [same]
  exact assignMailboxModseq_succeeds assigned

theorem upsertMailbox_succeeds {input : Mailbox} {row : Row Mailbox}
    (upserted : db.upsertMailbox input = .ok (row, db')) : db.mailboxes.Succeeds (·.accountId) db'.mailboxes := by
  unfold upsertMailbox at upserted
  split at upserted
  · cases upserted
  · split at upserted
    · rename_i _ mailboxes success
      cases upserted
      refine Table.succeeds_upsert success fun old _ conflicts => ?_
      simp only [Bool.and_eq_true, beq_iff_eq] at conflicts
      exact conflicts.1.symm
    · cases upserted

theorem createMailbox_succeeds {input : Mailbox} {result : Option (Row Mailbox)}
    (created : db.createMailbox input = .ok (result, db')) : db.mailboxes.Succeeds (·.accountId) db'.mailboxes := by
  unfold createMailbox at created
  split at created
  · cases created
    exact .refl _
  · split at created
    · cases created
    · split at created
      · rename_i _ mailboxes success
        cases created
        exact Table.succeeds_insert success
      · cases created

end Db

namespace World

theorem commit_succeeds {α : Type} (world : World) (result : Except Error (α × Db))
    (succeeds : ∀ value db, result = .ok (value, db) → world.db.mailboxes.Succeeds (·.accountId) db.mailboxes) :
    world.db.mailboxes.Succeeds (·.accountId) (world.commit result).2.db.mailboxes := by
  unfold commit
  split
  · exact succeeds _ _ rfl
  · exact .refl _

theorem perform_mailboxes_succeed (lib : Libraries) (world : World) (op : Op) :
    world.db.mailboxes.Succeeds (·.accountId) (world.perform lib op).2.db.mailboxes := by
  by_cases untouched : Component.mailboxes ∉ op.writes
  · exact .of_eq (perform_frame lib world op .mailboxes untouched)
  · cases op with
    | upsertMailbox input => exact commit_succeeds _ _ fun row db h => Db.upsertMailbox_succeeds h
    | createMailbox input => exact commit_succeeds _ _ fun row db h => Db.createMailbox_succeeds h
    | renameMailbox accountId mailboxName newName =>
        refine commit_succeeds _ _ fun value db h => ?_
        obtain ⟨mailboxes, success, rfl⟩ := Db.updateNamedMailbox_modify h
        exact Table.succeeds_modify success fun _ _ _ => rfl
    | setMailboxSubscribed accountId mailboxName subscribed =>
        refine commit_succeeds _ _ fun value db h => ?_
        obtain ⟨mailboxes, success, rfl⟩ := Db.updateNamedMailbox_modify h
        exact Table.succeeds_modify success fun _ _ _ => rfl
    | deleteMailbox accountId mailboxName => exact Table.succeeds_remove _
    | updateMailboxSyncMetadata mailboxId selection =>
        refine commit_succeeds _ _ fun value db h => ?_
        unfold Db.updateMailboxSyncMetadata at h
        split at h
        · rename_i mailboxes success
          cases h
          exact Table.succeeds_modify success fun _ _ _ => rfl
        · cases h
    | insertMailboxMessage input =>
        refine commit_succeeds _ _ fun value db h => ?_
        obtain ⟨modseq, -, sequenced⟩ := Db.insertMailboxMessage_sequenced h
        exact sequenced.succeeds
    | setMailboxMessageUpstreamUid mailboxId localUid upstreamUid =>
        refine commit_succeeds _ _ fun value db h => ?_
        unfold Db.setMailboxMessageUpstreamUid at h
        split at h
        · cases h
        · cases h
          exact .refl _
    | updateMailboxMessageFlags mailboxId localUid flags =>
        refine commit_succeeds _ _ fun value db h => ?_
        obtain ⟨modseq, sequenced, -⟩ := Db.updateMailboxMessageFlags_sequenced h
        exact sequenced.succeeds
    | copyMailboxMessage source destination localUid =>
        refine commit_succeeds _ _ fun value db h => ?_
        rcases Db.copyMailboxMessage_sequenced h with rfl | ⟨modseq, sequenced, -⟩
        · exact .refl _
        · exact sequenced.succeeds
    | deleteMailboxMessage mailboxId localUid =>
        refine commit_succeeds _ _ fun value db h => ?_
        rcases Db.deleteMailboxMessage_sequenced h with rfl | ⟨modseq, sequenced, -⟩
        · exact .refl _
        · exact sequenced.succeeds
    | refreshMailboxCounts mailboxId =>
        refine commit_succeeds _ _ fun value db h => ?_
        unfold Db.refreshMailboxCounts at h
        dsimp only at h
        split at h
        · rename_i mailboxes success
          cases h
          exact Table.succeeds_modify success fun _ _ _ => rfl
        · cases h
    | _ => exact absurd (by simp [Op.writes]) untouched

theorem perform_messages_succeed (lib : Libraries) (world : World) (op : Op) :
    world.db.messages.Succeeds (·.accountId) (world.perform lib op).2.db.messages := by
  by_cases untouched : Component.messages ∉ op.writes
  · exact .of_eq (perform_frame lib world op .messages untouched)
  · cases op with
    | upsertMessage input =>
        cases result : world.db.upsertMessage input with
        | error failure =>
            rw [show world.perform lib (.upsertMessage input) = (.error failure, world) from commit_of_error result]
            exact .refl _
        | ok inserted =>
            obtain ⟨row, db'⟩ := inserted
            rw [show world.perform lib (.upsertMessage input) = (.ok row, { world with db := db' }) from
              commit_of_ok result]
            unfold Db.upsertMessage at result
            split at result
            · cases result
            · split at result
              · rename_i _ messages success
                cases result
                exact Table.succeeds_insert success
              · cases result
    | _ => exact absurd (by simp [Op.writes]) untouched

theorem answer_mailboxes_succeed (lib : Libraries) (fault : Fault Error) (op : Op) (world : World) :
    world.db.mailboxes.Succeeds (·.accountId) ((cacheHandler lib).answer fault op world).2.db.mailboxes := by
  rcases (cacheHandler lib).answer_state fault op world with eq | eq <;> rw [eq]
  · exact .refl _
  · exact perform_mailboxes_succeed lib world op

theorem answer_messages_succeed (lib : Libraries) (fault : Fault Error) (op : Op) (world : World) :
    world.db.messages.Succeeds (·.accountId) ((cacheHandler lib).answer fault op world).2.db.messages := by
  rcases (cacheHandler lib).answer_state fault op world with eq | eq <;> rw [eq]
  · exact .refl _
  · exact perform_messages_succeed lib world op

theorem disturb_mailboxes_succeed (change : Environment) (world : World) :
    world.db.mailboxes.Succeeds (·.accountId) (change.disturb world).db.mailboxes := by
  cases change <;> exact .refl _

theorem disturb_messages_succeed (change : Environment) (world : World) :
    world.db.messages.Succeeds (·.accountId) (change.disturb world).db.messages := by
  cases change <;> exact .refl _

end World

/-! ## Settings of accounts -/

def MailAccount.settings (account : MailAccount) : MailAccount :=
  { account with lastSyncAt := none, lastSyncError := none }

def Db.settings (db : Db) : List (Int × MailAccount) :=
  db.accounts.rows.map fun row => (row.id, row.data.settings)

theorem Db.mem_settings {db : Db} {row : Row MailAccount} (member : row ∈ db.accounts.rows) :
    (row.id, row.data.settings) ∈ db.settings := List.mem_map_of_mem member

theorem Db.mem_of_newest {α : Type} {rows : List (Row α)} {row : Row α} (found : Db.newest rows = some row) :
    row ∈ rows := by
  have member := List.mem_of_mem_head? found
  rwa [(List.perm_insertionSort _ _).mem_iff] at member

namespace World

theorem perform_settings (lib : Libraries) (world : World) (op : Op) :
    (world.perform lib op).2.db.settings = world.db.settings := by
  by_cases untouched : Component.accounts ∉ op.writes
  · have same := perform_frame lib world op .accounts untouched
    exact congrArg (fun accounts : Table MailAccount _ => accounts.rows.map fun row => (row.id, row.data.settings)) same
  · cases op with
    | setMailAccountSyncStatus accountId error =>
        have stated (at' : Option Time) (accounts : Table MailAccount (.free _))
            (success : world.db.accounts.modify (·.id == accountId)
              (fun account => { account with lastSyncAt := at', lastSyncError := error }) = some accounts) :
            (accounts.rows.map fun row => (row.id, row.data.settings)) = world.db.settings := by
          rw [(Table.modify_eq_some success).1, List.map_map]
          refine List.map_congr_left fun row _ => ?_
          unfold Function.comp Table.modified
          split <;> rfl
        change (world.commit (world.db.setMailAccountSyncStatus accountId _ error)).2.db.settings = _
        unfold commit Db.setMailAccountSyncStatus
        split
        · rename_i result
          split at result
          · rename_i accounts success
            cases result
            exact stated _ accounts success
          · cases result
            rfl
        · rfl
    | _ => exact absurd (by simp [Op.writes]) untouched

theorem answer_settings (lib : Libraries) (fault : Fault Error) (op : Op) (world : World) :
    ((cacheHandler lib).answer fault op world).2.db.settings = world.db.settings := by
  rcases (cacheHandler lib).answer_state fault op world with eq | eq <;> rw [eq]
  exact perform_settings lib world op

theorem disturb_settings (change : Environment) (world : World) :
    (change.disturb world).db.settings = world.db.settings := by
  cases change <;> rfl

end World
end ImapCache
