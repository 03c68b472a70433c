import ImapCache.Lib.Spared
import ImapCache.Proof.AccountContracts
import ImapCache.Proof.AccountRows

/-!
# Rows of other accounts

An operation that names only what an account holds changes no row that belongs to anything else.
-/

namespace ImapCache
open Lib

/-- The mailboxes of the account are those that are held. -/
def Holdings.Holds (holdings : Holdings) (db : Db) : Prop :=
  ∀ row ∈ db.mailboxes.rows, holdings.mailbox row.id ↔ row.data.accountId = holdings.account

/-- No row changes that belongs to another account, or to a mailbox or a message that is not held. -/
structure Db.Spares (holdings : Holdings) (db db' : Db) : Prop where
  accounts : db.accounts.Spares (fun row => row.id ≠ holdings.account) db'.accounts
  mailboxes : db.mailboxes.Spares (fun row => row.data.accountId ≠ holdings.account) db'.mailboxes
  messages : db.messages.Spares (fun row => row.data.accountId ≠ holdings.account) db'.messages
  mailboxMessages : db.mailboxMessages.Spares (fun row => ¬ holdings.mailbox row.data.mailboxId) db'.mailboxMessages
  mimeParts : db.mimeParts.Spares (fun row => ¬ holdings.message row.data.messageId) db'.mimeParts
  uidMappings : db.uidMappings.Spares (fun row => ¬ holdings.mailbox row.data.mailboxId) db'.uidMappings
  syncStates : db.syncStates.Spares (fun row => row.data.accountId ≠ holdings.account ∧
    ∀ mailboxId ∈ row.data.mailboxId, ¬ holdings.mailbox mailboxId) db'.syncStates
  pendingMutations : db.pendingMutations.Spares (fun row => ¬ holdings.mailbox row.data.mailboxId) db'.pendingMutations
  cacheObjects : db.cacheObjects.Spares (fun row => row.data.accountId ≠ some holdings.account) db'.cacheObjects
  quotas : db.quotas.Spares (fun row => row.data.accountId ≠ some holdings.account) db'.quotas
  users : db'.users = db.users

namespace World
variable {holdings : Holdings} {lib : Libraries} {world : World} {op : Op}

theorem commit_spares {α β : Type} {c : Constraint β} (table : Db → Table β c) {p : Row β → Prop}
    {result : Except Error (α × Db)}
    (spares : ∀ value db, result = .ok (value, db) → (table world.db).Spares p (table db)) :
    (table world.db).Spares p (table (world.commit result).2.db) := by
  unfold commit
  split
  · exact spares _ _ rfl
  · exact .refl _

section Mailboxes

theorem modify_spares {mailboxId : Int} (held : holdings.mailbox mailboxId) {f : Mailbox → Mailbox}
    {mailboxes : Table Mailbox mailboxKeys} (holds : holdings.Holds world.db)
    (success : world.db.mailboxes.modify (·.id == mailboxId) f = some mailboxes)
    (keeps : ∀ mailbox, (f mailbox).accountId = mailbox.accountId) :
    world.db.mailboxes.Spares (fun row => row.data.accountId ≠ holdings.account) mailboxes := by
  refine Table.spares_modify success fun row member selected => ?_
  obtain rfl : row.id = mailboxId := by simpa using selected
  have own := (holds row member).mp held
  refine ⟨fun other => other own, fun other => other ?_⟩
  rw [keeps, own]

theorem sequenced_spares {db' : Db} {mailboxId modseq : Int} (held : holdings.mailbox mailboxId)
    (holds : holdings.Holds world.db) (sequenced : Db.Sequenced world.db db' mailboxId modseq) :
    world.db.mailboxes.Spares (fun row => row.data.accountId ≠ holdings.account) db'.mailboxes := by
  obtain ⟨requested, db₁, assigned, same⟩ := sequenced
  rw [same]
  obtain ⟨row, -, -, ⟨rfl, -⟩ | ⟨-, mailboxes, success, rfl⟩⟩ := Db.assignMailboxModseq_value assigned
  · exact .refl _
  · exact modify_spares held holds success fun _ => rfl

/-- A name is looked up among the mailboxes of one account. -/
theorem named_own {accountId : Int} {mailboxName : String} (own : accountId = holdings.account) {row : Row Mailbox}
    (selected : Db.namedMailbox accountId mailboxName row = true) : row.data.accountId = holdings.account := by
  simp only [Db.namedMailbox, Bool.and_eq_true, beq_iff_eq] at selected
  exact selected.1.trans own

theorem upsertMailbox_spares {input : Mailbox} (own : input.accountId = holdings.account) {row : Row Mailbox}
    {db' : Db} (h : world.db.upsertMailbox input = .ok (row, db')) :
    world.db.mailboxes.Spares (fun row => row.data.accountId ≠ holdings.account) db'.mailboxes := by
  unfold Db.upsertMailbox at h
  split at h
  · cases h
  · split at h
    · rename_i row mailboxes success
      cases h
      refine Table.spares_upsert success (fun old _ conflicts other => ?_) fun other => ?_
      · simp only [Bool.and_eq_true, beq_iff_eq] at conflicts
        exact other (conflicts.1.trans own)
      · rcases Table.upsert_row success with ⟨old, -, rfl⟩ | ⟨-, rfl⟩ <;> exact other own
    · cases h

theorem createMailbox_spares {input : Mailbox} (own : input.accountId = holdings.account)
    {row : Option (Row Mailbox)} {db' : Db} (h : world.db.createMailbox input = .ok (row, db')) :
    world.db.mailboxes.Spares (fun row => row.data.accountId ≠ holdings.account) db'.mailboxes := by
  unfold Db.createMailbox at h
  split at h
  · cases h
    exact .refl _
  · split at h
    · cases h
    · split at h
      · rename_i row mailboxes success
        cases h
        refine Table.spares_insert success fun other => ?_
        obtain ⟨rfl, -⟩ := Table.insert_eq_some success
        exact other own
      · cases h

/-- RENAME and SUBSCRIBE change no account of a mailbox. -/
theorem updateNamedMailbox_spares {accountId : Int} (own : accountId = holdings.account) {mailboxName : String}
    {change : Mailbox → Mailbox} (keeps : ∀ mailbox, (change mailbox).accountId = mailbox.accountId)
    {result : Option (Row Mailbox)} {db' : Db}
    (h : world.db.updateNamedMailbox accountId mailboxName change = .ok (result, db')) :
    world.db.mailboxes.Spares (fun row => row.data.accountId ≠ holdings.account) db'.mailboxes := by
  obtain ⟨mailboxes, success, rfl⟩ := Db.updateNamedMailbox_modify h
  refine Table.spares_modify success fun row _ selected => ?_
  have isOwn := named_own own selected
  refine ⟨fun other => other isOwn, fun other => other ?_⟩
  rw [keeps, isOwn]

theorem updateMailboxSyncMetadata_spares {mailboxId : Int} (held : holdings.mailbox mailboxId)
    (holds : holdings.Holds world.db) {selection : SelectedMailboxInfo} {result : Unit} {db' : Db}
    (h : world.db.updateMailboxSyncMetadata mailboxId selection = .ok (result, db')) :
    world.db.mailboxes.Spares (fun row => row.data.accountId ≠ holdings.account) db'.mailboxes := by
  unfold Db.updateMailboxSyncMetadata at h
  split at h
  · rename_i mailboxes success
    cases h
    exact modify_spares held holds success fun _ => rfl
  · cases h

theorem refreshMailboxCounts_spares {mailboxId : Int} (held : holdings.mailbox mailboxId)
    (holds : holdings.Holds world.db) {result : Unit} {db' : Db}
    (h : world.db.refreshMailboxCounts mailboxId = .ok (result, db')) :
    world.db.mailboxes.Spares (fun row => row.data.accountId ≠ holdings.account) db'.mailboxes := by
  unfold Db.refreshMailboxCounts at h
  dsimp only at h
  split at h
  · rename_i mailboxes success
    cases h
    exact modify_spares held holds success fun _ => rfl
  · cases h

theorem gone_held {accountId : Int} {mailboxName : String} (own : accountId = holdings.account) {mailboxId : Int}
    (holds : holdings.Holds world.db)
    (gone : ((world.db.mailboxes.rows.filter (Db.namedMailbox accountId mailboxName)).any
      (·.id == mailboxId)) = true) : holdings.mailbox mailboxId := by
  obtain ⟨row, member, same⟩ := List.any_eq_true.mp gone
  obtain ⟨member, named⟩ := List.mem_filter.mp member
  obtain rfl : row.id = mailboxId := by simpa using same
  exact (holds row member).mpr (named_own own named)

variable (holds : holdings.Holds world.db) (within : op.Within holdings)
include holds within

theorem perform_spares_mailboxes : world.db.mailboxes.Spares (fun row => row.data.accountId ≠ holdings.account)
    (world.perform lib op).2.db.mailboxes := by
  by_cases untouched : Component.mailboxes ∉ op.writes
  · exact .of_eq (perform_frame lib world op .mailboxes untouched)
  · cases op with
    | upsertMailbox input =>
        have own := within.accounts input.accountId (List.mem_singleton_self _)
        exact commit_spares (·.mailboxes) fun row db h => upsertMailbox_spares own h
    | createMailbox input =>
        have own := within.accounts input.accountId (List.mem_singleton_self _)
        exact commit_spares (·.mailboxes) fun row db h => createMailbox_spares own h
    | renameMailbox accountId mailboxName newName =>
        have own := within.accounts accountId (List.mem_singleton_self _)
        refine commit_spares (·.mailboxes) fun value db h => ?_
        unfold Db.renameMailbox at h
        exact updateNamedMailbox_spares own (fun _ => by rfl) h
    | setMailboxSubscribed accountId mailboxName subscribed =>
        have own := within.accounts accountId (List.mem_singleton_self _)
        refine commit_spares (·.mailboxes) fun value db h => ?_
        unfold Db.setMailboxSubscribed at h
        exact updateNamedMailbox_spares own (fun _ => by rfl) h
    | deleteMailbox accountId mailboxName =>
        have own := within.accounts accountId (List.mem_singleton_self _)
        exact Table.spares_remove fun row _ selected other => other (named_own own selected)
    | updateMailboxSyncMetadata mailboxId selection =>
        have held := within.mailboxes mailboxId (List.mem_singleton_self _)
        exact commit_spares (·.mailboxes) fun value db h => updateMailboxSyncMetadata_spares held holds h
    | insertMailboxMessage input =>
        have held := within.mailboxes input.mailboxId (List.mem_singleton_self _)
        refine commit_spares (·.mailboxes) fun value db h => ?_
        obtain ⟨modseq, -, sequenced⟩ := Db.insertMailboxMessage_sequenced h
        exact sequenced_spares held holds sequenced
    | setMailboxMessageUpstreamUid mailboxId localUid upstreamUid =>
        refine commit_spares (·.mailboxes) fun value db h => ?_
        unfold Db.setMailboxMessageUpstreamUid at h
        split at h
        · cases h
        · cases h
          exact .refl _
    | updateMailboxMessageFlags mailboxId localUid flags =>
        have held := within.mailboxes mailboxId (List.mem_singleton_self _)
        refine commit_spares (·.mailboxes) fun value db h => ?_
        obtain ⟨modseq, sequenced, -⟩ := Db.updateMailboxMessageFlags_sequenced h
        exact sequenced_spares held holds sequenced
    | copyMailboxMessage source destination localUid =>
        have held := within.mailboxes destination (List.mem_cons_of_mem _ (List.mem_singleton_self _))
        refine commit_spares (·.mailboxes) fun value db h => ?_
        rcases Db.copyMailboxMessage_sequenced h with rfl | ⟨modseq, sequenced, -⟩
        · exact .refl _
        · exact sequenced_spares held holds sequenced
    | deleteMailboxMessage mailboxId localUid =>
        have held := within.mailboxes mailboxId (List.mem_singleton_self _)
        refine commit_spares (·.mailboxes) fun value db h => ?_
        rcases Db.deleteMailboxMessage_sequenced h with rfl | ⟨modseq, sequenced, -⟩
        · exact .refl _
        · exact sequenced_spares held holds sequenced
    | refreshMailboxCounts mailboxId =>
        have held := within.mailboxes mailboxId (List.mem_singleton_self _)
        exact commit_spares (·.mailboxes) fun value db h => refreshMailboxCounts_spares held holds h
    | _ => exact absurd (by simp [Op.writes]) untouched

theorem perform_spares_mailboxMessages :
    world.db.mailboxMessages.Spares (fun row => ¬ holdings.mailbox row.data.mailboxId)
      (world.perform lib op).2.db.mailboxMessages := by
  have put {db : Db} {row : Row MailboxMessage} (put : Db.PutRow world.db db row)
      (held : holdings.mailbox row.data.mailboxId) :
      world.db.mailboxMessages.Spares (fun row => ¬ holdings.mailbox row.data.mailboxId) db.mailboxMessages := by
    intro other foreign
    rw [put.rows]
    constructor
    · rintro (rfl | kept)
      · exact absurd held foreign
      · exact kept.1
    · exact fun member => .inr ⟨member, fun same => foreign (same.1 ▸ held)⟩
  have live {mailboxId localUid : Int} {row : Row MailboxMessage} (held : holdings.mailbox mailboxId)
      (live : Db.isLiveAt mailboxId localUid row = true) : holdings.mailbox row.data.mailboxId := by
    rw [(Db.isLiveAt_iff.mp live).1]
    exact held
  by_cases untouched : Component.mailboxMessages ∉ op.writes
  · exact .of_eq (perform_frame lib world op .mailboxMessages untouched)
  · cases op with
    | insertMailboxMessage input =>
        have held := within.mailboxes input.mailboxId (List.mem_singleton_self _)
        refine commit_spares (·.mailboxMessages) fun value db h => ?_
        obtain ⟨putRow, ⟨modseq, data⟩, -⟩ := Db.insertMailboxMessage_ok h
        refine put putRow ?_
        rw [data]
        exact held
    | setMailboxMessageUpstreamUid mailboxId localUid upstreamUid =>
        have held := within.mailboxes mailboxId (List.mem_singleton_self _)
        refine commit_spares (·.mailboxMessages) fun value db h => ?_
        rcases Db.setMailboxMessageUpstreamUid_ok h with ⟨-, keeps, -⟩ | ⟨old, -, isLive, -, putRow⟩
        · exact fun row _ => keeps.rows row
        · exact put putRow (live held isLive)
    | updateMailboxMessageFlags mailboxId localUid flags =>
        have held := within.mailboxes mailboxId (List.mem_singleton_self _)
        refine commit_spares (·.mailboxMessages) fun value db h => ?_
        rcases Db.updateMailboxMessageFlags_ok h with ⟨-, keeps, -⟩ | ⟨old, -, isLive, modseq, position, -, putRow⟩
        · exact fun row _ => keeps.rows row
        · exact put putRow (live held isLive)
    | copyMailboxMessage source destination localUid =>
        have held := within.mailboxes destination (List.mem_cons_of_mem _ (List.mem_singleton_self _))
        refine commit_spares (·.mailboxMessages) fun value db h => ?_
        rcases Db.copyMailboxMessage_ok h with ⟨-, rfl, -⟩ | ⟨original, -, -, row, position, -, putRow, -, ⟨modseq, data⟩, -⟩
        · exact .refl _
        · refine put putRow ?_
          rw [data]
          exact held
    | deleteMailboxMessage mailboxId localUid =>
        have held := within.mailboxes mailboxId (List.mem_singleton_self _)
        refine commit_spares (·.mailboxMessages) fun value db h => ?_
        rcases Db.deleteMailboxMessage_ok h with ⟨-, rfl, -⟩ | ⟨target, -, -, -, drop⟩
        · exact .refl _
        · intro row foreign
          rw [drop.rows, and_iff_left_iff_imp, ← Bool.not_eq_true]
          exact fun _ isLive => foreign (live held isLive)
    | deleteMailbox accountId mailboxName =>
        have own := within.accounts accountId (List.mem_singleton_self _)
        exact Table.spares_remove fun row _ gone foreign => foreign (gone_held own holds gone)
    | _ => exact absurd (by simp [Op.writes]) untouched

theorem perform_spares_uidMappings :
    world.db.uidMappings.Spares (fun row => ¬ holdings.mailbox row.data.mailboxId)
      (world.perform lib op).2.db.uidMappings := by
  by_cases untouched : Component.uidMappings ∉ op.writes
  · exact .of_eq (perform_frame lib world op .uidMappings untouched)
  · cases op with
    | upsertUidMapping mailboxId localUid upstreamUid uidvalidity =>
        have held := within.mailboxes mailboxId (List.mem_singleton_self _)
        refine commit_spares (·.uidMappings) fun value db h => ?_
        unfold Db.upsertUidMapping at h
        split at h
        · cases h
        · split at h
          · rename_i row uidMappings success
            cases h
            have same {row : Row UidMapping} (conflicts : (row.data.mailboxId == mailboxId &&
                row.data.localUid == localUid) = true) : row.data.mailboxId = mailboxId := by
              simp only [Bool.and_eq_true, beq_iff_eq] at conflicts
              exact conflicts.1
            refine Table.spares_upsert success (fun old _ conflicts foreign => ?_) fun foreign => ?_
            · exact foreign (same conflicts ▸ held)
            · rcases Table.upsert_row success with ⟨old, found, rfl⟩ | ⟨-, rfl⟩
              · exact foreign (same (Table.mem_of_find found).2 ▸ held)
              · exact foreign held
          · cases h
    | deleteMailbox accountId mailboxName =>
        have own := within.accounts accountId (List.mem_singleton_self _)
        exact Table.spares_remove fun row _ gone foreign => foreign (gone_held own holds gone)
    | _ => exact absurd (by simp [Op.writes]) untouched

theorem perform_spares_syncStates :
    world.db.syncStates.Spares (fun row => row.data.accountId ≠ holdings.account ∧
      ∀ mailboxId ∈ row.data.mailboxId, ¬ holdings.mailbox mailboxId)
      (world.perform lib op).2.db.syncStates := by
  by_cases untouched : Component.syncStates ∉ op.writes
  · exact .of_eq (perform_frame lib world op .syncStates untouched)
  · cases op with
    | putSyncState input =>
        have own := within.accounts input.accountId (List.mem_singleton_self _)
        refine commit_spares (·.syncStates) fun value db h => ?_
        unfold Db.putSyncState at h
        split at h
        · cases h
        · split at h
          · rename_i row syncStates success
            cases h
            refine Table.spares_upsert success (fun old _ conflicts foreign => ?_) fun foreign => ?_
            · simp only [Bool.and_eq_true, beq_iff_eq] at conflicts
              exact foreign.1 (conflicts.1.2.trans own)
            · rcases Table.upsert_row success with ⟨old, -, rfl⟩ | ⟨-, rfl⟩ <;> exact foreign.1 own
          · cases h
    | deleteMailbox accountId mailboxName =>
        have own := within.accounts accountId (List.mem_singleton_self _)
        refine Table.spares_remove fun row _ gone foreign => ?_
        obtain ⟨mailboxId, is, gone⟩ := (Option.any_eq_true _ _).mp gone
        exact foreign.2 mailboxId is (gone_held own holds gone)
    | _ => exact absurd (by simp [Op.writes]) untouched

theorem perform_spares_pendingMutations :
    world.db.pendingMutations.Spares (fun row => ¬ holdings.mailbox row.data.mailboxId)
      (world.perform lib op).2.db.pendingMutations := by
  by_cases untouched : Component.pendingMutations ∉ op.writes
  · exact .of_eq (perform_frame lib world op .pendingMutations untouched)
  · cases op with
    | enqueueMutation input =>
        have held := within.mailboxes input.mailboxId (List.mem_singleton_self _)
        refine commit_spares (·.pendingMutations) fun value db h => ?_
        unfold Db.enqueueMutation at h
        split at h
        · cases h
        · rename_i row pendingMutations success
          split at h
          · cases h
          · cases h
            refine Table.spares_insert success fun foreign => ?_
            obtain ⟨rfl, -⟩ := Table.insert_eq_some success
            exact foreign held
    | deleteMailbox accountId mailboxName =>
        have own := within.accounts accountId (List.mem_singleton_self _)
        exact Table.spares_remove fun row _ gone foreign => foreign (gone_held own holds gone)
    | updatePendingMutation => cases within.addressed
    | _ => exact absurd (by simp [Op.writes]) untouched

end Mailboxes

/-! ## The other tables -/

section Others
variable (within : op.Within holdings)
include within

theorem perform_spares_accounts :
    world.db.accounts.Spares (fun row => row.id ≠ holdings.account) (world.perform lib op).2.db.accounts := by
  by_cases untouched : Component.accounts ∉ op.writes
  · exact .of_eq (perform_frame lib world op .accounts untouched)
  · cases op with
    | setMailAccountSyncStatus accountId error =>
        have own := within.accounts accountId (List.mem_singleton_self _)
        refine commit_spares (·.accounts) fun value db h => ?_
        unfold Db.setMailAccountSyncStatus at h
        split at h
        · rename_i accounts success
          cases h
          refine Table.spares_modify success fun row _ selected => ?_
          have same : row.id = holdings.account := (by simpa using selected : row.id = accountId).trans own
          exact ⟨fun other => other same, fun other => other same⟩
        · cases h
          exact .refl _
    | _ => exact absurd (by simp [Op.writes]) untouched

theorem perform_spares_messages : world.db.messages.Spares (fun row => row.data.accountId ≠ holdings.account)
    (world.perform lib op).2.db.messages := by
  by_cases untouched : Component.messages ∉ op.writes
  · exact .of_eq (perform_frame lib world op .messages untouched)
  · cases op with
    | upsertMessage input =>
        have own := within.accounts input.accountId (List.mem_singleton_self _)
        refine commit_spares (·.messages) fun value db h => ?_
        unfold Db.upsertMessage at h
        split at h
        · cases h
        · split at h
          · rename_i row messages success
            cases h
            refine Table.spares_insert success fun other => ?_
            obtain ⟨rfl, -⟩ := Table.insert_eq_some success
            exact other own
          · cases h
    | _ => exact absurd (by simp [Op.writes]) untouched

theorem perform_spares_mimeParts : world.db.mimeParts.Spares (fun row => ¬ holdings.message row.data.messageId)
    (world.perform lib op).2.db.mimeParts := by
  by_cases untouched : Component.mimeParts ∉ op.writes
  · exact .of_eq (perform_frame lib world op .mimeParts untouched)
  · cases op with
    | deleteMimePartsForMessage messageId =>
        have held := within.messages messageId (List.mem_singleton_self _)
        refine Table.spares_remove fun row _ selected foreign => foreign ?_
        rw [beq_iff_eq.mp selected]
        exact held
    | insertMimePart input =>
        have held := within.messages input.messageId (List.mem_singleton_self _)
        refine commit_spares (·.mimeParts) fun value db h => ?_
        unfold Db.insertMimePart at h
        split at h
        · cases h
        · split at h
          · rename_i row mimeParts success
            cases h
            refine Table.spares_insert success fun foreign => ?_
            obtain ⟨rfl, -⟩ := Table.insert_eq_some success
            exact foreign held
          · cases h
    | _ => exact absurd (by simp [Op.writes]) untouched

theorem perform_spares_cacheObjects :
    world.db.cacheObjects.Spares (fun row => row.data.accountId ≠ some holdings.account)
      (world.perform lib op).2.db.cacheObjects := by
  by_cases untouched : Component.cacheObjects ∉ op.writes
  · exact .of_eq (perform_frame lib world op .cacheObjects untouched)
  · cases op with
    | touchCacheObject accountId blobKey =>
        have own := within.accounts accountId (List.mem_singleton_self _)
        refine commit_spares (·.cacheObjects) fun value db h => ?_
        unfold Db.touchCacheObject at h
        dsimp only at h
        split at h
        · rename_i cacheObjects success
          cases h
          refine Table.spares_modify success fun row _ selected => ?_
          simp only [Bool.and_eq_true, beq_iff_eq] at selected
          have same : row.data.accountId = some holdings.account := own ▸ selected.1
          exact ⟨fun other => other same, fun other => other same⟩
        · cases h
    | upsertCacheObject input =>
        have own : input.accountId = some holdings.account := by
          obtain ⟨accountId, is⟩ := Option.isSome_iff_exists.mp within.addressed
          rw [is, within.accounts accountId (by simp [Op.accounts, is])]
        refine commit_spares (·.cacheObjects) fun value db h => ?_
        unfold Db.upsertCacheObject at h
        split at h
        · cases h
        · split at h
          · rename_i row cacheObjects success
            cases h
            have same {row : Row CacheObject} (conflicts : (row.data.accountId.isSome &&
                row.data.accountId == input.accountId && row.data.objectType == input.objectType &&
                row.data.blobKey == input.blobKey) = true) : row.data.accountId = some holdings.account := by
              simp only [Bool.and_eq_true, beq_iff_eq] at conflicts
              exact conflicts.1.1.2.trans own
            refine Table.spares_upsert success (fun old _ conflicts foreign => ?_) fun foreign => foreign ?_
            · exact foreign (same conflicts)
            · rcases Table.upsert_row success with ⟨old, found, rfl⟩ | ⟨-, rfl⟩
              · exact same (Table.mem_of_find found).2
              · exact own
          · cases h
    | deleteCacheObjectForAccount accountId blobKey =>
        have own := within.accounts accountId (List.mem_singleton_self _)
        refine commit_spares (·.cacheObjects) fun value db h => ?_
        unfold Db.deleteCacheObjectForAccount at h
        split at h
        · cases h
          exact .refl _
        · rename_i row found
          obtain ⟨member, selected⟩ := Table.mem_of_find found
          simp only [Bool.and_eq_true, beq_iff_eq] at selected
          have same : row.data.accountId = some holdings.account := own ▸ selected.1
          split at h
          · split at h
            · rename_i cacheObjects success
              cases h
              refine Table.spares_modify success fun other otherMember is => ?_
              obtain rfl := Table.eq_of_id otherMember member (beq_iff_eq.mp is)
              exact ⟨fun foreign => foreign same, fun foreign => foreign same⟩
            · cases h
          · cases h
            refine Table.spares_remove fun other otherMember is foreign => foreign ?_
            obtain rfl := Table.eq_of_id otherMember member (beq_iff_eq.mp is)
            exact same
    | _ => exact absurd (by simp [Op.writes]) untouched

theorem perform_spares_quotas :
    world.db.quotas.Spares (fun row => row.data.accountId ≠ some holdings.account)
      (world.perform lib op).2.db.quotas := by
  by_cases untouched : Component.quotas ∉ op.writes
  · exact .of_eq (perform_frame lib world op .quotas untouched)
  · cases op with
    | adjustAccountQuotaUsage accountId delta =>
        have own := within.accounts accountId (List.mem_singleton_self _)
        refine commit_spares (·.quotas) fun value db h => ?_
        unfold Db.adjustAccountQuotaUsage at h
        split at h
        · cases h
        · split at h
          · rename_i quotas success
            cases h
            refine Table.spares_modify success fun row _ selected => ?_
            have same : row.data.accountId = some holdings.account := own ▸ beq_iff_eq.mp selected
            exact ⟨fun foreign => foreign same, fun foreign => foreign same⟩
          · cases h
    | _ => exact absurd (by simp [Op.writes]) untouched

end Others

theorem perform_spares (lib : Libraries) (holds : holdings.Holds world.db) (within : op.Within holdings) :
    Db.Spares holdings world.db (world.perform lib op).2.db where
  accounts := perform_spares_accounts within
  mailboxes := perform_spares_mailboxes holds within
  messages := perform_spares_messages within
  mailboxMessages := perform_spares_mailboxMessages holds within
  mimeParts := perform_spares_mimeParts within
  uidMappings := perform_spares_uidMappings holds within
  syncStates := perform_spares_syncStates holds within
  pendingMutations := perform_spares_pendingMutations holds within
  cacheObjects := perform_spares_cacheObjects within
  quotas := perform_spares_quotas within
  users := perform_frame lib world op .users (by cases op <;> simp [Op.writes])

end World
end ImapCache
