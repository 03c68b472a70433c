import ImapCache.Lib.System
import ImapCache.Model.Sample
import ImapCache.Model.Session
import ImapCache.Proof.MailboxRows

/-!
# The UIDNEXT that is reported

Mailboxes are created, client commands write, copy and delete messages and mailboxes and accounts are
synced, any number of these at once. What SELECT, EXAMINE and STATUS report as UIDNEXT is a column of
the mailbox row. Only CREATE and the syncs write it, while every UID comes from the rows of the
messages.
-/

namespace ImapCache.UidnextReports
open Lib Prog System

inductive MailboxTask where
  | create (session : Session.ImapSession) (tag : String) (args : List String)
  | command (tag : String) (session : Commands.Session) (request : Command)
  | syncMailbox (accountId : Int) (mailboxName : String)
  | syncAccount (accountId : Int)

structure Deployment where
  lib : Libraries
  services : Session.AppServices
  lockManager : Bool

def MailboxTask.code (deployment : Deployment) (pid : Nat) : MailboxTask → Action Unit
  | create session tag args =>
      (Session.create ⟨deployment.lib, deployment.services, pid, session, tag, "CREATE", args, none⟩).bind
        fun _ => .ret ()
  | command tag session request =>
      (request.code ⟨deployment.lib, deployment.services.mutationEngine, deployment.services.search, tag,
        session, pid⟩).bind fun _ => .ret ()
  | syncMailbox accountId mailboxName =>
      (Sync.syncMailbox deployment.lib accountId mailboxName pid).bind fun _ => .ret ()
  | syncAccount accountId =>
      (Sync.syncAccount deployment.lib deployment.lockManager accountId pid).bind fun _ => .ret ()

def mailboxSystem (deployment : Deployment) : System cacheSignature World where
  handler := cacheHandler deployment.lib
  Task := MailboxTask
  Out := Unit
  code := MailboxTask.code deployment
  Env := Environment
  disturb := Environment.disturb

variable {deployment : Deployment}

/-- The UIDNEXT in the answers to SELECT, EXAMINE and STATUS. -/
def reportedUidnext (mailbox : Mailbox) : Int := mailbox.uidnext.getD 1

/-- The reported UIDNEXT of every mailbox is above the UIDs of its messages. -/
def UidnextAbove (world : World) : Prop :=
  ∀ mailbox ∈ world.db.mailboxes.rows, ∀ row ∈ world.db.liveMessages mailbox.id,
    row.data.localUid < reportedUidnext mailbox.data

/-- The UID that a message gets which is to be written under the requested one, 0 for a new one. -/
def givenUid (db : Db) (mailboxId requested : Int) : Int :=
  if requested = 0 then ((db.liveMessages mailboxId).map (·.data.localUid)).max?.getD 0 + 1
  else requested

/-- The reported UIDNEXT of a mailbox is not above a UID. -/
def uidnextReached (db : Db) (mailboxId uid : Int) : Bool :=
  (db.mailbox mailboxId).any fun mailbox => reportedUidnext mailbox.data ≤ uid

/-- The statement writes a message whose UID is not below the reported UIDNEXT, or a UIDNEXT that is
not above the UIDs of the messages there are. -/
def outgrows (db : Db) : Op → Bool
  | .insertMailboxMessage input =>
      (db.insertMailboxMessage input).isOk && !input.isExpunged &&
        uidnextReached db input.mailboxId (givenUid db input.mailboxId input.localUid)
  | .copyMailboxMessage source destination localUid =>
      (db.copyMailboxMessage source destination localUid).isOk && (db.rowAt source localUid).isSome &&
        uidnextReached db destination (givenUid db destination 0)
  | .upsertMailbox input =>
      (db.upsertMailbox input).isOk && db.mailboxes.rows.any fun mailbox =>
        mailbox.data.accountId == input.accountId && mailbox.data.canonicalName == input.canonicalName &&
          (db.liveMessages mailbox.id).any fun row => reportedUidnext input ≤ row.data.localUid
  | .updateMailboxSyncMetadata mailboxId selection =>
      selection.uidnext.any fun uidnext =>
        (db.liveMessages mailboxId).any fun row => uidnext ≤ row.data.localUid
  | _ => false

def outgrowsUidnext (t : Transition (mailboxSystem deployment)) : Bool :=
  match t.event with
  | .call _ _ op fault => fault.reaches && outgrows t.before.state.db op
  | _ => false

/-! ## The rows that a statement writes -/

section Rows
variable {db db' : Db}

theorem givenUid_of_assign {mailboxId uid : Int} (h : db.assignMailboxLocalUid mailboxId = .ok uid) :
    uid = givenUid db mailboxId 0 := by
  unfold Db.assignMailboxLocalUid at h
  split at h
  · cases h
  · split at h
    · rename_i none
      cases h
      simp [givenUid, none]
    · rename_i largest found
      split at h
      · cases h
        simp [givenUid, found]
      · cases h

theorem givenUid_of_insert {input : MailboxMessage} {row : Row MailboxMessage} {position : Int}
    (h : db.insertMailboxMessage input = .ok ((row, position), db')) :
    row.data.localUid = givenUid db input.mailboxId input.localUid := by
  obtain ⟨-, -, requested, assigned⟩ := Db.insertMailboxMessage_ok h
  by_cases zero : input.localUid = 0
  · rw [zero]
    exact givenUid_of_assign (assigned zero)
  · rw [requested zero, givenUid, if_neg zero]

theorem givenUid_of_copy {source destination localUid position : Int} {row original : Row MailboxMessage}
    (h : db.copyMailboxMessage source destination localUid = .ok (some (row, original, position), db')) :
    row.data.mailboxId = destination ∧ row.data.localUid = givenUid db destination 0 ∧
      (db.rowAt source localUid).isSome := by
  rcases Db.copyMailboxMessage_ok h with
    ⟨none, -, -⟩ | ⟨found, inTable, live, copied, _, same, -, assigned, ⟨modseq, data⟩, -⟩
  · cases none
  · cases same
    refine ⟨by rw [data], givenUid_of_assign assigned, ?_⟩
    exact Option.isSome_of_eq_some (Db.rowAt_eq_some.mpr ⟨inTable, live⟩)

/-- Where a row after an operation comes from. -/
inductive RowOrigin (db : Db) (op : Op) (row : Row MailboxMessage) : Prop where
  | kept {old : Row MailboxMessage} (member : old ∈ db.mailboxMessages.rows)
      (mailbox : old.data.mailboxId = row.data.mailboxId) (uid : old.data.localUid = row.data.localUid)
      (expunged : old.data.isExpunged = row.data.isExpunged) : RowOrigin db op row
  | inserted {input : MailboxMessage} {position : Int} {db' : Db} (insert : op = .insertMailboxMessage input)
      (written : db.insertMailboxMessage input = .ok ((row, position), db')) : RowOrigin db op row
  | copied {source destination localUid position : Int} {original : Row MailboxMessage} {db' : Db}
      (copy : op = .copyMailboxMessage source destination localUid)
      (written : db.copyMailboxMessage source destination localUid =
        .ok (some (row, original, position), db')) : RowOrigin db op row

theorem RowOrigin.same {op : Op} {row : Row MailboxMessage} (member : row ∈ db.mailboxMessages.rows) :
    RowOrigin db op row := .kept member rfl rfl rfl

theorem RowOrigin.put {op : Op} {row old : Row MailboxMessage} (put : Db.PutRow db db' row)
    (fromOld : old ∈ db.mailboxMessages.rows) (mailbox : old.data.mailboxId = row.data.mailboxId)
    (uid : old.data.localUid = row.data.localUid) (expunged : old.data.isExpunged = row.data.isExpunged)
    {other : Row MailboxMessage} (member : other ∈ db'.mailboxMessages.rows) : RowOrigin db op other := by
  rcases (put.rows other).mp member with rfl | ⟨kept, -⟩
  · exact .kept fromOld mailbox uid expunged
  · exact .same kept

theorem insert_origin {input : MailboxMessage} {row : Row MailboxMessage} {position : Int}
    (h : db.insertMailboxMessage input = .ok ((row, position), db')) {other : Row MailboxMessage}
    (member : other ∈ db'.mailboxMessages.rows) : RowOrigin db (.insertMailboxMessage input) other := by
  obtain ⟨put, -, -, -⟩ := Db.insertMailboxMessage_ok h
  rcases (put.rows other).mp member with rfl | ⟨kept, -⟩
  · exact .inserted rfl h
  · exact .same kept

theorem copy_origin {source destination localUid : Int}
    {result : Option (Row MailboxMessage × Row MailboxMessage × Int)}
    (h : db.copyMailboxMessage source destination localUid = .ok (result, db'))
    {other : Row MailboxMessage} (member : other ∈ db'.mailboxMessages.rows) :
    RowOrigin db (.copyMailboxMessage source destination localUid) other := by
  rcases Db.copyMailboxMessage_ok h with ⟨-, rfl, -⟩ | ⟨original, -, -, row, position, rfl, put, -⟩
  · exact .same member
  · rcases (put.rows other).mp member with rfl | ⟨kept, -⟩
    · exact .copied rfl h
    · exact .same kept

end Rows

theorem origin_of_commit {α : Type} {op : Op} (world : World) (result : Except Error (α × Db))
    (writes : ∀ value db, result = .ok (value, db) → ∀ row ∈ db.mailboxMessages.rows,
      RowOrigin world.db op row) :
    ∀ row ∈ (world.commit result).2.db.mailboxMessages.rows, RowOrigin world.db op row := by
  unfold World.commit
  split
  · exact writes _ _ rfl
  · exact fun row member => .same member

theorem perform_origin (lib : Libraries) (world : World) (op : Op) :
    ∀ row ∈ (world.perform lib op).2.db.mailboxMessages.rows, RowOrigin world.db op row := by
  by_cases untouched : Component.mailboxMessages ∉ op.writes
  · intro row member
    have same : (world.perform lib op).2.db.mailboxMessages = world.db.mailboxMessages :=
      World.perform_frame lib world op .mailboxMessages untouched
    exact .same (same ▸ member)
  cases op with
  | insertMailboxMessage input =>
      exact origin_of_commit world _ fun value db h row member => insert_origin h member
  | copyMailboxMessage source destination localUid =>
      exact origin_of_commit world _ fun value db h row member => copy_origin h member
  | updateMailboxMessageFlags mailboxId localUid flags =>
      refine origin_of_commit world _ fun value db h row member => ?_
      rcases Db.updateMailboxMessageFlags_ok h with
        ⟨-, keep, -⟩ | ⟨old, inTable, -, modseq, position, -, put⟩
      · exact .same ((keep.rows row).mp member)
      · exact .put put inTable rfl rfl rfl member
  | setMailboxMessageUpstreamUid mailboxId localUid upstreamUid =>
      refine origin_of_commit world _ fun value db h row member => ?_
      rcases Db.setMailboxMessageUpstreamUid_ok h with ⟨-, keep, -⟩ | ⟨old, inTable, -, -, put⟩
      · exact .same ((keep.rows row).mp member)
      · exact .put put inTable rfl rfl rfl member
  | deleteMailboxMessage mailboxId localUid =>
      refine origin_of_commit world _ fun value db h row member => ?_
      rcases Db.deleteMailboxMessage_ok h with ⟨-, rfl, -⟩ | ⟨_, _, _, _, drop⟩
      · exact .same member
      · exact .same ((drop.rows row).mp member).1
  | deleteMailbox accountId mailboxName =>
      exact fun row member => .same (Table.mem_remove.mp member).1
  | _ => exact absurd (by simp [Op.writes]) untouched

/-! ## What an operation does to the reported value -/

/-- What a mailbox has become after an operation, as far as its UIDNEXT is concerned. -/
inductive UidnextOrigin (op : Op) (before : Option (Row Mailbox)) (mailbox : Row Mailbox) : Prop where
  | kept {old : Row Mailbox} (found : before = some old)
      (same : reportedUidnext old.data = reportedUidnext mailbox.data) : UidnextOrigin op before mailbox
  | created (absent : before = none)
      (insert : op = .upsertMailbox mailbox.data ∨ op = .createMailbox mailbox.data) :
      UidnextOrigin op before mailbox
  | overwritten {old : Row Mailbox} (found : before = some old) (upsert : op = .upsertMailbox mailbox.data)
      (account : old.data.accountId = mailbox.data.accountId)
      (name : old.data.canonicalName = mailbox.data.canonicalName) : UidnextOrigin op before mailbox
  | selected {old : Row Mailbox} {selection : SelectedMailboxInfo} {uidnext : Int}
      (found : before = some old) (update : op = .updateMailboxSyncMetadata old.id selection)
      (reported : selection.uidnext = some uidnext) (written : reportedUidnext mailbox.data = uidnext) :
      UidnextOrigin op before mailbox

theorem uidnext_origin {op : Op} {before : Option (Row Mailbox)} {mailbox : Row Mailbox}
    (effect : MailboxEffect op before (some mailbox)) : UidnextOrigin op before mailbox := by
  cases effect with
  | same => exact .kept rfl rfl
  | created insert => exact .created rfl insert
  | overwritten upsert account name => exact .overwritten rfl upsert account name
  | subscribed | renamed | counted | sequenced => exact .kept rfl rfl
  | @selected row selection update =>
      cases reported : selection.uidnext with
      | none => exact .kept rfl (by simp [reportedUidnext, Mailbox.withSelection, reported])
      | some uidnext =>
          exact .selected rfl update reported (by simp [reportedUidnext, Mailbox.withSelection, reported])

def Owned (db : Db) : Prop :=
  ∀ row ∈ db.mailboxMessages.rows, ∃ mailbox, db.mailbox row.data.mailboxId = some mailbox

theorem owned_of_perform (lib : Libraries) {world : World} (op : Op) (owned : Owned world.db) :
    Owned (world.perform lib op).2.db := by
  intro row member
  have effect := World.perform_mailbox lib world op row.data.mailboxId
  cases after : (world.perform lib op).2.db.mailbox row.data.mailboxId with
  | some mailbox => exact ⟨mailbox, rfl⟩
  | none =>
      exfalso
      rw [after] at effect
      rcases perform_origin lib world op row member with
        ⟨inTable, sameMailbox, -, -⟩ | @⟨input, _, _, rfl, written⟩ | ⟨rfl, written⟩
      · obtain ⟨mailbox, found⟩ := owned _ inTable
        rw [sameMailbox] at found
        rw [found] at effect
        cases effect with
        | @removed _ accountId mailboxName delete named =>
            subst delete
            obtain ⟨inMailboxes, sameId⟩ := Db.mailbox_some.mp found
            have spared := (Table.mem_remove.mp member).2
            rw [List.any_eq_false] at spared
            exact spared mailbox (List.mem_filter.mpr ⟨inMailboxes, named⟩) (by simp [sameId])
      · obtain ⟨-, ⟨modseq, data⟩, -, -⟩ := Db.insertMailboxMessage_ok written
        obtain ⟨_, -, sequenced⟩ := Db.insertMailboxMessage_sequenced written
        obtain ⟨found, eq, -⟩ := sequenced.value
        have mailbox : row.data.mailboxId = input.mailboxId := by rw [data]
        rw [mailbox] at after
        simp [World.perform, World.commit, written, eq] at after
      · obtain ⟨mailbox, -, -⟩ := givenUid_of_copy written
        simp only [World.perform, World.commit, written] at after member
        rcases Db.copyMailboxMessage_sequenced written with rfl | ⟨modseq, sequenced, -⟩
        · obtain ⟨mailbox, found⟩ := owned _ member
          rw [after] at found
          cases found
        · obtain ⟨found, eq, -⟩ := sequenced.value
          rw [mailbox, eq] at after
          cases after

/-! ## Statements that outgrow the reported value -/

theorem mailbox_of_sequences (lib : Libraries) {world : World} {op : Op} {id : Int} {mailbox : Row Mailbox}
    (sequences : op.sequences.isSome) (found : world.db.mailbox id = some mailbox) :
    ∃ after, (world.perform lib op).2.db.mailbox id = some after ∧
      reportedUidnext after.data = reportedUidnext mailbox.data := by
  have effect := World.perform_mailbox lib world op id
  rw [found] at effect
  generalize (world.perform lib op).2.db.mailbox id = after at effect
  cases effect with
  | same => exact ⟨mailbox, rfl, rfl⟩
  | sequenced => exact ⟨_, rfl, rfl⟩
  | overwritten eq | removed eq | subscribed eq | renamed eq | selected eq | counted eq =>
      subst eq
      cases sequences

theorem uidnextReached_false {db : Db} {mailboxId uid : Int} {mailbox : Row Mailbox}
    (spared : uidnextReached db mailboxId uid = false) (found : db.mailbox mailboxId = some mailbox) :
    uid < reportedUidnext mailbox.data := by
  simpa [uidnextReached, found] using spared

theorem above_of_perform (lib : Libraries) {world : World} {op : Op} (owned : Owned world.db)
    (above : UidnextAbove world) (spared : outgrows world.db op = false) :
    UidnextAbove (world.perform lib op).2 := by
  intro mailbox member row live
  obtain ⟨inTable, ofMailbox, notExpunged⟩ := Db.mem_liveMessages.mp live
  have found := Db.mailbox_some.mpr ⟨member, rfl⟩
  have effect := World.perform_mailbox lib world op mailbox.id
  rw [found] at effect
  have origin := uidnext_origin effect
  rcases perform_origin lib world op row inTable with
    @⟨old, oldMember, sameMailbox, sameUid, sameExpunged⟩ | @⟨input, _, _, rfl, written⟩ | ⟨rfl, written⟩
  · have oldLive : old ∈ world.db.liveMessages mailbox.id :=
      Db.mem_liveMessages.mpr ⟨oldMember, sameMailbox.trans ofMailbox, sameExpunged.trans notExpunged⟩
    rw [← sameUid]
    cases origin with
    | kept before same =>
        obtain ⟨inMailboxes, sameId⟩ := Db.mailbox_some.mp before
        rw [← same]
        exact above _ inMailboxes old (sameId ▸ oldLive)
    | created absent =>
        obtain ⟨owner, there⟩ := owned old oldMember
        rw [sameMailbox, ofMailbox, absent] at there
        cases there
    | overwritten before upsert account name =>
        subst upsert
        obtain ⟨inMailboxes, sameId⟩ := Db.mailbox_some.mp before
        cases result : world.db.upsertMailbox mailbox.data with
        | error failure =>
            simp only [World.perform, World.commit, result] at member
            exact above _ member old oldLive
        | ok written =>
            simp only [outgrows, result, Except.isOk, Except.toBool, Bool.true_and, List.any_eq_false,
              Bool.and_eq_true, beq_iff_eq, not_and, Bool.not_eq_true, decide_eq_false_iff_not, not_le]
              at spared
            exact spared _ inMailboxes ⟨account, name⟩ old (sameId ▸ oldLive)
    | @selected before selection uidnext there update reported written =>
        subst update
        obtain ⟨-, sameId⟩ := Db.mailbox_some.mp there
        rw [written]
        simp only [outgrows, reported, Option.any_some, List.any_eq_false, decide_eq_true_eq, not_le]
          at spared
        exact spared old (sameId ▸ oldLive)
  · obtain ⟨-, ⟨modseq, data⟩, -, -⟩ := Db.insertMailboxMessage_ok written
    have sameMailbox : row.data.mailboxId = input.mailboxId := by rw [data]
    have plain : input.isExpunged = false := by rw [← notExpunged, data]
    cases origin with
    | kept before same =>
        rw [← same, givenUid_of_insert written]
        refine uidnextReached_false ?_ (sameMailbox.symm.trans ofMailbox ▸ before)
        simpa [outgrows, written, Except.isOk, Except.toBool, plain] using spared
    | created absent insert => rcases insert with eq | eq <;> cases eq
    | overwritten before eq | selected before eq => cases eq
  · obtain ⟨sameMailbox, uid, sourceFound⟩ := givenUid_of_copy written
    cases origin with
    | kept before same =>
        rw [← same, uid]
        refine uidnextReached_false ?_ (sameMailbox.symm.trans ofMailbox ▸ before)
        simpa [outgrows, written, Except.isOk, Except.toBool, sourceFound] using spared
    | created absent insert => rcases insert with eq | eq <;> cases eq
    | overwritten before eq | selected before eq => cases eq

theorem uidnextReached_true {db : Db} {mailboxId uid : Int} (reached : uidnextReached db mailboxId uid = true) :
    ∃ mailbox, db.mailbox mailboxId = some mailbox ∧ reportedUidnext mailbox.data ≤ uid := by
  simpa [uidnextReached, Option.any_eq_true] using reached

theorem not_above {world : World} {id : Int} {mailbox : Row Mailbox} {row : Row MailboxMessage}
    (found : world.db.mailbox id = some mailbox) (live : row ∈ world.db.liveMessages id)
    (reached : reportedUidnext mailbox.data ≤ row.data.localUid) : ¬ UidnextAbove world := by
  intro above
  obtain ⟨member, rfl⟩ := Db.mailbox_some.mp found
  exact absurd (above mailbox member row live) (not_lt.mpr reached)

theorem not_above_of_write (lib : Libraries) {world : World} {op : Op} {id uid : Int}
    {row : Row MailboxMessage} (sequences : op.sequences.isSome) (reached : uidnextReached world.db id uid = true)
    (live : row ∈ (world.perform lib op).2.db.liveMessages id) (given : row.data.localUid = uid) :
    ¬ UidnextAbove (world.perform lib op).2 := by
  obtain ⟨mailbox, found, le⟩ := uidnextReached_true reached
  obtain ⟨after, there, same⟩ := mailbox_of_sequences lib sequences found
  exact not_above there live (by rw [same, given]; exact le)

theorem not_above_of_perform (lib : Libraries) {world : World} {op : Op} (owned : Owned world.db)
    (outgrown : outgrows world.db op = true) : ¬ UidnextAbove (world.perform lib op).2 := by
  cases op with
  | insertMailboxMessage input =>
      simp only [outgrows, Bool.and_eq_true, Bool.not_eq_true'] at outgrown
      obtain ⟨⟨accepted, plain⟩, reached⟩ := outgrown
      cases result : world.db.insertMailboxMessage input with
      | error failure => simp [result, Except.isOk, Except.toBool] at accepted
      | ok written =>
          obtain ⟨⟨row, position⟩, db'⟩ := written
          obtain ⟨put, ⟨modseq, data⟩, -, -⟩ := Db.insertMailboxMessage_ok result
          refine not_above_of_write lib rfl reached ?_ (givenUid_of_insert result)
          refine Db.mem_liveMessages.mpr ⟨?_, by rw [data], by rw [data]; exact plain⟩
          simpa [World.perform, World.commit, result] using (put.rows row).mpr (Or.inl rfl)
  | copyMailboxMessage source destination localUid =>
      simp only [outgrows, Bool.and_eq_true] at outgrown
      obtain ⟨⟨accepted, sourceFound⟩, reached⟩ := outgrown
      obtain ⟨original, found⟩ := Option.isSome_iff_exists.mp sourceFound
      obtain ⟨inTable, live⟩ := Db.rowAt_eq_some.mp found
      cases result : world.db.copyMailboxMessage source destination localUid with
      | error failure => simp [result, Except.isOk, Except.toBool] at accepted
      | ok written =>
          rcases Db.copyMailboxMessage_ok result with
            ⟨-, -, absent⟩ | ⟨_, -, -, row, position, -, put, assigned, ⟨modseq, data⟩, -⟩
          · rw [absent original inTable] at live
            cases live
          · refine not_above_of_write lib rfl reached ?_ (givenUid_of_assign assigned)
            refine Db.mem_liveMessages.mpr ⟨?_, by rw [data], by rw [data]⟩
            simpa [World.perform, World.commit, result] using (put.rows row).mpr (Or.inl rfl)
  | upsertMailbox input =>
      simp only [outgrows, Bool.and_eq_true, List.any_eq_true, beq_iff_eq, decide_eq_true_eq] at outgrown
      obtain ⟨accepted, mailbox, member, ⟨account, name⟩, row, live, reached⟩ := outgrown
      cases result : world.db.upsertMailbox input with
      | error failure => simp [result, Except.isOk, Except.toBool] at accepted
      | ok written =>
          obtain ⟨after, db'⟩ := written
          obtain ⟨data, ⟨mailboxes, rfl⟩, rows, sameId⟩ := Db.upsertMailbox_ok result
          have there : { world.db with mailboxes }.mailbox mailbox.id = some after :=
            Db.mailbox_some.mpr ⟨(rows after).mpr (Or.inl rfl), (sameId mailbox member account name).symm⟩
          have performed : (world.perform lib (.upsertMailbox input)).2 =
              { world with db := { world.db with mailboxes } } := by
            simp [World.perform, World.commit, result]
          rw [performed]
          exact not_above there live (by rw [data]; exact reached)
  | updateMailboxSyncMetadata mailboxId selection =>
      simp only [outgrows, Option.any_eq_true, List.any_eq_true, decide_eq_true_eq] at outgrown
      obtain ⟨uidnext, reported, row, live, reached⟩ := outgrown
      obtain ⟨inTable, ofMailbox, -⟩ := Db.mem_liveMessages.mp live
      obtain ⟨mailbox, found⟩ := owned row inTable
      rw [ofMailbox] at found
      obtain ⟨mailboxes, success⟩ := world.db.mailboxes.modify_of_keeps (·.id == mailboxId)
        (f := Mailbox.withSelection selection) fun _ _ => rfl
      have after := Db.mailbox_modify success mailboxId
      have performed : (world.perform lib (.updateMailboxSyncMetadata mailboxId selection)).2 =
          { world with db := { world.db with mailboxes } } := by
        have result : world.db.updateMailboxSyncMetadata mailboxId selection =
            .ok ((), { world.db with mailboxes }) := by
          unfold Mailbox.withSelection at success
          unfold Db.updateMailboxSyncMetadata
          rw [success]
        simp [World.perform, World.commit, result]
      rw [performed]
      refine not_above (after.trans (by rw [found]; rfl)) live ?_
      simpa [Table.modified, (Db.mailbox_some.mp found).2, reportedUidnext, Mailbox.withSelection, reported]
        using reached
  | _ => cases outgrown

/-! ## Runs -/

/-- What a step does to the reported values. -/
structure StepAbove (t : Transition (mailboxSystem deployment)) : Prop where
  owned : Owned t.after.state.db
  above : UidnextAbove t.before.state → outgrowsUidnext t = false → UidnextAbove t.after.state
  below : outgrowsUidnext t = true → ¬ UidnextAbove t.after.state

theorem stepAbove_of_same {t : Transition (mailboxSystem deployment)} (owned : Owned t.before.state.db)
    (same : t.after.state.db = t.before.state.db) (spared : outgrowsUidnext t = false) : StepAbove t where
  owned := same ▸ owned
  above above _ := by
    unfold UidnextAbove at above ⊢
    rwa [same]
  below outgrown := by
    rw [spared] at outgrown
    cases outgrown

theorem stepAbove_of_call {c c' : Config (mailboxSystem deployment)} {pid : Nat} {task : MailboxTask}
    {op : Op} {fault : Fault Error} (owned : Owned c.state.db)
    (after : c'.state = ((cacheHandler deployment.lib).answer fault op c.state).2) :
    StepAbove ⟨c, .call pid task op fault, c'⟩ := by
  cases reaches : fault.reaches with
  | true =>
      have performed : c'.state = (c.state.perform deployment.lib op).2 :=
        after.trans (Handler.answer_reaches _ _ reaches)
      have outgrown : outgrowsUidnext ⟨c, .call pid task op fault, c'⟩ = outgrows c.state.db op := by
        simp [outgrowsUidnext, reaches]
      constructor
      · exact performed ▸ owned_of_perform deployment.lib op owned
      · intro above spared
        exact performed ▸ above_of_perform deployment.lib owned above (outgrown ▸ spared)
      · intro broken
        exact performed ▸ not_above_of_perform deployment.lib owned (outgrown ▸ broken)
  | false =>
      have spared : outgrowsUidnext ⟨c, .call pid task op fault, c'⟩ = false := by
        simp [outgrowsUidnext, reaches]
      refine stepAbove_of_same owned ?_ spared
      cases fallible : op.fallible with
      | true =>
          exact congrArg World.db (after.trans (Handler.answer_lost _ fallible reaches))
      | false =>
          cases op <;> cases fallible
          rw [show c'.state = c.state from after.trans (by cases fault <;> rfl)]

theorem stepAbove {c c' : Config (mailboxSystem deployment)} {event : Event (mailboxSystem deployment)}
    (step : Step c event c') (owned : Owned c.state.db) : StepAbove ⟨c, event, c'⟩ := by
  cases step with
  | call fault here => exact stepAbove_of_call owned rfl
  | spawn free | returned here | failed here | crash here => exact stepAbove_of_same owned rfl rfl
  | disturb change => cases change <;> exact stepAbove_of_same owned rfl rfl

theorem run_owned {world : World} {trace : List (Transition (mailboxSystem deployment))}
    {c : Config (mailboxSystem deployment)} (run : Run (idle (mailboxSystem deployment) world) trace c)
    (owned : Owned world.db) : Owned c.state.db := by
  induction run with
  | start => exact owned
  | step run step ih => exact (stepAbove step ih).owned

/-- What SELECT, EXAMINE and STATUS report as the UIDNEXT of a mailbox; from a state without mailboxes,
it is above the UIDs of the messages in every state of a run if and only if no step of the run writes
a message whose UID is not below it or a value that is not above the UIDs. -/
theorem uidnext_above_iff {world : World} {trace : List (Transition (mailboxSystem deployment))}
    {c : Config (mailboxSystem deployment)} (run : Run (idle (mailboxSystem deployment) world) trace c)
    (noMailboxes : world.db.mailboxes.rows = []) (noMessages : world.db.mailboxMessages.rows = []) :
    (∀ mailbox : Mailbox,
      "* OK [UIDNEXT " ++ toString (reportedUidnext mailbox) ++ "] Predicted next UID" ∈
          Session.selectLines mailbox ∧
        Protocol.statusItem mailbox "UIDNEXT" =
          some ("UIDNEXT " ++ toString (reportedUidnext mailbox))) ∧
      ((∀ t ∈ trace, UidnextAbove t.after.state) ↔ ∀ t ∈ trace, outgrowsUidnext t = false) := by
  have owned : Owned world.db := by
    intro row member
    rw [noMessages] at member
    cases member
  refine ⟨fun mailbox => ⟨by simp [Session.selectLines, reportedUidnext], rfl⟩, ?_⟩
  constructor
  · intro above t member
    obtain ⟨newer, older, rfl⟩ := List.append_of_mem member
    obtain ⟨earlier, step⟩ := run.split
    by_contra outgrown
    exact (stepAbove step (run_owned earlier owned)).below (by simpa using outgrown) (above t member)
  · intro spared
    suffices all : (∀ t ∈ trace, UidnextAbove t.after.state) ∧ UidnextAbove c.state from all.1
    clear * - run owned noMailboxes spared
    induction run with
    | start =>
        refine ⟨fun t member => absurd member List.not_mem_nil, fun mailbox member => ?_⟩
        have member : mailbox ∈ world.db.mailboxes.rows := member
        rw [noMailboxes] at member
        cases member
    | step run step ih =>
        obtain ⟨earlier, above⟩ := ih fun t member => spared t (List.mem_cons_of_mem _ member)
        have after := (stepAbove step (run_owned run owned)).above above (spared _ (List.mem_cons_self ..))
        refine ⟨fun t member => ?_, after⟩
        rcases List.mem_cons.mp member with rfl | old
        · exact after
        · exact earlier t old

/-! ## Two runs on an account without mailboxes -/

def sampleDeployment : Deployment := ⟨Sample.libraries, ⟨.static "a" "b", ⟨5, 60000000000⟩, true, true, false⟩, false⟩

/-- A server with an empty INBOX whose next UID is 5. -/
def server : Upstream where
  mailboxes := [{ Sample.upstreamMailbox "INBOX" (some 7) with
    info := { Sample.selection (some 7) with uidnext := some 5 }
    uidnext := 5, bounded := nofun, positive := by decide }]
  uidplus := true
  distinct := List.pairwise_singleton _ _

def emptyAccount : Config (mailboxSystem sampleDeployment) :=
  idle _ (Sample.world (Sample.db [] []) server)

def client : Session.ImapSession := ⟨.authenticated, some ⟨1, some 1, "a"⟩, 1, none, true, none, true, false⟩

def appendToInbox : List (Label (mailboxSystem sampleDeployment)) :=
  whole 0 (MailboxTask.command "b" client.view (.append ["INBOX", "Subject: hi\r\n\r\nbody"] none)) 18

/-- The UIDNEXT of the first mailbox and the UIDs of its messages. -/
def observed (world : World) : Option Int × List Int :=
  ((world.db.mailbox 1).map fun mailbox => reportedUidnext mailbox.data,
    (world.db.liveMessages 1).map (·.data.localUid))

theorem uidnext_above_synced : ∃ trace c, Run emptyAccount trace c ∧
    observed c.state = (some 5, [1]) ∧ ∀ t ∈ trace, UidnextAbove t.after.state := by
  have evaluated : (schedule [] emptyAccount (whole 0 (MailboxTask.syncMailbox 1 "INBOX") 13 ++ appendToInbox)).map
      (fun run => (observed run.2.state, run.1.all fun t => !outgrowsUidnext t)) =
        some ((some 5, [1]), true) := by
    decide +kernel
  obtain ⟨⟨trace, c⟩, followed, result⟩ := Option.map_eq_some_iff.mp evaluated
  simp only [Prod.mk.injEq, List.all_eq_true, Bool.not_eq_true'] at result
  have run := schedule_run .start followed
  exact ⟨trace, c, run, result.1, (uidnext_above_iff run rfl rfl).2.mpr result.2⟩

/-- A client creates a mailbox and appends to it. The message has UID 1, and so has UIDNEXT. -/
theorem uidnext_not_above : ∃ trace c, Run emptyAccount trace c ∧ c.procs 0 = none ∧
    observed c.state = (some 1, [1]) ∧ ¬ UidnextAbove c.state := by
  have evaluated : (schedule [] emptyAccount (whole 0 (MailboxTask.create client "a" ["INBOX"]) 2 ++ appendToInbox)).map
      (fun run => ((run.2.procs 0).isNone, observed run.2.state, run.2.state.db.mailboxes.rows.any
        fun mailbox => (run.2.state.db.liveMessages mailbox.id).any
          fun row => reportedUidnext mailbox.data ≤ row.data.localUid)) =
        some (true, (some 1, [1]), true) := by
    decide +kernel
  obtain ⟨⟨trace, c⟩, followed, result⟩ := Option.map_eq_some_iff.mp evaluated
  simp only [Prod.mk.injEq, List.any_eq_true, decide_eq_true_eq, Option.isNone_iff_eq_none] at result
  obtain ⟨finished, values, mailbox, member, row, live, reached⟩ := result
  refine ⟨trace, c, schedule_run .start followed, finished, values, ?_⟩
  exact not_above (Db.mailbox_some.mpr ⟨member, rfl⟩) live reached

end ImapCache.UidnextReports
