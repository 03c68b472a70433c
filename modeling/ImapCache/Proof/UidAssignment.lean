import ImapCache.Lib.System
import ImapCache.Model.Sample
import ImapCache.Proof.Footprints

/-!
# The UIDs a mailbox gives out

Any number of processes append to mailboxes, copy between them and delete from them. The next UID
is one more than the largest UID among the rows that are left, so the UIDs given out increase as
long as the newest message is never deleted.
-/

namespace ImapCache.UidAssignment
open Lib Prog System

inductive RepositoryTask where
  | append (input : MailboxMessage)
  | copy (sourceMailboxId destinationMailboxId sourceLocalUid : Int)
  | delete (mailboxId localUid : Int)

def RepositoryTask.code : RepositoryTask → Action Unit
  | append input =>
      (Repository.upsertMailboxMessage { input with localUid := 0 }).bind fun _ => .ret ()
  | copy source destination localUid =>
      (Repository.copyMailboxMessage source destination localUid).bind fun _ => .ret ()
  | delete mailboxId localUid =>
      (Repository.deleteMailboxMessage mailboxId localUid).bind fun _ => .ret ()

/-- Local appends, copies and deletes, with nothing else going on. -/
def repositorySystem (lib : Libraries) : System cacheSignature World where
  handler := cacheHandler lib
  Task := RepositoryTask
  Out := Unit
  code _ task := task.code
  Env := Empty
  disturb change := nomatch change

variable {lib : Libraries}

def assignedUid (mailboxId : Int) (t : Transition (repositorySystem lib)) : Option Int :=
  match t.event with
  | .call _ _ (.insertMailboxMessage input) fault =>
      if fault.reaches && input.localUid == 0 && input.mailboxId == mailboxId then
        (t.before.state.db.insertMailboxMessage input).toOption.map (·.1.1.data.localUid)
      else none
  | .call _ _ (.copyMailboxMessage source destination localUid) fault =>
      if fault.reaches && destination == mailboxId then
        ((t.before.state.db.copyMailboxMessage source destination localUid).toOption.bind (·.1)).map
          (·.1.data.localUid)
      else none
  | _ => none

/-- The step deletes the message with the highest UID of the mailbox. -/
def deletesHighest (mailboxId : Int) (t : Transition (repositorySystem lib)) : Bool :=
  match t.event with
  | .call _ _ (.deleteMailboxMessage deletedMailbox localUid) fault =>
      let uids := (t.before.state.db.liveMessages mailboxId).map (·.data.localUid)
      deletedMailbox == mailboxId && fault.reaches && uids.contains localUid &&
        uids.all (· ≤ localUid)
  | _ => false

/-- The step appends a row that is marked as expunged from the start, as no caller does. -/
def appendsExpunged (t : Transition (repositorySystem lib)) : Bool :=
  match t.event with
  | .call _ _ (.insertMailboxMessage input) _ => input.isExpunged
  | _ => false

/-! ## The operations of the tasks -/

def AssignmentOp : Op → Prop
  | .insertMailboxMessage input => input.localUid = 0
  | .copyMailboxMessage .. => True
  | .deleteMailboxMessage .. => True
  | op => .mailboxMessages ∉ op.writes

theorem assignmentOp_of_bookkeeping (op : Op) (bookkeeping : op.bookkeeping = true) : AssignmentOp op := by
  cases op <;> first | simp [AssignmentOp, Op.writes]; done | simp [Op.bookkeeping] at bookkeeping

theorem code_uses (task : RepositoryTask) : task.code.Uses AssignmentOp := by
  cases task with
  | append input =>
      have insert : AssignmentOp (.insertMailboxMessage { input with localUid := 0 }) := rfl
      have leads := Repository.upsertMailboxMessage_leads assignmentOp_of_bookkeeping
        { input with localUid := 0 } fun _ _ _ _ => by simp [AssignmentOp, Op.writes]
      exact (leads.uses insert).bind fun _ => trivial
  | copy source destination localUid =>
      exact ((Repository.copyMailboxMessage_leads assignmentOp_of_bookkeeping _ _ _).uses trivial).bind
        fun _ => trivial
  | delete mailboxId localUid =>
      exact ((Repository.deleteMailboxMessage_leads assignmentOp_of_bookkeeping _ _).uses trivial).bind
        fun _ => trivial

/-! ## What the operations do to the live rows -/

variable {db db' : Db} {mailboxId : Int}

theorem live_of_put {row : Row MailboxMessage} (put : Db.PutRow db db' row)
    (above : ∀ old ∈ db.liveMessages row.data.mailboxId, old.data.localUid < row.data.localUid) :
    ∀ old ∈ db.liveMessages mailboxId, old ∈ db'.liveMessages mailboxId := by
  intro old member
  obtain ⟨inTable, mailbox, live⟩ := Db.mem_liveMessages.mp member
  refine Db.mem_liveMessages.mpr ⟨(put.rows old).mpr (Or.inr ⟨inTable, ?_⟩), mailbox, live⟩
  rintro ⟨sameMailbox, sameUid⟩
  have := above old (Db.mem_liveMessages.mpr ⟨inTable, sameMailbox, live⟩)
  omega

theorem mem_live_of_put {row : Row MailboxMessage} (put : Db.PutRow db db' row)
    (live : row.data.isExpunged = false) : row ∈ db'.liveMessages row.data.mailboxId :=
  Db.mem_liveMessages.mpr ⟨(put.rows row).mpr (Or.inl rfl), rfl, live⟩

def KeepsLive (mailboxId : Int) (c c' : Config (repositorySystem lib)) : Prop :=
  ∀ row ∈ c.state.db.liveMessages mailboxId, row ∈ c'.state.db.liveMessages mailboxId

def Assigns (mailboxId : Int) (t : Transition (repositorySystem lib)) : Prop :=
  ∃ uid, assignedUid mailboxId t = some uid ∧
    (∀ row ∈ t.before.state.db.liveMessages mailboxId, row.data.localUid < uid) ∧
    ∃ row ∈ t.after.state.db.liveMessages mailboxId, row.data.localUid = uid

theorem insert_cases {c c' : Config (repositorySystem lib)} {pid : Nat} {task : RepositoryTask}
    {input : MailboxMessage} {fault : Fault Error} (zero : input.localUid = 0)
    (plain : input.isExpunged = false)
    (after : c'.state = ((cacheHandler lib).answer fault (.insertMailboxMessage input) c.state).2) :
    Assigns mailboxId ⟨c, .call pid task (.insertMailboxMessage input) fault, c'⟩ ∨
      (assignedUid mailboxId ⟨c, .call pid task (.insertMailboxMessage input) fault, c'⟩ = none ∧
        KeepsLive mailboxId c c') := by
  cases reaches : fault.reaches with
  | false =>
      rw [Handler.answer_lost _ rfl reaches] at after
      exact Or.inr ⟨by simp [assignedUid, reaches], fun row member => by rwa [after]⟩
  | true =>
      rw [Handler.answer_reaches _ _ reaches] at after
      cases result : c.state.db.insertMailboxMessage input with
      | error failure =>
          have same : c'.state = c.state := after.trans (congrArg Prod.snd (World.commit_of_error result))
          exact Or.inr ⟨by simp [assignedUid, result, Except.toOption], fun row member => by rwa [same]⟩
      | ok written =>
          obtain ⟨⟨row, position⟩, db'⟩ := written
          have db : c'.state.db = db' :=
            congrArg World.db (after.trans (congrArg Prod.snd (World.commit_of_ok result)))
          obtain ⟨put, ⟨modseq, data⟩, -, assigned⟩ := Db.insertMailboxMessage_ok result
          have mailbox : row.data.mailboxId = input.mailboxId := by rw [data]
          have above := Db.assignMailboxLocalUid_ok (assigned zero)
          by_cases here : input.mailboxId = mailboxId
          · refine Or.inl ⟨row.data.localUid, ?_, here ▸ above, row, ?_, rfl⟩
            · simp [assignedUid, reaches, zero, here, result, Except.toOption]
            · change row ∈ c'.state.db.liveMessages mailboxId
              rw [db, ← here, ← mailbox]
              exact mem_live_of_put put (by rw [data]; exact plain)
          · refine Or.inr ⟨by simp [assignedUid, here], fun old member => ?_⟩
            rw [db]
            exact live_of_put put (by rwa [mailbox]) old member

theorem copy_cases {c c' : Config (repositorySystem lib)} {pid : Nat} {task : RepositoryTask}
    {source destination localUid : Int} {fault : Fault Error}
    (after : c'.state =
      ((cacheHandler lib).answer fault (.copyMailboxMessage source destination localUid) c.state).2) :
    Assigns mailboxId
        ⟨c, .call pid task (.copyMailboxMessage source destination localUid) fault, c'⟩ ∨
      (assignedUid mailboxId
          ⟨c, .call pid task (.copyMailboxMessage source destination localUid) fault, c'⟩ = none ∧
        KeepsLive mailboxId c c') := by
  cases reaches : fault.reaches with
  | false =>
      rw [Handler.answer_lost _ rfl reaches] at after
      exact Or.inr ⟨by simp [assignedUid, reaches], fun row member => by rwa [after]⟩
  | true =>
      rw [Handler.answer_reaches _ _ reaches] at after
      cases result : c.state.db.copyMailboxMessage source destination localUid with
      | error failure =>
          have same : c'.state = c.state := after.trans (congrArg Prod.snd (World.commit_of_error result))
          exact Or.inr ⟨by simp [assignedUid, result, Except.toOption], fun row member => by rwa [same]⟩
      | ok written =>
          obtain ⟨copied, db'⟩ := written
          have db : c'.state.db = db' :=
            congrArg World.db (after.trans (congrArg Prod.snd (World.commit_of_ok result)))
          rcases Db.copyMailboxMessage_ok result with
            ⟨rfl, rfl, -⟩ | ⟨original, -, -, row, position, rfl, put, assigned, ⟨modseq, data⟩, -⟩
          · exact Or.inr ⟨by simp [assignedUid, result, Except.toOption], fun old member => by rwa [db]⟩
          · have mailbox : row.data.mailboxId = destination := by rw [data]
            have above := Db.assignMailboxLocalUid_ok assigned
            by_cases here : destination = mailboxId
            · subst here
              refine Or.inl ⟨row.data.localUid, ?_, above, row, ?_, rfl⟩
              · simp [assignedUid, reaches, result, Except.toOption]
              · change row ∈ c'.state.db.liveMessages destination
                rw [db, ← mailbox]
                exact mem_live_of_put put (by rw [data])
            · refine Or.inr ⟨by simp [assignedUid, here], fun old member => ?_⟩
              rw [db]
              exact live_of_put put (by rwa [mailbox]) old member

theorem delete_keeps {c c' : Config (repositorySystem lib)} {fault : Fault Error}
    {deletedMailbox localUid : Int}
    (after : c'.state =
      ((cacheHandler lib).answer fault (.deleteMailboxMessage deletedMailbox localUid) c.state).2) :
    ∀ row ∈ c.state.db.liveMessages mailboxId,
      ¬ (mailboxId = deletedMailbox ∧ row.data.localUid = localUid) →
        row ∈ c'.state.db.liveMessages mailboxId := by
  intro row member other
  rcases (cacheHandler lib).answer_state fault (.deleteMailboxMessage deletedMailbox localUid) c.state
    with same | executed
  · rwa [after, same]
  · cases result : c.state.db.deleteMailboxMessage deletedMailbox localUid with
    | error failure =>
        rw [executed] at after
        have same : c'.state = c.state := after.trans (congrArg Prod.snd (World.commit_of_error result))
        rwa [same]
    | ok written =>
        obtain ⟨deleted, db'⟩ := written
        rw [executed] at after
        have db : c'.state.db = db' :=
          congrArg World.db (after.trans (congrArg Prod.snd (World.commit_of_ok result)))
        rw [db]
        rcases Db.deleteMailboxMessage_ok result with ⟨-, rfl, -⟩ | ⟨_, _, _, _, drop⟩
        · exact member
        · obtain ⟨inTable, mailbox, live⟩ := Db.mem_liveMessages.mp member
          refine Db.mem_liveMessages.mpr ⟨(drop.rows row).mpr ⟨inTable, ?_⟩, mailbox, live⟩
          rw [← Bool.not_eq_true, Db.isLiveAt_iff]
          exact fun here => other ⟨mailbox.symm.trans here.1, here.2.1⟩

/-- What a step does to a mailbox: it gives out a UID, it removes the row of a UID, or it keeps
every live row. -/
theorem step_cases {world : World} {trace : List (Transition (repositorySystem lib))}
    {c c' : Config (repositorySystem lib)} {event : Event (repositorySystem lib)}
    (run : Run (idle (repositorySystem lib) world) trace c) (step : Step c event c')
    (plain : appendsExpunged ⟨c, event, c'⟩ = false) (mailboxId : Int) :
    Assigns mailboxId ⟨c, event, c'⟩ ∨
    (assignedUid mailboxId ⟨c, event, c'⟩ = none ∧ ∃ pid task localUid fault,
      event = .call pid task (.deleteMailboxMessage mailboxId localUid) fault ∧
      fault.reaches = true ∧ ∀ row ∈ c.state.db.liveMessages mailboxId, row.data.localUid ≠ localUid →
        row ∈ c'.state.db.liveMessages mailboxId) ∨
    (assignedUid mailboxId ⟨c, event, c'⟩ = none ∧ KeepsLive mailboxId c c') := by
  cases step with
  | @call pid task op next fault here =>
      have permitted : AssignmentOp op := run.uses (fun _ task => code_uses task) (.call fault here)
      cases op with
      | insertMailboxMessage input =>
          exact (insert_cases permitted plain rfl).imp_right Or.inr
      | copyMailboxMessage source destination localUid =>
          exact (copy_cases rfl).imp_right Or.inr
      | deleteMailboxMessage deletedMailbox localUid =>
          by_cases same : mailboxId = deletedMailbox
          · subst same
            cases reaches : fault.reaches with
            | true =>
                refine Or.inr (Or.inl ⟨rfl, pid, task, localUid, fault, rfl, reaches, ?_⟩)
                exact fun row member other => delete_keeps rfl row member fun key => other key.2
            | false =>
                refine Or.inr (Or.inr ⟨rfl, fun row member => ?_⟩)
                have state : ((cacheHandler lib).answer fault
                    (.deleteMailboxMessage mailboxId localUid) c.state).2 = c.state :=
                  Handler.answer_lost c.state rfl reaches
                exact congrArg World.db state ▸ member
          · refine Or.inr (Or.inr ⟨rfl, fun row member => ?_⟩)
            exact delete_keeps rfl row member fun key => same key.1
      | _ =>
          refine Or.inr (Or.inr ⟨rfl, fun row member => ?_⟩)
          exact (Db.liveMessages_congr
            (World.answer_frame lib fault _ c.state .mailboxMessages permitted)).symm ▸ member
  | spawn free => exact Or.inr (Or.inr ⟨rfl, fun row member => member⟩)
  | returned here => exact Or.inr (Or.inr ⟨rfl, fun row member => member⟩)
  | failed here => exact Or.inr (Or.inr ⟨rfl, fun row member => member⟩)
  | crash here => exact Or.inr (Or.inr ⟨rfl, fun row member => member⟩)
  | disturb change => exact nomatch change

/-- The UIDs given out in a mailbox, the most recent first. -/
def assignedUids (mailboxId : Int) (trace : List (Transition (repositorySystem lib))) : List Int :=
  trace.filterMap (assignedUid mailboxId)

/-- The UIDs given out so far decrease from the most recent one on, and some live row has a UID as
large as any of them. -/
def Increasing (mailboxId : Int) (trace : List (Transition (repositorySystem lib)))
    (c : Config (repositorySystem lib)) : Prop :=
  (assignedUids mailboxId trace).Pairwise (· > ·) ∧
    ∀ uid ∈ assignedUids mailboxId trace,
      ∃ row ∈ c.state.db.liveMessages mailboxId, uid ≤ row.data.localUid

/-- In every run that never deletes the message with the highest UID of the mailbox, each UID
given out exceeds all that were given out before. -/
theorem assignedUids_increase {world : World} {trace : List (Transition (repositorySystem lib))}
    {c : Config (repositorySystem lib)} (mailboxId : Int)
    (run : Run (idle (repositorySystem lib) world) trace c)
    (spared : Always (fun _ t => deletesHighest mailboxId t = false ∧ appendsExpunged t = false)
      trace) :
    (assignedUids mailboxId trace).Pairwise (· > ·) := by
  suffices increasing : Increasing mailboxId trace c from increasing.1
  refine run.invariant ⟨List.Pairwise.nil, by simp [assignedUids]⟩ ?_ spared
  rintro older c event c' run step ⟨notHighest, plain⟩ ⟨pairwise, witnessed⟩
  rcases step_cases run step plain mailboxId with
    ⟨uid, assigned, above, row, member, atUid⟩ | ⟨none, pid, task, localUid, fault, rfl, reaches, keeps⟩ |
      ⟨none, keeps⟩
  · have trace : assignedUids mailboxId (⟨c, event, c'⟩ :: older) =
        uid :: assignedUids mailboxId older := List.filterMap_cons_some assigned
    rw [Increasing, trace]
    have larger : ∀ earlier ∈ assignedUids mailboxId older, earlier < uid := by
      intro earlier earlierMember
      obtain ⟨witness, live, bound⟩ := witnessed earlier earlierMember
      have := above witness live
      omega
    refine ⟨List.Pairwise.cons larger pairwise, fun earlier earlierMember => ⟨row, member, ?_⟩⟩
    rcases List.mem_cons.mp earlierMember with rfl | old
    · omega
    · have := larger earlier old
      omega
  · rw [Increasing, assignedUids, List.filterMap_cons_none none]
    refine ⟨pairwise, fun earlier earlierMember => ?_⟩
    obtain ⟨witness, live, bound⟩ := witnessed earlier earlierMember
    by_cases deleted : witness.data.localUid = localUid
    · -- the deleted row was not the highest, so a higher one takes its place as the witness
      obtain ⟨higher, higherLive, exceeds⟩ :
          ∃ row ∈ c.state.db.liveMessages mailboxId, localUid < row.data.localUid := by
        by_contra highest
        push Not at highest
        simp only [deletesHighest, beq_self_eq_true, reaches, Bool.true_and, Bool.and_eq_false_iff,
          List.contains_eq_mem, decide_eq_false_iff_not, List.mem_map, not_exists, not_and,
          List.all_eq_false, decide_eq_true_eq] at notHighest
        rcases notHighest with absent | ⟨uid, ⟨row, member, rfl⟩, exceeds⟩
        · exact absent witness live deleted
        · exact exceeds (highest row member)
      exact ⟨higher, keeps higher higherLive (by omega), by omega⟩
    · exact ⟨witness, keeps witness live deleted, bound⟩
  · rw [Increasing, assignedUids, List.filterMap_cons_none none]
    refine ⟨pairwise, fun earlier earlierMember => ?_⟩
    obtain ⟨witness, live, bound⟩ := witnessed earlier earlierMember
    exact ⟨witness, keeps witness live, bound⟩

/-! ## Two runs on an empty INBOX -/

def emptyInbox : Config (repositorySystem Sample.libraries) :=
  idle _ (Sample.world (Sample.db [Sample.mailbox "INBOX" (some 7)] []) (Sample.emptyServer (some 7)))

/-- Append twice, delete the first of the two, append. -/
def deleteOlder : List (Label (repositorySystem Sample.libraries)) :=
  whole 0 (RepositoryTask.append (Sample.row 1 0 none [])) 3 ++
    whole 0 (RepositoryTask.append (Sample.row 1 0 none [])) 3 ++
    whole 0 (RepositoryTask.delete 1 1) 5 ++ whole 0 (RepositoryTask.append (Sample.row 1 0 none [])) 3

def deleteNewest : List (Label (repositorySystem Sample.libraries)) :=
  whole 0 (RepositoryTask.append (Sample.row 1 0 none [])) 3 ++ whole 0 (RepositoryTask.delete 1 1) 5 ++
    whole 0 (RepositoryTask.append (Sample.row 1 0 none [])) 3

theorem assignedUids_increase_deleteOlder :
    ∃ trace c, Run emptyInbox trace c ∧ assignedUids 1 trace = [3, 2, 1] ∧
      (assignedUids 1 trace).Pairwise (· > ·) := by
  have evaluated : (schedule [] emptyInbox deleteOlder).map (fun run =>
      (assignedUids 1 run.1, decide (Always (fun _ t => deletesHighest 1 t = false ∧
        appendsExpunged t = false) run.1))) = some ([3, 2, 1], true) := by
    decide +kernel
  obtain ⟨⟨trace, c⟩, followed, result⟩ := Option.map_eq_some_iff.mp evaluated
  simp only [Prod.mk.injEq, decide_eq_true_eq] at result
  have run := schedule_run .start followed
  exact ⟨trace, c, run, result.1, assignedUids_increase 1 run result.2⟩

/-- The second message is given the UID of the first, under the same UIDVALIDITY. -/
theorem assignedUids_repeat :
    ∃ trace c, Run emptyInbox trace c ∧
      assignedUids 1 trace = [1, 1] ∧ ¬ (assignedUids 1 trace).Pairwise (· > ·) ∧
      c.state.db.mailboxUidvalidity 1 = emptyInbox.state.db.mailboxUidvalidity 1 := by
  have evaluated : (schedule [] emptyInbox
      deleteNewest).map (fun run => (assignedUids 1 run.1, run.2.state.db.mailboxUidvalidity 1)) =
        some ([1, 1], emptyInbox.state.db.mailboxUidvalidity 1) := by
    decide +kernel
  obtain ⟨⟨trace, c⟩, followed, result⟩ := Option.map_eq_some_iff.mp evaluated
  simp only [Prod.mk.injEq] at result
  refine ⟨trace, c, schedule_run .start followed, result.1, ?_, result.2⟩
  rw [result.1]
  decide

end ImapCache.UidAssignment
