import ImapCache.Lib.System
import ImapCache.Model.Sample
import ImapCache.Proof.Footprints
import ImapCache.Proof.MailboxRows

/-!
# The modification sequence of a mailbox

Messages are written, copied, changed and deleted and mailboxes are synced, any number of these at
once. The repository advances the sequence of a mailbox with every write. A sync writes it twice: it
resets it with the row of the mailbox and later takes over what upstream reports.
-/

namespace ImapCache.ModificationSequences
open Lib Prog System

inductive SequenceTask where
  | upsertMailboxMessage (input : MailboxMessage)
  | updateMailboxMessageFlags (mailboxId localUid : Int) (flags : List String)
  | copyMailboxMessage (sourceMailboxId destinationMailboxId sourceLocalUid : Int)
  | deleteMailboxMessage (mailboxId localUid : Int)
  | syncMailbox (accountId : Int) (mailboxName : String)

def SequenceTask.code (lib : Libraries) (pid : Nat) : SequenceTask → Action Unit
  | upsertMailboxMessage input =>
      (Repository.upsertMailboxMessage input).bind fun _ => .ret ()
  | updateMailboxMessageFlags mailboxId localUid flags =>
      (Repository.updateMailboxMessageFlags mailboxId localUid flags).bind fun _ => .ret ()
  | copyMailboxMessage source destination localUid =>
      (Repository.copyMailboxMessage source destination localUid).bind fun _ => .ret ()
  | deleteMailboxMessage mailboxId localUid =>
      (Repository.deleteMailboxMessage mailboxId localUid).bind fun _ => .ret ()
  | syncMailbox accountId mailboxName =>
      (Sync.syncMailbox lib accountId mailboxName pid).bind fun _ => .ret ()

def sequenceSystem (lib : Libraries) : System cacheSignature World where
  handler := cacheHandler lib
  Task := SequenceTask
  Out := Unit
  code := SequenceTask.code lib
  Env := Environment
  disturb := Environment.disturb

variable {lib : Libraries}

/-- The stored modification sequence of a mailbox, 0 while there is none. -/
def highestmodseq (mailboxId : Int) (world : World) : Int :=
  ((world.db.mailbox mailboxId).bind (·.data.highestmodseq)).getD 0

/-- No row of the mailbox has been changed later than its sequence says. -/
def Bounded (mailboxId : Int) (world : World) : Prop :=
  ∀ row ∈ world.db.mailboxMessages.rows, row.data.mailboxId = mailboxId →
    ∀ modseq, row.data.modseq = some modseq → modseq ≤ highestmodseq mailboxId world

/-- The step is a write of a sync that lowers the sequence of the mailbox: it resets a sequence above
0, or it takes over a lower one from upstream. -/
def lowersSequence (mailboxId : Int) (t : Transition (sequenceSystem lib)) : Bool :=
  match t.event with
  | .call _ _ (.upsertMailbox input) fault =>
      fault.reaches && (t.before.state.db.mailbox mailboxId).any fun row =>
        row.data.accountId == input.accountId && row.data.canonicalName == input.canonicalName &&
          0 < row.data.highestmodseq.getD 0
  | .call _ _ (.updateMailboxSyncMetadata mailboxId' selection) fault =>
      fault.reaches && mailboxId' == mailboxId && selection.highestmodseq.any fun reported =>
        reported < highestmodseq mailboxId t.before.state
  | _ => false

/-! ## The operations of the tasks -/

def SequenceOp : Op → Prop
  | .upsertMailbox input => input.highestmodseq = none
  | .copyMailboxMessage .. => True
  | op => op.syncStep = true

theorem sequenceOp_of_syncStep (op : Op) (step : op.syncStep = true) : SequenceOp op := by
  cases op <;> first | exact step | trivial

theorem sequenceOp_of_bookkeeping (op : Op) (bookkeeping : op.bookkeeping = true) : SequenceOp op :=
  sequenceOp_of_syncStep op (Op.syncStep_of_bookkeeping op bookkeeping)

theorem code_uses (pid : Nat) (task : SequenceTask) : (task.code lib pid).Uses SequenceOp := by
  cases task with
  | upsertMailboxMessage input =>
      have leads := Repository.upsertMailboxMessage_leads sequenceOp_of_bookkeeping input
        fun _ _ _ _ => rfl
      exact (leads.uses (by rfl)).bind fun _ => trivial
  | updateMailboxMessageFlags mailboxId localUid flags =>
      exact ((Repository.updateMailboxMessageFlags_leads sequenceOp_of_bookkeeping _ _ _).uses
        (by rfl)).bind fun _ => trivial
  | copyMailboxMessage source destination localUid =>
      exact ((Repository.copyMailboxMessage_leads sequenceOp_of_bookkeeping _ _ _).uses trivial).bind
        fun _ => trivial
  | deleteMailboxMessage mailboxId localUid =>
      exact ((Repository.deleteMailboxMessage_leads sequenceOp_of_bookkeeping _ _).uses
        (by rfl)).bind fun _ => trivial
  | syncMailbox accountId mailboxName =>
      refine Uses.bind (Uses.bind ?_ fun mailbox => ?_) fun _ => trivial
      · refine (Uses.ask (by rfl)).bind fun row => ?_
        exact (Uses.tell (by rfl)).bind fun _ => trivial
      · exact (Sync.syncMailboxInner_uses ..).mono sequenceOp_of_syncStep

/-! ## Steps -/

variable {mailboxId : Int}

/-- Each row after a step is an old one or is stamped with the sequence of its mailbox. -/
def Stamps (before after : World) : Prop :=
  ∀ row ∈ after.db.mailboxMessages.rows, row ∈ before.db.mailboxMessages.rows ∨
    ∀ modseq, row.data.modseq = some modseq → modseq = highestmodseq row.data.mailboxId after

theorem stamps_of_commit {α : Type} (world : World) (result : Except Error (α × Db))
    (writes : ∀ value db, result = .ok (value, db) → ∀ row ∈ db.mailboxMessages.rows,
      row ∈ world.db.mailboxMessages.rows ∨
        ∃ modseq, Db.Sequenced world.db db row.data.mailboxId modseq ∧ row.data.modseq = some modseq) :
    Stamps world (world.commit result).2 := by
  unfold World.commit
  split
  · intro row member
    refine (writes _ _ rfl row member).imp_right ?_
    rintro ⟨modseq, sequenced, stamped⟩ modseq' stamped'
    obtain ⟨mailbox, found, eq⟩ := sequenced.value
    rw [stamped] at stamped'
    cases stamped'
    simpa [highestmodseq, found] using eq.symm
  · exact fun row member => Or.inl member

theorem stamps_of_call (world : World) (fault : Fault Error) (op : Op) (permitted : SequenceOp op) :
    Stamps world ((cacheHandler lib).answer fault op world).2 := by
  by_cases untouched : Component.mailboxMessages ∉ op.writes
  · intro row member
    have same : ((cacheHandler lib).answer fault op world).2.db.mailboxMessages =
      world.db.mailboxMessages := World.answer_frame lib fault op world .mailboxMessages untouched
    exact Or.inl (same ▸ member)
  rcases (cacheHandler lib).answer_state fault op world with eq | eq
  · rw [eq]
    exact fun row member => Or.inl member
  · rw [eq]
    cases op with
    | insertMailboxMessage input =>
        refine stamps_of_commit world _ fun value db h row member => ?_
        obtain ⟨modseq, stamped, sequenced⟩ := Db.insertMailboxMessage_sequenced h
        obtain ⟨put, ⟨modseq', data⟩, -, -⟩ := Db.insertMailboxMessage_ok h
        rcases (put.rows row).mp member with rfl | ⟨old, -⟩
        · have mailbox : value.1.data.mailboxId = input.mailboxId := by rw [data]
          exact Or.inr ⟨modseq, mailbox ▸ sequenced, stamped⟩
        · exact Or.inl old
    | updateMailboxMessageFlags mailboxId localUid flags =>
        refine stamps_of_commit world _ fun value db h row member => ?_
        obtain ⟨modseq, sequenced, rows⟩ := Db.updateMailboxMessageFlags_sequenced h
        rcases rows row member with old | ⟨rfl, stamped⟩
        · exact Or.inl old
        · exact Or.inr ⟨modseq, sequenced, stamped⟩
    | copyMailboxMessage source destination localUid =>
        refine stamps_of_commit world _ fun value db h row member => ?_
        rcases Db.copyMailboxMessage_sequenced h with rfl | ⟨modseq, sequenced, rows⟩
        · exact Or.inl member
        · rcases rows row member with old | ⟨rfl, stamped⟩
          · exact Or.inl old
          · exact Or.inr ⟨modseq, sequenced, stamped⟩
    | deleteMailboxMessage mailboxId localUid =>
        refine stamps_of_commit world _ fun value db h row member => ?_
        rcases Db.deleteMailboxMessage_sequenced h with rfl | ⟨modseq, -, rows⟩
        · exact Or.inl member
        · exact Or.inl (rows row member)
    | deleteMailbox accountId mailboxName => cases permitted
    | setMailboxMessageUpstreamUid mailboxId localUid upstreamUid => cases permitted
    | _ => exact absurd (by simp [Op.writes]) untouched

theorem highestmodseq_of_call {c c' : Config (sequenceSystem lib)} {pid : Nat} {task : SequenceTask}
    {op : Op} {fault : Fault Error} (permitted : SequenceOp op)
    (after : c'.state = ((cacheHandler lib).answer fault op c.state).2)
    (spared : lowersSequence mailboxId ⟨c, .call pid task op fault, c'⟩ = false) :
    highestmodseq mailboxId c.state ≤ highestmodseq mailboxId c'.state := by
  obtain ⟨effect, lost⟩ := World.answer_mailbox lib fault op c.state mailboxId
  rw [← after] at effect lost
  cases reaches : fault.reaches with
  | false => rw [highestmodseq, highestmodseq, lost reaches]
  | true =>
      unfold highestmodseq
      generalize before : c.state.db.mailbox mailboxId = row at effect
      generalize c'.state.db.mailbox mailboxId = row' at effect
      cases effect with
      | same => exact le_rfl
      | created insert =>
          rcases insert with rfl | rfl
          · have reset : Mailbox.highestmodseq _ = none := permitted
            simp [reset]
          · cases permitted
      | @overwritten row input upsert account name =>
          subst upsert
          have reset : input.highestmodseq = none := permitted
          simpa [lowersSequence, reaches, before, account, name, reset] using spared
      | removed delete named =>
          subst delete
          cases permitted
      | subscribed | renamed | counted => exact le_rfl
      | @selected row selection update =>
          subst update
          obtain ⟨-, same⟩ := Db.mailbox_some.mp before
          cases reported : selection.highestmodseq with
          | none => simp [Mailbox.withSelection, reported]
          | some value =>
              simpa [lowersSequence, reaches, same, reported, highestmodseq, before,
                Mailbox.withSelection] using spared
      | sequenced advance higher => simpa using higher.le

/-! ## Runs -/

theorem bounded_of_stamps {before after : World} (bounded : Bounded mailboxId before)
    (stamps : Stamps before after)
    (increases : highestmodseq mailboxId before ≤ highestmodseq mailboxId after) :
    Bounded mailboxId after := by
  intro row member mailbox modseq stamped
  rcases stamps row member with old | new
  · exact (bounded row old mailbox modseq stamped).trans increases
  · exact (mailbox ▸ new modseq stamped).le

theorem step_increases {world : World} {trace : List (Transition (sequenceSystem lib))}
    {c c' : Config (sequenceSystem lib)} {event : Event (sequenceSystem lib)}
    (run : Run (idle (sequenceSystem lib) world) trace c) (step : Step c event c')
    (spared : lowersSequence mailboxId ⟨c, event, c'⟩ = false) :
    highestmodseq mailboxId c.state ≤ highestmodseq mailboxId c'.state ∧
      Stamps c.state c'.state := by
  cases step with
  | @call pid task op next fault here =>
      have permitted : SequenceOp op := run.uses (fun pid task => code_uses pid task) (.call fault here)
      exact ⟨highestmodseq_of_call permitted rfl spared, stamps_of_call c.state fault op permitted⟩
  | spawn free | returned here | failed here | crash here =>
      exact ⟨le_rfl, fun row member => Or.inl member⟩
  | disturb change => cases change <;> exact ⟨le_rfl, fun row member => Or.inl member⟩

def Increasing (mailboxId : Int) (trace : List (Transition (sequenceSystem lib)))
    (c : Config (sequenceSystem lib)) : Prop :=
  (∀ t ∈ trace, highestmodseq mailboxId t.before.state ≤ highestmodseq mailboxId t.after.state) ∧
    Bounded mailboxId c.state

/-- In every run in which no sync lowers the modification sequence of a mailbox, the sequence never
decreases and stays at or above that of every row of the mailbox. -/
theorem highestmodseq_increases {world : World} {trace : List (Transition (sequenceSystem lib))}
    {c : Config (sequenceSystem lib)} (mailboxId : Int)
    (run : Run (idle (sequenceSystem lib) world) trace c) (bounded : Bounded mailboxId world)
    (spared : Always (fun _ t => lowersSequence mailboxId t = false) trace) :
    Increasing mailboxId trace c := by
  refine run.invariant ⟨fun _ member => absurd member List.not_mem_nil, bounded⟩ ?_ spared
  rintro older c event c' run step spared ⟨increasing, bounded⟩
  obtain ⟨increases, stamps⟩ := step_increases run step spared
  refine ⟨fun t member => ?_, bounded_of_stamps bounded stamps increases⟩
  rcases List.mem_cons.mp member with rfl | earlier
  · exact increases
  · exact increasing t earlier

/-! ## Two runs on an empty INBOX -/

def inboxWorld : World :=
  Sample.world (Sample.db [Sample.mailbox "INBOX" (some 7)] []) (Sample.emptyServer (some 7))

def emptyInbox : Config (sequenceSystem Sample.libraries) := idle _ inboxWorld

theorem emptyInbox_bounded : Bounded 1 inboxWorld := by
  have rows : inboxWorld.db.mailboxMessages.rows = [] := rfl
  intro row member
  rw [rows] at member
  exact absurd member List.not_mem_nil

/-- Sync the mailbox, append to it, change the flags. -/
def syncFirst : List (Label (sequenceSystem Sample.libraries)) :=
  whole 0 (SequenceTask.syncMailbox 1 "INBOX") 13 ++
    whole 0 (SequenceTask.upsertMailboxMessage (Sample.row 1 0 none [])) 3 ++
    whole 0 (SequenceTask.updateMailboxMessageFlags 1 1 ["\\Seen"]) 3

def syncLast : List (Label (sequenceSystem Sample.libraries)) :=
  whole 0 (SequenceTask.upsertMailboxMessage (Sample.row 1 0 none [])) 3 ++
    whole 0 (SequenceTask.syncMailbox 1 "INBOX") 13

theorem highestmodseq_increases_syncFirst : ∃ trace c, Run emptyInbox trace c ∧
    highestmodseq 1 c.state = 2 ∧ Increasing 1 trace c := by
  have evaluated : (schedule [] emptyInbox syncFirst).map (fun run => (highestmodseq 1 run.2.state,
      decide (Always (fun _ t => lowersSequence 1 t = false) run.1))) = some (2, true) := by
    decide +kernel
  obtain ⟨⟨trace, c⟩, followed, result⟩ := Option.map_eq_some_iff.mp evaluated
  simp only [Prod.mk.injEq, decide_eq_true_eq] at result
  have run := schedule_run .start followed
  exact ⟨trace, c, run, result.1, highestmodseq_increases 1 run emptyInbox_bounded result.2⟩

/-- The sync resets the sequence to 0, below that of the message that was appended. -/
theorem highestmodseq_decreases : ∃ trace c, Run emptyInbox trace c ∧ Bounded 1 inboxWorld ∧
    (¬ ∀ t ∈ trace, highestmodseq 1 t.before.state ≤ highestmodseq 1 t.after.state) ∧
      ¬ Bounded 1 c.state := by
  have evaluated : (schedule [] emptyInbox syncLast).map (fun run =>
      (run.1.any (fun t => highestmodseq 1 t.after.state < highestmodseq 1 t.before.state),
        run.2.state.db.mailboxMessages.rows.any fun row => row.data.mailboxId == 1 &&
          row.data.modseq.any (highestmodseq 1 run.2.state < ·))) = some (true, true) := by
    decide +kernel
  obtain ⟨⟨trace, c⟩, followed, result⟩ := Option.map_eq_some_iff.mp evaluated
  simp only [Prod.mk.injEq, List.any_eq_true, decide_eq_true_eq, Bool.and_eq_true, beq_iff_eq,
    Option.any_eq_true] at result
  obtain ⟨⟨t, member, lower⟩, row, inTable, mailbox, modseq, stamped, above⟩ := result
  refine ⟨trace, c, schedule_run .start followed, emptyInbox_bounded, fun increasing => ?_, fun bounded => ?_⟩
  · exact absurd (increasing t member) (not_le.mpr lower)
  · exact absurd (bounded row inTable mailbox modseq stamped) (not_le.mpr above)

end ImapCache.ModificationSequences
