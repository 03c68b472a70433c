import ImapCache.Proof.FlagOrder

/-!
# Which message a change of flags reaches

A change of flags is queued for a mailbox and a local UID. The flush sends that UID as it is, over a
connection on which nothing has been selected for it: what is selected is what the connection had
from the start, or the source of the last copy or move.
-/

namespace ImapCache.Queue
open Lib Prog System

variable {lib : Libraries} {services : Services}

/-- The mailbox a connection has selected, from its session at the start and the SELECTs since. -/
def selection (world : World) : List (Transition (cacheSystem lib services)) → Nat → Option String
  | [], connection => world.sessions connection
  | t :: older, connection =>
      match t.event with
      | .call _ _ (.selectMailbox connection' mailbox) fault =>
          if connection' = connection ∧ fault.reaches = true then
            (t.before.state.upstream.selectMailbox mailbox).2
          else selection world older connection
      | _ => selection world older connection

/-- The upstream UID on record for a local UID: that of the row or, without a row, that of the
mapping under the mailbox's UIDVALIDITY. -/
def recordedUpstreamUid (db : Db) (mailboxId localUid : Int) : Option Int :=
  match db.messageUpstreamUid mailboxId localUid with
  | .ok (some uid) => some uid
  | .ok none => db.mappedUpstreamUid mailboxId localUid (db.mailboxUidvalidity mailboxId)
  | .error _ => none

/-- The message a change of flags was queued for: in the mailbox of that id, under the upstream UID
on record. -/
def isQueuedFor (db : Db) (mutation : PendingMutation) (name : String) (uid : Nat) : Bool :=
  match flagTarget mutation with
  | some (_, mailboxId, localUid) =>
      (db.mailbox mailboxId).any (fun row => sameMailboxName row.data.name name) &&
        recordedUpstreamUid db mailboxId localUid == some (uid : Int)
  | none => false

/-- The selected mailbox is that of the mutation and the local UID is the upstream UID on record,
unless the STORE changes nothing: there is no message of that UID in the selected mailbox, or it has
these flags already. -/
def storesRightly (selected : Option String) (world : World) (mutation : PendingMutation) : Bool :=
  match selected, flagTarget mutation with
  | some name, some (_, _, localUid) =>
      match world.upstream.flagsOf name localUid with
      | some flags => flags == Json.stringItems (mutation.payloadJson.get "flags") ||
          isQueuedFor world.db mutation name localUid
      | none => true
  | _, _ => true

theorem sessions_eq_selection {world : World} {trace : List (Transition (cacheSystem lib services))}
    {c : Config (cacheSystem lib services)} (run : Run (idle _ world) trace c) (connection : Nat) :
    c.state.sessions connection = selection world trace connection := by
  induction run with
  | start => rfl
  | @step older c event c' run step ih =>
      cases step with
      | @call pid task op next fault here =>
          by_cases select : ∃ connection' mailbox, op = .selectMailbox connection' mailbox
          · obtain ⟨connection', mailbox, rfl⟩ := select
            simp only [selection]
            by_cases reaches : fault.reaches = true
            · change ((cacheHandler lib).answer fault _ c.state).2.sessions connection = _
              rw [Handler.answer_reaches _ _ reaches, cacheHandler_exec, World.perform]
              by_cases same : connection' = connection
              · subst same
                simp [reaches]
              · simp [same, Function.update_of_ne (Ne.symm same), ih]
            · have lost : ((cacheHandler lib).answer fault (.selectMailbox connection' mailbox) c.state).2 =
                  c.state := Handler.answer_lost _ rfl (by simpa using reaches)
              change ((cacheHandler lib).answer fault _ c.state).2.sessions connection = _
              rw [lost]
              simp [reaches, ih]
          · have same : ((cacheHandler lib).answer fault op c.state).2.sessions = c.state.sessions := by
              apply World.answer_frame lib fault op c.state .sessions
              cases op <;> first | exact absurd ⟨_, _, rfl⟩ select | simp [Op.writes]
            have unselected : ∀ after, selection world (⟨c, .call pid task op fault, after⟩ :: older)
                connection = selection world older connection := by
              intro after
              cases op <;> first | exact absurd ⟨_, _, rfl⟩ select | rfl
            exact (congrFun same connection).trans (ih.trans (unselected _).symm)
      | disturb change => cases change <;> exact ih
      | _ => exact ih

theorem isQueuedFor_congr {db : Db} {mutation : PendingMutation} {name other : String}
    (same : sameMailboxName name other = true) {uid : Nat} :
    isQueuedFor db mutation name uid = isQueuedFor db mutation other uid := by
  simp only [isQueuedFor, sameMailboxName_congr same]

/-- The change of flags reaches no message but the one it was queued for exactly if the selected
mailbox and the local UID name that message, or name none whose flags would change. -/
theorem flags_change_only_queued_iff {world : World}
    {trace newer older : List (Transition (cacheSystem lib services))}
    {c : Config (cacheSystem lib services)} {t : Transition (cacheSystem lib services)}
    {mutation : Row PendingMutation} {pid : Nat} {task : Task} {connection uid : Nat}
    {flags : List String} {fault : Fault Error} (run : Run (idle _ world) trace c)
    (split : trace = newer ++ t :: older) (new : applied older t = some mutation)
    (event : t.event = .call pid task (.uidStoreFlags connection uid flags) fault) :
    (∀ name k, t.after.state.upstream.flagsOf name k ≠ t.before.state.upstream.flagsOf name k →
        isQueuedFor t.before.state.db mutation.data name k = true) ↔
      storesRightly (selection world older connection) t.before.state mutation.data = true := by
  subst split
  obtain ⟨before, step⟩ := run.split
  have target := (applied_cases new).1
  obtain ⟨⟨accountId, mailboxId, localUid⟩, target⟩ := Option.isSome_iff_exists.mp target
  obtain ⟨pid', task', connection', fault', name, event', session, stored⟩ :=
    applied_store before step new target
  rw [event] at event'
  cases event'
  rw [← sessions_eq_selection before connection]
  have after : ∀ other k, t.after.state.upstream.flagsOf other k =
      if sameMailboxName name other = true ∧ k = uid then
        (t.before.state.upstream.flagsOf other k).map fun _ =>
          Json.stringItems (mutation.data.payloadJson.get "flags")
      else t.before.state.upstream.flagsOf other k := by
    intro other k
    rw [stored, Upstream.flagsOf_storeFlags]
  simp only [storesRightly, session, target]
  constructor
  · intro only
    split
    · rename_i old found
      by_cases same : old = Json.stringItems (mutation.data.payloadJson.get "flags")
      · simp [same]
      · simp only [Bool.or_eq_true]
        right
        apply only name uid
        rw [after, if_pos ⟨sameMailboxName_refl name, rfl⟩, found]
        simpa using Ne.symm same
    · rfl
  · intro rightly other k changed
    rw [after] at changed
    split at changed
    · rename_i here
      obtain ⟨named, rfl⟩ := here
      rw [← Upstream.flagsOf_congr _ named] at changed
      rw [← isQueuedFor_congr named]
      cases found : t.before.state.upstream.flagsOf name k with
      | none => simp [found] at changed
      | some old =>
          rw [found] at rightly changed
          simp only [Option.map_some, ne_eq, Option.some.injEq] at changed
          simpa [Ne.symm changed] using rightly
    · exact absurd rfl changed

/-- The facts about the last application of a change of flags that a trace shows. -/
def lastStore (target : Int × Int × Nat) (trace : List (Transition (cacheSystem lib services)))
    (property : Transition (cacheSystem lib services) → Row PendingMutation → Bool) : Bool :=
  (lastApplied target trace).any fun found => property found.2.1 found.2.2

theorem of_lastStore {target : Int × Int × Nat} {trace : List (Transition (cacheSystem lib services))}
    {property : Transition (cacheSystem lib services) → Row PendingMutation → Bool}
    (holds : lastStore target trace property = true) :
    ∃ newer t older mutation, trace = newer ++ t :: older ∧ applied older t = some mutation ∧
      flagTarget mutation.data = some target ∧ property t mutation = true := by
  unfold lastStore at holds
  cases found : lastApplied target trace with
  | none => simp [found] at holds
  | some last =>
      obtain ⟨newer, t, mutation⟩ := last
      obtain ⟨target', older, split, new⟩ := lastApplied_spec found
      exact ⟨newer, t, older, mutation, split, new, target', by simpa [found] using holds⟩

/-- The event is a request to store flags, on that connection to the upstream. -/
def storesOn (connection : Nat) : Event (cacheSystem lib services) → Bool
  | .call _ _ (.uidStoreFlags other _ _) _ => other == connection
  | _ => false

theorem flags_change_only_queued_iff_flushedFlags :
    ∃ trace c newer t older mutation, Run selectedInbox trace c ∧ trace = newer ++ t :: older ∧
      applied older t = some mutation ∧ flagTarget mutation.data = some (1, 1, 1) ∧
      ∀ name k, t.after.state.upstream.flagsOf name k ≠ t.before.state.upstream.flagsOf name k →
        isQueuedFor t.before.state.db mutation.data name k = true := by
  have evaluated : (schedule [] selectedInbox flushedFlags).map (fun run =>
      lastStore (1, 1, 1) run.1 fun t mutation =>
        storesRightly (some "INBOX") t.before.state mutation.data &&
          t.before.state.sessions 2 == some "INBOX" && storesOn 2 t.event) = some true := by
    decide +kernel
  obtain ⟨⟨trace, c⟩, followed, result⟩ := Option.map_eq_some_iff.mp evaluated
  have run := schedule_run .start followed
  obtain ⟨newer, t, older, mutation, split, new, target, holds⟩ := of_lastStore result
  simp only [Bool.and_eq_true, beq_iff_eq] at holds
  obtain ⟨⟨rightly, session⟩, connection⟩ := holds
  obtain ⟨-, pid, task, connection', uid, flags, fault, event, -⟩ := applied_cases new
  simp only [event, storesOn, beq_iff_eq] at connection
  subst connection
  refine ⟨trace, c, newer, t, older, mutation, run, split, new, target, ?_⟩
  rw [flags_change_only_queued_iff run split new event]
  subst split
  rw [← sessions_eq_selection run.split.1, session]
  exact rightly

/-- INBOX with two messages upstream, the second of which is message 1 here. -/
def shiftedInbox : Config (cacheSystem Sample.libraries ⟨true, false⟩) :=
  idle _ { Sample.world (Sample.db [Sample.mailbox "INBOX" (some 7)] [Sample.row 1 1 (some 2) []])
      { mailboxes := [Sample.withMessages (Sample.upstreamMailbox "INBOX" (some 7))
          [Sample.yoMessage, Sample.hiMessage]]
        uidplus := true, distinct := List.pairwise_singleton _ _ } with
    sessions := fun _ => some "INBOX" }

def flushedSeen : List (Label (cacheSystem Sample.libraries ⟨true, false⟩)) :=
  [Label.spawn 0 (Task.queueFlagUpdate 1 1 none 1 ["\\Seen"]), Label.step 0 .none, Label.step 0 .none,
      Label.finish 0] ++
    Label.spawn 1 (Task.flush 1) :: List.replicate 6 (Label.step 1 .none) ++ [Label.finish 1]

/-- Message 1 is marked as seen, and upstream the other message becomes seen. -/
theorem flags_of_other_message :
    ∃ trace c newer t older mutation, Run shiftedInbox trace c ∧ trace = newer ++ t :: older ∧
      applied older t = some mutation ∧ flagTarget mutation.data = some (1, 1, 1) ∧
      recordedUpstreamUid t.before.state.db 1 1 = some 2 ∧
      t.before.state.upstream.flagsOf "INBOX" 1 = some [] ∧
      t.after.state.upstream.flagsOf "INBOX" 1 = some ["\\Seen"] ∧
      t.after.state.upstream.flagsOf "INBOX" 2 = some [] := by
  have evaluated : (schedule [] shiftedInbox flushedSeen).map (fun run =>
      lastStore (1, 1, 1) run.1 fun t _ => decide (
        recordedUpstreamUid t.before.state.db 1 1 = some 2 ∧
        t.before.state.upstream.flagsOf "INBOX" 1 = some [] ∧
        t.after.state.upstream.flagsOf "INBOX" 1 = some ["\\Seen"] ∧
        t.after.state.upstream.flagsOf "INBOX" 2 = some [])) = some true := by
    decide +kernel
  obtain ⟨⟨trace, c⟩, followed, result⟩ := Option.map_eq_some_iff.mp evaluated
  obtain ⟨newer, t, older, mutation, split, new, target, holds⟩ := of_lastStore result
  rw [decide_eq_true_eq] at holds
  exact ⟨trace, c, newer, t, older, mutation, schedule_run .start followed, split, new, target, holds⟩

end ImapCache.Queue
