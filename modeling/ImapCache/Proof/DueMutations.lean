import ImapCache.Model.Sample
import ImapCache.Proof.QueueProtocol

/-!
# No mutation is forgotten

A mutation that has not succeeded is pending, failed or in flight. The due query finds the first
two; one that is in flight is found again only if the flush that works on it records a result. It
does not when it stops before that, when the mark takes effect but is answered with an error, or
when the record is lost.
-/

namespace ImapCache.Queue
open Lib Prog System

variable {lib : Libraries} {services : Services}

def Fault.isLate {ε : Type} : Fault ε → Bool
  | .late _ => true
  | _ => false

/-- The step does not cut off an attempt: no flush crashes between mark and record, no mark takes
effect without its answer, no record is lost. -/
def uninterrupted (older : List (Transition (cacheSystem lib services)))
    (t : Transition (cacheSystem lib services)) : Bool :=
  match t.event with
  | .crash pid _ => (workingOn older pid).isNone
  | .call _ _ (.updatePendingMutation _ .inFlight _ _) fault => !Fault.isLate fault
  | .call _ _ (.updatePendingMutation _ _ _ _) fault => fault.reaches
  | _ => true

/-- The status of a mutation that no flush works on. -/
def atRest : MutationStatus → Bool
  | .pending | .failed | .succeeded => true
  | _ => false

/-- Every mutation is at rest, or in flight and worked on. -/
def Tracked (trace : List (Transition (cacheSystem lib services)))
    (c : Config (cacheSystem lib services)) : Prop :=
  ∀ row ∈ c.state.db.pendingMutations.rows, atRest row.data.status = true ∨
    row.data.status = .inFlight ∧ row.id ∈ processed trace

section Step
variable {world : World} {older : List (Transition (cacheSystem lib services))}
  {c c' : Config (cacheSystem lib services)} {event : Event (cacheSystem lib services)}

theorem processed_step (run : Run (idle _ world) older c) (step : Step c event c')
    (steady : uninterrupted older ⟨c, event, c'⟩ = true) {id : Int} (member : id ∈ processed older)
    (noRecord : ∀ pid task status attempts nextAttemptAt fault, status ≠ .inFlight → event ≠
      .call pid task (.updatePendingMutation id status attempts nextAttemptAt) fault) :
    id ∈ processed (⟨c, event, c'⟩ :: older) := by
  obtain ⟨pid, mutation, working, rfl⟩ := mem_processed.mp member
  rcases workingOn_step run step working with
    still | ⟨task, rfl⟩ | ⟨task, status, attempts, nextAttemptAt, fault, ended, rfl⟩
  · exact mem_processed.mpr ⟨pid, mutation, still, rfl⟩
  · simp [uninterrupted, working] at steady
  · exact absurd rfl (noRecord pid task status attempts nextAttemptAt fault ended)

theorem processed_mark (run : Run (idle _ world) older c) {pid : Nat} {task : Task} {id attempts : Int}
    {nextAttemptAt : Option Time} {fault : Fault Error}
    (step : Step c (.call pid task (.updatePendingMutation id .inFlight attempts nextAttemptAt) fault) c')
    (steady : Fault.isLate fault = false) (reaches : fault.reaches = true)
    (found : ∃ row ∈ c.state.db.pendingMutations.rows, row.id = id) :
    id ∈ processed (⟨c, .call pid task (.updatePendingMutation id .inFlight attempts nextAttemptAt) fault,
      c'⟩ :: older) := by
  obtain ⟨q, reached, allowed⟩ := allows_of_call run step
  obtain ⟨row, answered⟩ : ∃ row, ((cacheHandler lib).answer fault
      (.updatePendingMutation id .inFlight attempts nextAttemptAt) c.state).1 = .ok row := by
    cases fault with
    | lost failure => cases reaches
    | late failure => cases steady
    | none =>
        cases result : c.state.db.updatePendingMutation id .inFlight attempts nextAttemptAt with
        | ok written =>
            refine ⟨written.1, ?_⟩
            rw [Handler.answer_none, cacheHandler_exec, World.perform, World.commit_of_ok result]
        | error failure =>
            obtain ⟨row, member, same⟩ := found
            exact absurd same (Db.updatePendingMutation_error result row member)
  rcases allows_update allowed with
    ⟨accountId, mutation, rest, rfl, rfl, -⟩ | ⟨_, _, _, _, _, _, ⟨wrong, -⟩ | ⟨wrong, -⟩⟩
  · refine mem_processed.mpr ⟨pid, mutation, workingOn_eq_some.mpr
      ⟨accountId, .started, rest, ?_⟩, rfl⟩
    rw [progressOf_call, reached, answered]
    rfl
  · cases wrong
  · cases wrong

theorem tracked_step (run : Run (idle _ world) older c) (step : Step c event c')
    (steady : uninterrupted older ⟨c, event, c'⟩ = true) (tracked : Tracked older c) :
    Tracked (⟨c, event, c'⟩ :: older) c' := by
  -- a row whose mutation the step does not update stays as it was
  have kept : ∀ row ∈ c.state.db.pendingMutations.rows,
      (∀ pid task status attempts nextAttemptAt fault, status ≠ .inFlight → event ≠
        .call pid task (.updatePendingMutation row.id status attempts nextAttemptAt) fault) →
      atRest row.data.status = true ∨
        row.data.status = .inFlight ∧ row.id ∈ processed (⟨c, event, c'⟩ :: older) := by
    intro row member noRecord
    refine (tracked row member).imp_right fun inFlight => ⟨inFlight.1, ?_⟩
    exact processed_step run step steady inFlight.2 noRecord
  have step' := step
  cases step with
  | @call pid task op next fault here =>
      intro row member
      change row ∈ ((cacheHandler lib).answer fault op c.state).2.db.pendingMutations.rows at member
      cases queueEffect lib fault op c.state with
      | same rows noUpdate =>
          rw [rows] at member
          refine kept row member ?_
          rintro pid' task' status attempts nextAttemptAt fault' ended eq
          cases eq
          rcases noUpdate _ _ _ _ rfl with lost | absent
          · cases status <;> first | exact ended rfl | simp [uninterrupted, lost] at steady
          · exact absent row member rfl
      | @updated id status attempts nextAttemptAt reaches rows found =>
          rw [rows] at member
          obtain ⟨old, oldMember, rfl⟩ := List.mem_map.mp member
          by_cases same : old.id = id
          · have after : (Table.modified (·.id == id)
                (fun m => { m with status, attempts, nextAttemptAt }) old).data.status = status := by
              simp [Table.modified, same]
            rw [after, Table.modified_id, same]
            by_cases mark : status = .inFlight
            · subst mark
              have inTime : Fault.isLate fault = false := by simpa [uninterrupted] using steady
              exact Or.inr ⟨rfl, processed_mark run step' inTime reaches found⟩
            · obtain ⟨q, reached, allowed⟩ := allows_of_call run step'
              rcases allows_update allowed with
                ⟨_, _, _, _, _, inFlight⟩ | ⟨_, _, _, _, _, _, ⟨rfl, -⟩ | ⟨rfl, -⟩⟩
              · exact absurd inFlight mark
              · exact Or.inl rfl
              · exact Or.inl rfl
          · have unchanged : Table.modified (·.id == id)
                (fun m => { m with status, attempts, nextAttemptAt }) old = old := by
              simp [Table.modified, same]
            rw [unchanged]
            refine kept old oldMember ?_
            rintro _ _ _ _ _ _ _ eq
            cases eq
            exact same rfl
      | enqueued rows =>
          rw [rows] at member
          rcases List.mem_append.mp member with old | new
          · exact kept row old (by simp)
          · obtain ⟨q, reached, allowed⟩ := allows_of_call run step'
            rw [List.mem_singleton.mp new]
            exact Or.inl (congrArg atRest (allows_enqueue allowed).2)
      | dropped keep rows =>
          rw [rows] at member
          exact kept row (List.mem_of_mem_filter member) (by simp)
  | spawn free => exact fun row member => kept row member (by simp)
  | returned here => exact fun row member => kept row member (by simp)
  | failed here => exact fun row member => kept row member (by simp)
  | crash here => exact fun row member => kept row member (by simp)
  | disturb change =>
      have same : (change.disturb c.state).db = c.state.db := by cases change <;> rfl
      exact fun row member => kept row (by rwa [← same]) (by simp)

end Step

/-- In every run that cuts off no attempt, a mutation that has neither succeeded nor is worked on
is found by the due query of its account as soon as its next attempt is due. -/
theorem due_of_unprocessed {world : World} {trace : List (Transition (cacheSystem lib services))}
    {c : Config (cacheSystem lib services)} (run : Run (idle _ world) trace c)
    (start : ∀ row ∈ world.db.pendingMutations.rows, atRest row.data.status = true)
    (steady : Always (fun older t => uninterrupted older t = true) trace) :
    ∀ row ∈ c.state.db.pendingMutations.rows, row.data.status ≠ .succeeded →
      row.id ∉ processed trace →
      ∀ now, (∀ time, row.data.nextAttemptAt = some time → time ≤ now) →
        row ∈ c.state.db.listDuePendingMutations now row.data.accountId := by
  have tracked : Tracked trace c :=
    run.invariant (fun row member => Or.inl (start row member))
      (fun older c event c' run step steady tracked => tracked_step run step steady tracked) steady
  intro row member unfinished unprocessed now due
  refine Db.mem_listDuePendingMutations.mpr ⟨member, ?_⟩
  have status : row.data.status = .pending ∨ row.data.status = .failed := by
    rcases tracked row member with rest | inFlight
    · cases status : row.data.status <;> simp_all [atRest]
    · exact absurd inFlight.2 unprocessed
  have attempt : row.data.nextAttemptAt.all (· ≤ now) = true := by
    cases next : row.data.nextAttemptAt with
    | none => rfl
    | some time => simpa using due time next
  rcases status with status | status <;> simp [Db.isDue, status, attempt]

/-! ## Two attempts at one mutation -/

def inboxWithMessage : Config (cacheSystem Sample.libraries ⟨true, false⟩) :=
  idle _ (Sample.world
    (Sample.db [Sample.mailbox "INBOX" (some 7)] [Sample.row 1 1 (some 1) []])
    { mailboxes := [Sample.withMessages (Sample.upstreamMailbox "INBOX" (some 7)) [Sample.hiMessage]]
      uidplus := true, distinct := List.pairwise_singleton _ _ })

/-- Queue a change of flags and begin its flush, up to the mark. -/
def untilMark : List (Label (cacheSystem Sample.libraries ⟨true, false⟩)) :=
  [.spawn 0 (.queueFlagUpdate 1 1 none 1 ["\\Seen"]), .step 0 .none, .step 0 .none, .finish 0,
    .spawn 1 (.flush 1), .step 1 .none, .step 1 .none]

/-- The connection has no mailbox selected, so the attempt fails and is recorded as failed. -/
def failedAttempt : List (Label (cacheSystem Sample.libraries ⟨true, false⟩)) :=
  untilMark ++ List.replicate 5 (Label.step 1 .none) ++ [Label.finish 1]

def crashedAttempt : List (Label (cacheSystem Sample.libraries ⟨true, false⟩)) :=
  untilMark ++ [Label.crash 1]

/-- The mutations of a state with their status and next attempt. -/
def statuses (world : World) : List (Int × MutationStatus × Option Time) :=
  world.db.pendingMutations.rows.map fun row => (row.id, row.data.status, row.data.nextAttemptAt)

theorem due_of_unprocessed_failedAttempt :
    ∃ trace c, Run inboxWithMessage trace c ∧ ∃ row ∈ c.state.db.pendingMutations.rows,
      row.data.status = .failed ∧ row ∈ c.state.db.listDuePendingMutations 2 row.data.accountId := by
  have evaluated : (schedule [] inboxWithMessage failedAttempt).map (fun run =>
      (statuses run.2.state, processed run.1,
        decide (Always (fun older t => uninterrupted older t = true) run.1))) =
      some ([(1, .failed, some 2)], [], true) := by
    decide +kernel
  obtain ⟨⟨trace, c⟩, followed, result⟩ := Option.map_eq_some_iff.mp evaluated
  simp only [Prod.mk.injEq, decide_eq_true_eq] at result
  obtain ⟨rows, unprocessed, steady⟩ := result
  have run := schedule_run .start followed
  obtain ⟨row, member, key⟩ : ∃ row ∈ c.state.db.pendingMutations.rows,
      (row.id, row.data.status, row.data.nextAttemptAt) = (1, .failed, some 2) := by
    have here : (1, .failed, some 2) ∈ statuses c.state := by rw [rows]; exact List.mem_singleton_self _
    simpa [statuses] using here
  simp only [Prod.mk.injEq] at key
  refine ⟨trace, c, run, row, member, key.2.1, ?_⟩
  refine due_of_unprocessed run (by decide +kernel) steady row member (by simp [key.2.1])
    (by simp [unprocessed]) 2 fun time next => ?_
  rw [key.2.2] at next
  cases next
  exact le_rfl

/-- After a crash the mutation is in flight, nobody works on it and no query finds it again. -/
theorem stuck_after_crash :
    ∃ trace c, Run inboxWithMessage trace c ∧ ∃ row ∈ c.state.db.pendingMutations.rows,
      row.data.status ≠ .succeeded ∧ row.id ∉ processed trace ∧ row.data.nextAttemptAt = none ∧
      ∀ now, row ∉ c.state.db.listDuePendingMutations now row.data.accountId := by
  have evaluated : (schedule [] inboxWithMessage crashedAttempt).map (fun run =>
      (statuses run.2.state, processed run.1)) = some ([(1, .inFlight, none)], []) := by
    decide +kernel
  obtain ⟨⟨trace, c⟩, followed, result⟩ := Option.map_eq_some_iff.mp evaluated
  simp only [Prod.mk.injEq] at result
  obtain ⟨rows, unprocessed⟩ := result
  obtain ⟨row, member, key⟩ : ∃ row ∈ c.state.db.pendingMutations.rows,
      (row.id, row.data.status, row.data.nextAttemptAt) = (1, .inFlight, none) := by
    have here : (1, .inFlight, none) ∈ statuses c.state := by rw [rows]; exact List.mem_singleton_self _
    simpa [statuses] using here
  simp only [Prod.mk.injEq] at key
  refine ⟨trace, c, schedule_run .start followed, row, member, by simp [key.2.1],
    by simp [unprocessed], key.2.2, fun now due => ?_⟩
  simpa [Db.isDue, key.2.1] using (Db.mem_listDuePendingMutations.mp due).2

end ImapCache.Queue
