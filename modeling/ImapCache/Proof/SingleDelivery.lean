import ImapCache.Model.Sample
import ImapCache.Proof.ExclusiveFlush
import ImapCache.Proof.UpstreamServer

/-!
# One message for a mutation

An attempt at an append, a copy or a move delivers a message with one command and then makes more
calls. A failure of the command after its effect, or of one of the calls after it, is recorded as a
failure of the attempt, and the retry delivers the message again. So do two flushes that have listed
the same mutation.
-/

namespace ImapCache.Queue
open Lib Prog System

variable {lib : Libraries} {services : Services}

/-- The number of messages that a transition adds upstream. -/
def delivered (t : Transition (cacheSystem lib services)) : Nat :=
  t.after.state.upstream.messageCount - t.before.state.upstream.messageCount

/-- The messages that the calls of attempts at a mutation have added upstream. -/
def deliveries : List (Transition (cacheSystem lib services)) → Int → Nat
  | [], _ => 0
  | t :: older, id =>
      deliveries older id +
        match t.event with
        | .call pid _ _ _ => if (workingOn older pid).map (·.id) = some id then delivered t else 0
        | _ => 0

/-- Whether an error of the call fails the attempt it belongs to. -/
def failsAttempt : Op → Bool
  | .updatePendingMutation .. | .publishEvent _ => false
  | _ => true

/-- The step does not fail an attempt that has delivered its message. -/
def keepsDelivered (older : List (Transition (cacheSystem lib services)))
    (t : Transition (cacheSystem lib services)) : Bool :=
  match t.event with
  | .call pid _ op fault =>
      match progressOf older pid, ((cacheHandler lib).answer fault op t.before.state).1 with
      | some (.flush _ (.working _ stage _)), .error _ =>
          !failsAttempt op || (stage != .executed && delivered t == 0)
      | _, _ => true
  | _ => true

theorem keepsDelivered_error {older : List (Transition (cacheSystem lib services))}
    {c c' : Config (cacheSystem lib services)} {pid : Nat} {task : Task} {op : Op}
    {fault : Fault Error} {accountId : Int} {mutation : Row PendingMutation} {stage : Stage}
    {rest : List (Row PendingMutation)} {failure : Error}
    (keeps : keepsDelivered older ⟨c, .call pid task op fault, c'⟩ = true)
    (reached : progressOf older pid = some (.flush accountId (.working mutation stage rest)))
    (error : ((cacheHandler lib).answer fault op c.state).1 = .error failure) :
    failsAttempt op = false ∨ stage ≠ .executed ∧
      delivered (⟨c, .call pid task op fault, c'⟩ : Transition (cacheSystem lib services)) = 0 := by
  simpa [keepsDelivered, reached, error] using keeps

theorem messageCount_call {c c' : Config (cacheSystem lib services)} {pid : Nat} {task : Task}
    {op : Op} {fault : Fault Error} (step : Step c (.call pid task op fault) c') :
    c'.state.upstream.messageCount ≤ c.state.upstream.messageCount + op.creates := by
  cases step with
  | call fault here =>
      rcases (cacheHandler lib).answer_state fault op c.state with same | executed
      · exact (congrArg (fun world : World => world.upstream.messageCount) same).trans_le
          (Nat.le_add_right _ _)
      · exact (congrArg (fun world : World => world.upstream.messageCount) executed).trans_le
          (Upstream.messageCount_perform lib c.state op)

/-- A process that works on a mutation delivers at most one message with a call, by the command
that carries the mutation out. -/
theorem delivered_call {c c' : Config (cacheSystem lib services)} {pid : Nat} {task : Task}
    {op : Op} {fault : Fault Error} (step : Step c (.call pid task op fault) c') {accountId : Int}
    {mutation : Row PendingMutation} {stage : Stage} {rest : List (Row PendingMutation)}
    (allowed : FlushState.Allows accountId (.working mutation stage rest) op) :
    delivered ⟨c, .call pid task op fault, c'⟩ = 0 ∨
      delivered ⟨c, .call pid task op fault, c'⟩ = 1 ∧ stage = .started ∧
        carriesOut mutation.data op = true ∧ failsAttempt op = true := by
  have count := messageCount_call step
  unfold delivered
  by_cases creates : op.creates = 0
  · left
    simp only
    omega
  · have begun : stage = .started ∧ carriesOut mutation.data op = true ∧ failsAttempt op = true := by
      cases op with
      | append => cases stage <;>
          simp_all [FlushState.Allows, preparatory, subsequent, Records, failsAttempt]
      | uidCopyMessage => cases stage <;>
          simp_all [FlushState.Allows, preparatory, subsequent, Records, failsAttempt]
      | _ => exact absurd rfl creates
    have one := op.creates_le_one
    rcases Nat.lt_or_ge c.state.upstream.messageCount c'.state.upstream.messageCount with more | less
    · exact Or.inr ⟨by simp only; omega, begun⟩
    · exact Or.inl (by simp only; omega)

theorem next_executed (mutation : Row PendingMutation) (rest : List (Row PendingMutation)) {op : Op}
    {answer : Except Error op.Ret} (harmless : ∀ failure, answer = .error failure → failsAttempt op = false) :
    FlushState.next (.working mutation .executed rest) op answer = .working mutation .executed rest ∨
      (FlushState.next (.working mutation .executed rest) op answer).held.Sublist rest := by
  cases op with
  | updatePendingMutation id status attempts nextAttemptAt =>
      right
      cases answer with
      | error failure => cases status <;> exact List.nil_sublist _
      | ok row => cases status <;> first | exact List.Sublist.refl _ | exact List.nil_sublist _
  | publishEvent event => exact Or.inl rfl
  | _ =>
      left
      cases answer with
      | error failure => cases harmless failure rfl
      | ok value => simp [FlushState.next]

/-- What is true of a mutation whose message has been delivered. -/
structure Delivered (trace : List (Transition (cacheSystem lib services)))
    (c : Config (cacheSystem lib services)) (id : Int) : Prop where
  known : id < c.state.db.pendingMutations.nextId
  status : ∀ row ∈ c.state.db.pendingMutations.rows, row.id = id →
    row.data.status = .inFlight ∨ row.data.status = .succeeded
  holder : ∀ {pid accountId mutation}, Holds trace pid accountId mutation → mutation.id = id →
    ∃ rest, progressOf trace pid = some (.flush accountId (.working mutation .executed rest))

def DeliveredOnce (trace : List (Transition (cacheSystem lib services)))
    (c : Config (cacheSystem lib services)) : Prop :=
  ∀ id, deliveries trace id = 0 ∨ deliveries trace id = 1 ∧ Delivered trace c id

section Step
variable {world : World} {older : List (Transition (cacheSystem lib services))}
  {c c' : Config (cacheSystem lib services)} {event : Event (cacheSystem lib services)}

/-- A step adds to the messages of at most one mutation: one that is being worked on, whose command
has not been answered before. -/
theorem deliveries_step (run : Run (idle _ world) older c) (step : Step c event c') (id : Int) :
    deliveries (⟨c, event, c'⟩ :: older) id = deliveries older id ∨
    deliveries (⟨c, event, c'⟩ :: older) id = deliveries older id + 1 ∧
      ∃ pid task op fault accountId mutation rest, event = .call pid task op fault ∧
        progressOf older pid = some (.flush accountId (.working mutation .started rest)) ∧
        mutation.id = id ∧ carriesOut mutation.data op = true ∧ failsAttempt op = true ∧
        delivered ⟨c, event, c'⟩ = 1 := by
  cases event with
  | call pid task op fault =>
      simp only [deliveries]
      split
      · rename_i here
        obtain ⟨mutation, working, rfl⟩ := Option.map_eq_some_iff.mp here
        obtain ⟨accountId, stage, rest, reached⟩ := workingOn_eq_some.mp working
        obtain ⟨q, reached', allowed⟩ := allows_of_call run step
        rw [reached] at reached'
        cases reached'
        rcases delivered_call step allowed with nothing | ⟨one, rfl, carries, fails⟩
        · exact Or.inl (by rw [nothing]; rfl)
        · exact Or.inr ⟨by rw [one], pid, task, op, fault, accountId, mutation, rest, rfl, reached, rfl,
            carries, fails, one⟩
      · exact Or.inl rfl
  | _ => exact Or.inl rfl

theorem Exclusive.head_of_held {trace : List (Transition (cacheSystem lib services))}
    {c : Config (cacheSystem lib services)} (exclusive : Exclusive trace c) {pid : Nat}
    {accountId : Int} {state : FlushState} {mutation mutation' : Row PendingMutation}
    {rest : List (Row PendingMutation)}
    (reached : progressOf trace pid = some (.flush accountId state))
    (held : state.held = mutation :: rest) (member : mutation' ∈ state.held)
    (same : mutation'.id = mutation.id) : mutation' = mutation := by
  have nodup := exclusive.nodup reached
  rw [held, List.map_cons, List.nodup_cons] at nodup
  rw [held] at member
  rcases List.mem_cons.mp member with eq | inRest
  · exact eq
  · exact absurd (same ▸ List.mem_map_of_mem inRest) nodup.1

theorem delivered_first {pid : Nat} {task : Task} {op : Op}
    {fault : Fault Error} (step : Step c (.call pid task op fault) c')
    (exclusive : Exclusive (⟨c, .call pid task op fault, c'⟩ :: older) c')
    (keeps : keepsDelivered older ⟨c, .call pid task op fault, c'⟩ = true) {accountId : Int}
    {mutation : Row PendingMutation} {rest : List (Row PendingMutation)}
    (reached : progressOf older pid = some (.flush accountId (.working mutation .started rest)))
    (carries : carriesOut mutation.data op = true) (fails : failsAttempt op = true)
    (one : delivered (⟨c, .call pid task op fault, c'⟩ : Transition (cacheSystem lib services)) = 1) :
    Delivered (⟨c, .call pid task op fault, c'⟩ :: older) c' mutation.id := by
  -- an error would have failed the attempt, so the command was answered
  have executed : progressOf (⟨c, .call pid task op fault, c'⟩ :: older) pid =
      some (.flush accountId (.working mutation .executed rest)) := by
    cases answer : ((cacheHandler lib).answer fault op c.state).1 with
    | error failure =>
        rcases keepsDelivered_error keeps reached answer with harmless | ⟨-, nothing⟩
        · rw [fails] at harmless
          cases harmless
        · omega
    | ok value =>
        rw [progressOf_call, reached, Option.map_some, answer, Progress.next,
          next_carriesOut carries]
  have working : workingOn (⟨c, .call pid task op fault, c'⟩ :: older) pid = some mutation :=
    workingOn_eq_some.mpr ⟨_, _, _, executed⟩
  obtain ⟨accountId', held⟩ := holds_of_workingOn working
  constructor
  · exact (exclusive.known held).2.1
  · exact fun row member same => Or.inl (exclusive.marked working row member same)
  · intro pid' account mutation' holds same
    have owner := exclusive.only_holder holds held same
    subst owner
    obtain ⟨state, reached', member⟩ := holds
    rw [executed] at reached'
    cases reached'
    have head := exclusive.head_of_held executed rfl member same
    exact ⟨rest, by rw [head]; exact executed⟩

theorem delivered_step (run : Run (idle _ world) older c) (step : Step c event c')
    (exclusive : Exclusive older c) (keeps : keepsDelivered older ⟨c, event, c'⟩ = true) {id : Int}
    (before : Delivered older c id) : Delivered (⟨c, event, c'⟩ :: older) c' id := by
  constructor
  · exact lt_of_lt_of_le before.known (nextId_step step)
  · intro row member same
    rcases row_step step member with ⟨old, oldMember, version, status⟩ | ⟨_, _, _, _, -, rfl⟩
    · rcases status with status | ⟨pid, task, attempts, nextAttemptAt, fault, rfl⟩
      · rw [← status]
        exact before.status old oldMember (version.1.trans same)
      · obtain ⟨q, reached, allowed⟩ := allows_of_call run step
        rcases allows_update allowed with
          ⟨_, _, _, _, _, inFlight⟩ | ⟨account, mutation, stage, rest, rfl, sameId, record⟩
        · exact Or.inl inFlight
        · obtain ⟨rest', working⟩ := before.holder ⟨_, reached, List.mem_cons_self ..⟩
            (sameId.symm.trans same)
          rw [reached] at working
          cases working
          rcases record with ⟨succeeded, -⟩ | ⟨-, wrong⟩
          · exact Or.inr succeeded
          · exact absurd rfl wrong
    · exact absurd same (ne_of_gt before.known)
  · intro pid accountId mutation holds same
    rcases holds_step run step holds with held | ⟨task, fault, rfl, due⟩
    · obtain ⟨rest, working⟩ := before.holder held same
      obtain ⟨state, reached, member⟩ := holds
      rcases progressOf_cases run step reached with
        ⟨other, same'⟩ | ⟨task, rfl, start⟩ | ⟨task, op, fault, q, rfl, reached', allowed, next⟩
      · exact ⟨rest, (progress_other other).trans working⟩
      · cases task <;> cases start
        cases member
      · rw [working] at reached'
        cases reached'
        cases next
        have harmless : ∀ failure, ((cacheHandler lib).answer fault op c.state).1 = .error failure →
            failsAttempt op = false := by
          intro failure error
          rcases keepsDelivered_error keeps working error with harmless | ⟨wrong, -⟩
          · exact harmless
          · exact absurd rfl wrong
        rcases next_executed mutation rest harmless with next | sublist
        · refine ⟨rest, ?_⟩
          rw [progressOf_call, working, Option.map_some, Progress.next, next]
        · have nodup := exclusive.nodup working
          simp only [FlushState.held, List.map_cons, List.nodup_cons] at nodup
          exact absurd (List.mem_map_of_mem (sublist.subset member)) nodup.1
    · obtain ⟨member, due⟩ := Db.mem_listDuePendingMutations.mp due
      rcases before.status mutation member same with status | status <;>
        simp [Db.isDue, status] at due

end Step

theorem deliveredOnce {world : World} {trace : List (Transition (cacheSystem lib services))}
    {c : Config (cacheSystem lib services)} (run : Run (idle _ world) trace c)
    (separate : Always (fun older t => startsAlone older t = true) trace)
    (keeps : Always (fun older t => keepsDelivered older t = true) trace) : DeliveredOnce trace c := by
  induction run with
  | start => exact fun id => Or.inl rfl
  | @step older c event c' run step ih =>
      have exclusive := exclusive_of_startsAlone run separate.2
      have after := exclusive_of_startsAlone (run.step step) separate
      intro id
      rcases deliveries_step run step id with
        same | ⟨more, pid, task, op, fault, accountId, mutation, rest, rfl, reached, rfl, carries, fails, one⟩
      · rw [same]
        exact (ih separate.2 keeps.2 id).imp_right fun once =>
          ⟨once.1, delivered_step run step exclusive keeps.1 once.2⟩
      · rw [more]
        rcases ih separate.2 keeps.2 mutation.id with none | ⟨-, already⟩
        · refine Or.inr ⟨by rw [none], ?_⟩
          exact delivered_first step after keeps.1 reached carries fails one
        · obtain ⟨rest', working⟩ := already.holder ⟨_, reached, List.mem_cons_self ..⟩ rfl
          rw [reached] at working
          cases working

/-- Where flushes of an account do not overlap and no attempt fails after it has delivered its
message, every mutation creates at most one message. -/
theorem deliveries_le_one {world : World} {trace : List (Transition (cacheSystem lib services))}
    {c : Config (cacheSystem lib services)} (run : Run (idle _ world) trace c)
    (separate : Always (fun older t => startsAlone older t = true) trace)
    (keeps : Always (fun older t => keepsDelivered older t = true) trace) (id : Int) :
    deliveries trace id ≤ 1 := by
  rcases deliveredOnce run separate keeps id with none | ⟨one, -⟩
  · omega
  · omega

/-! ## Two flushes of one append -/

/-- A client appends a message to INBOX, and the mutation is queued. -/
def queuedAppend : List (Label (cacheSystem Sample.libraries ⟨true, false⟩)) :=
  Label.spawn 0 (Task.command "a1" ⟨some 1, .authenticated, none⟩
      (.append ["INBOX", "\x7b21\x7d"] (some Sample.hiMessage))) ::
    List.replicate 21 (Label.step 0 .none) ++ [Label.finish 0]

def flushedAppend : List (Label (cacheSystem Sample.libraries ⟨true, false⟩)) :=
  queuedAppend ++ Label.spawn 1 (Task.flush 1) :: List.replicate 10 (Label.step 1 .none) ++ [Label.finish 1]

/-- The server executes the append, the connection breaks before the answer, and the next flush
sends it again. -/
def repeatedAppend : List (Label (cacheSystem Sample.libraries ⟨true, false⟩)) :=
  queuedAppend ++ Label.spawn 1 (Task.flush 1) :: List.replicate 4 (Label.step 1 .none) ++
    Label.step 1 (.late (Error.io "connection reset")) :: List.replicate 3 (Label.step 1 .none) ++
    [Label.finish 1, Label.disturb (Environment.tick 2)] ++
    Label.spawn 2 (Task.flush 1) :: List.replicate 10 (Label.step 2 .none) ++ [Label.finish 2]

def emptyInbox : Config (cacheSystem Sample.libraries ⟨true, false⟩) :=
  idle _ (Sample.world (Sample.db [Sample.mailbox "INBOX" (some 7)] []) (Sample.emptyServer (some 7)))

theorem deliveries_le_one_flushedAppend :
    ∃ trace c, Run emptyInbox trace c ∧ deliveries trace 1 = 1 ∧ ∀ id, deliveries trace id ≤ 1 := by
  have evaluated : (schedule [] emptyInbox flushedAppend).map (fun run =>
      (deliveries run.1 1, decide (Always (fun older t => startsAlone older t = true) run.1),
        decide (Always (fun older t => keepsDelivered older t = true) run.1))) =
      some (1, true, true) := by
    decide +kernel
  obtain ⟨⟨trace, c⟩, followed, result⟩ := Option.map_eq_some_iff.mp evaluated
  simp only [Prod.mk.injEq, decide_eq_true_eq] at result
  obtain ⟨one, separate, keeps⟩ := result
  have run := schedule_run .start followed
  exact ⟨trace, c, run, one, fun id => deliveries_le_one run separate keeps id⟩

/-- One append, two messages upstream. -/
theorem repeatedAppend_twice :
    ∃ trace c, Run emptyInbox trace c ∧
      (c.state.db.pendingMutations.rows.map fun row => (row.id, row.data.mutationType)) = [(1, .append)] ∧
      deliveries trace 1 = 2 ∧ c.state.upstream.messageCount = 2 := by
  have evaluated : (schedule [] emptyInbox repeatedAppend).map (fun run =>
      (run.2.state.db.pendingMutations.rows.map (fun row => (row.id, row.data.mutationType)),
        deliveries run.1 1, run.2.state.upstream.messageCount)) = some ([(1, .append)], 2, 2) := by
    decide +kernel
  obtain ⟨⟨trace, c⟩, followed, result⟩ := Option.map_eq_some_iff.mp evaluated
  simp only [Prod.mk.injEq] at result
  exact ⟨trace, c, schedule_run .start followed, result⟩

end ImapCache.Queue
