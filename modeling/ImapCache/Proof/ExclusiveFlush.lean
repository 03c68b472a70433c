import ImapCache.Proof.QueueProtocol

/-!
# Flushes that do not overlap

Nothing in the code keeps two flushes of an account apart. Where they do not overlap, at most one
process holds a mutation at any time, and a mutation that is worked on is in flight.
-/

namespace ImapCache.Queue
open Lib Prog System

variable {lib : Libraries} {services : Services}

def FlushState.held : FlushState → List (Row PendingMutation)
  | between rest => rest
  | working mutation _ rest => mutation :: rest
  | _ => []

/-- The process has a mutation of the account on its list or in hand. -/
def Holds (trace : List (Transition (cacheSystem lib services))) (pid : Nat) (accountId : Int)
    (mutation : Row PendingMutation) : Prop :=
  ∃ state, progressOf trace pid = some (.flush accountId state) ∧ mutation ∈ state.held

def ActiveFlush (trace : List (Transition (cacheSystem lib services))) (pid : Nat)
    (accountId : Int) : Prop :=
  ∃ state, progressOf trace pid = some (.flush accountId state) ∧ state.Active

/-- The step starts no flush of an account while another flush of it has calls to make. -/
def startsAlone (older : List (Transition (cacheSystem lib services)))
    (t : Transition (cacheSystem lib services)) : Bool :=
  match t.event with
  | .spawn _ (.flush accountId) =>
      (spawned older).all fun pid =>
        match t.before.procs pid with
        | some (.flush accountId', .call _ _) => accountId' != accountId
        | _ => true
  | _ => true

/-! ## One step of a process -/

/-- A call keeps the list, ends it, takes its first mutation off with the record of its success, or
fills it. -/
theorem held_next {accountId : Int} {state : FlushState} {op : Op} (answer : Except Error op.Ret)
    (allowed : state.Allows accountId op) :
    (state.next op answer).held = state.held ∨ (state.next op answer).held = [] ∨
    (∃ (mutation : Row PendingMutation) (attempts : Int) (nextAttemptAt : Option Time)
        (row : Row PendingMutation), state.held = mutation :: (state.next op answer).held ∧
      op = .updatePendingMutation mutation.id .succeeded attempts nextAttemptAt ∧
      HEq answer (Except.ok row : Except Error (Row PendingMutation))) ∨
    ∃ rows, op = .listDuePendingMutations accountId ∧
      HEq answer (Except.ok rows : Except Error (List (Row PendingMutation))) ∧
      (state.next op answer).held = rows := by
  cases state with
  | listing =>
      cases allowed
      cases answer with
      | ok rows => exact Or.inr (Or.inr (Or.inr ⟨rows, rfl, HEq.rfl, rfl⟩))
      | error failure => exact Or.inl rfl
  | between rest =>
      rcases allowed with ⟨event, rfl⟩ | ⟨mutation, rest', rfl, rfl⟩
      · rw [next_between_publish]
        exact Or.inl rfl
      · cases answer with
        | ok row => exact Or.inl rfl
        | error failure => exact Or.inr (Or.inl rfl)
  | working mutation stage rest =>
      by_cases update : ∃ id status attempts nextAttemptAt,
          op = .updatePendingMutation id status attempts nextAttemptAt
      · obtain ⟨id, status, attempts, nextAttemptAt, rfl⟩ := update
        obtain ⟨rfl, -⟩ := record_of_allows allowed
        cases answer with
        | ok row =>
            cases status with
            | succeeded => exact Or.inr (Or.inr (Or.inl ⟨mutation, _, _, row, rfl, rfl, HEq.rfl⟩))
            | _ => exact Or.inr (Or.inl rfl)
        | error failure => cases status <;> exact Or.inr (Or.inl rfl)
      · push Not at update
        obtain ⟨stage', next⟩ := next_working mutation stage rest answer update
        rw [next]
        exact Or.inl rfl
  | done => exact Or.inl rfl

theorem next_eq_working {accountId : Int} {state : FlushState} {op : Op}
    (answer : Except Error op.Ret) (allowed : state.Allows accountId op)
    {mutation : Row PendingMutation} {stage : Stage} {rest : List (Row PendingMutation)}
    (next : state.next op answer = .working mutation stage rest) :
    (∃ stage', state = .working mutation stage' rest ∧ ∀ id status attempts nextAttemptAt,
      op ≠ .updatePendingMutation id status attempts nextAttemptAt) ∨
    ∃ row : Row PendingMutation, state = .between (mutation :: rest) ∧ stage = .started ∧
      op = .updatePendingMutation mutation.id .inFlight (mutation.data.attempts + 1) none ∧
      HEq answer (Except.ok row : Except Error (Row PendingMutation)) := by
  cases state with
  | listing =>
      cases allowed
      cases answer <;> cases next
  | between list =>
      right
      rcases allowed with ⟨event, rfl⟩ | ⟨marked, list', rfl, rfl⟩
      · rw [next_between_publish] at next
        cases next
      · cases answer with
        | error failure => cases next
        | ok row =>
            cases next
            exact ⟨row, rfl, rfl, rfl, HEq.rfl⟩
  | working held stage' list =>
      left
      by_cases update : ∃ id status attempts nextAttemptAt,
          op = .updatePendingMutation id status attempts nextAttemptAt
      · obtain ⟨id, status, attempts, nextAttemptAt, rfl⟩ := update
        cases answer <;> cases status <;> cases next
      · push Not at update
        obtain ⟨stage'', same⟩ := next_working held stage' list answer update
        rw [same] at next
        cases next
        exact ⟨stage', rfl, update⟩
  | done => cases next

theorem active_next {accountId : Int} {state : FlushState} {op : Op} {answer : Except Error op.Ret}
    (allowed : state.Allows accountId op) (active : (state.next op answer).Active) :
    state.Active := by
  cases state with
  | listing => trivial
  | between rest =>
      rcases allowed with ⟨event, rfl⟩ | ⟨mutation, rest', rfl, rfl⟩
      · rwa [next_between_publish] at active
      · exact List.cons_ne_nil _ _
  | working mutation stage rest => trivial
  | done => exact active

section Step
variable {world : World} {older : List (Transition (cacheSystem lib services))}
  {c c' : Config (cacheSystem lib services)} {event : Event (cacheSystem lib services)}

theorem progressOf_cases (run : Run (idle _ world) older c) (step : Step c event c') {pid : Nat}
    {q' : Progress} (reached : progressOf (⟨c, event, c'⟩ :: older) pid = some q') :
    (event.actor ≠ some pid ∧ progressOf older pid = some q') ∨
    (∃ task, event = .spawn pid task ∧ q' = begin task) ∨
    ∃ task op fault q, event = .call pid task op fault ∧ progressOf older pid = some q ∧
      q.Allows op ∧ q' = q.next op ((cacheHandler lib).answer fault op c.state).1 := by
  by_cases own : event.actor = some pid
  · right
    cases step with
    | @spawn _ task free =>
        cases own
        left
        refine ⟨task, rfl, ?_⟩
        simpa [progressOf, progress] using reached.symm
    | @call _ task op next fault here =>
        cases own
        right
        obtain ⟨q, reached', allowed⟩ := allows_of_call run (.call fault here)
        rw [progressOf_call, reached', Option.map_some] at reached
        exact ⟨task, op, fault, q, rfl, reached', allowed, (Option.some.inj reached).symm⟩
    | returned here => cases own; simp [progressOf, progress] at reached
    | failed here => cases own; simp [progressOf, progress] at reached
    | crash here => cases own; simp [progressOf, progress] at reached
    | disturb change => cases own
  · exact Or.inl ⟨own, (progress_other own).symm.trans reached⟩

theorem held_step (run : Run (idle _ world) older c) (step : Step c event c') {pid : Nat}
    {accountId : Int} {state : FlushState}
    (reached : progressOf (⟨c, event, c'⟩ :: older) pid = some (.flush accountId state)) :
    state.held = [] ∨
    (∃ task fault, event = .call pid task (.listDuePendingMutations accountId) fault ∧
      state.held = c.state.db.listDuePendingMutations c.state.now accountId) ∨
    ∃ before, progressOf older pid = some (.flush accountId before) ∧
      (state.held = before.held ∨ ∃ mutation task attempts nextAttemptAt fault row,
        before.held = mutation :: state.held ∧ event = .call pid task
          (.updatePendingMutation mutation.id .succeeded attempts nextAttemptAt) fault ∧
        ((cacheHandler lib).answer fault
          (.updatePendingMutation mutation.id .succeeded attempts nextAttemptAt) c.state).1 = .ok row) := by
  rcases progressOf_cases run step reached with
    ⟨-, before⟩ | ⟨task, rfl, start⟩ | ⟨task, op, fault, q, rfl, before, allowed, next⟩
  · exact Or.inr (Or.inr ⟨state, before, Or.inl rfl⟩)
  · cases task <;> cases start
    exact Or.inl rfl
  · cases q with
    | other => cases next
    | flush accountId' state' =>
        cases next
        rcases held_next ((cacheHandler lib).answer fault op c.state).1 allowed with
          same | empty | ⟨mutation, attempts, nextAttemptAt, row, first, rfl, answered⟩ |
          ⟨rows, rfl, answered, listed⟩
        · exact Or.inr (Or.inr ⟨state', before, Or.inl same⟩)
        · exact Or.inl empty
        · exact Or.inr (Or.inr ⟨state', before,
            Or.inr ⟨mutation, task, attempts, nextAttemptAt, fault, row, first, rfl, eq_of_heq answered⟩⟩)
        · refine Or.inr (Or.inl ⟨task, fault, rfl, ?_⟩)
          rw [listed]
          have answered := eq_of_heq answered
          rw [Handler.answer_ok answered, cacheHandler_exec, World.perform] at answered
          exact (Except.ok.inj answered).symm

theorem holds_step (run : Run (idle _ world) older c) (step : Step c event c') {pid : Nat}
    {accountId : Int} {mutation : Row PendingMutation}
    (holds : Holds (⟨c, event, c'⟩ :: older) pid accountId mutation) :
    Holds older pid accountId mutation ∨
    ∃ task fault, event = .call pid task (.listDuePendingMutations accountId) fault ∧
      mutation ∈ c.state.db.listDuePendingMutations c.state.now accountId := by
  obtain ⟨state, reached, member⟩ := holds
  rcases held_step run step reached with
    empty | ⟨task, fault, rfl, listed⟩ | ⟨before, reached', same | ⟨_, _, _, _, _, _, first, -⟩⟩
  · rw [empty] at member
    cases member
  · exact Or.inr ⟨task, fault, rfl, listed ▸ member⟩
  · exact Or.inl ⟨before, reached', same ▸ member⟩
  · exact Or.inl ⟨before, reached', first ▸ List.mem_cons_of_mem _ member⟩

theorem activeFlush_step (run : Run (idle _ world) older c) (step : Step c event c') {pid : Nat}
    {accountId : Int} (active : ActiveFlush (⟨c, event, c'⟩ :: older) pid accountId) :
    ActiveFlush older pid accountId ∨ event = .spawn pid (.flush accountId) := by
  obtain ⟨state, reached, active⟩ := active
  rcases progressOf_cases run step reached with
    ⟨-, before⟩ | ⟨task, rfl, start⟩ | ⟨task, op, fault, q, rfl, before, allowed, next⟩
  · exact Or.inl ⟨state, before, active⟩
  · cases task <;> cases start
    exact Or.inr rfl
  · cases q with
    | other => cases next
    | flush accountId' state' =>
        cases next
        exact Or.inl ⟨state', before, active_next allowed active⟩

end Step

/-! ## The process behind a flush -/

theorem flush_task {world : World} {trace : List (Transition (cacheSystem lib services))}
    {c : Config (cacheSystem lib services)} (run : Run (idle _ world) trace c) :
    ∀ {pid accountId state}, progressOf trace pid = some (.flush accountId state) →
      ∃ program, c.procs pid = some (.flush accountId, program) := by
  induction run with
  | start => exact fun reached => nomatch reached
  | @step older c event c' run step ih =>
      intro pid accountId state reached
      have here : ∀ pid', event.actor ≠ some pid' → c'.procs pid' = c.procs pid' := by
        intro pid' other
        cases step with
        | disturb change => rfl
        | _ => exact Function.update_of_ne (fun eq => other (congrArg some eq.symm)) _ _
      rcases progressOf_cases run step reached with
        ⟨other, before⟩ | ⟨task, rfl, start⟩ | ⟨task, op, fault, q, rfl, before, allowed, next⟩
      · rw [here pid other]
        exact ih before
      · cases step
        cases task <;> cases start
        exact ⟨_, Function.update_self ..⟩
      · cases q with
        | other => cases next
        | flush accountId' state' =>
            cases next
            obtain ⟨program, running⟩ := ih before
            cases step with
            | call fault calls =>
                rw [running] at calls
                cases calls
                exact ⟨_, Function.update_self ..⟩

theorem busy_of_active {world : World} {trace : List (Transition (cacheSystem lib services))}
    {c : Config (cacheSystem lib services)} (run : Run (idle _ world) trace c) {pid : Nat}
    {accountId : Int} (active : ActiveFlush trace pid accountId) :
    c.Busy pid (.flush accountId) := by
  obtain ⟨state, reached, active⟩ := active
  obtain ⟨program, running⟩ := flush_task run reached
  have follows := run.follows (queueProtocol_sound lib) (task_follows lib services) pid
  simp only [running] at follows
  obtain ⟨q, reached', follows⟩ := follows
  rw [progressOf, reached'] at reached
  cases reached
  cases program with
  | ret value => exact absurd active follows
  | throw failure => exact absurd active follows
  | call op next => exact ⟨op, next, running⟩

/-! ## The rows of the queue through a step -/

def SameMutation (a b : Row PendingMutation) : Prop :=
  a.id = b.id ∧ a.data.accountId = b.data.accountId ∧ a.data.mailboxId = b.data.mailboxId ∧
    a.data.mutationType = b.data.mutationType ∧ a.data.payloadJson = b.data.payloadJson ∧
    a.data.createdAt = b.data.createdAt

theorem SameMutation.refl (a : Row PendingMutation) : SameMutation a a := ⟨rfl, rfl, rfl, rfl, rfl, rfl⟩

theorem SameMutation.symm {a b : Row PendingMutation} (same : SameMutation a b) : SameMutation b a := by
  obtain ⟨id, account, mailbox, kind, payload, created⟩ := same
  exact ⟨id.symm, account.symm, mailbox.symm, kind.symm, payload.symm, created.symm⟩

theorem SameMutation.trans {a b d : Row PendingMutation} (first : SameMutation a b)
    (second : SameMutation b d) : SameMutation a d :=
  ⟨first.1.trans second.1, first.2.1.trans second.2.1, first.2.2.1.trans second.2.2.1,
    first.2.2.2.1.trans second.2.2.2.1, first.2.2.2.2.1.trans second.2.2.2.2.1,
    first.2.2.2.2.2.trans second.2.2.2.2.2⟩

theorem sameMutation_modified (id : Int) (status : MutationStatus) (attempts : Int)
    (nextAttemptAt : Option Time) (row : Row PendingMutation) :
    SameMutation row (Table.modified (·.id == id)
      (fun m => { m with status, attempts, nextAttemptAt }) row) := by
  unfold Table.modified
  split <;> exact ⟨rfl, rfl, rfl, rfl, rfl, rfl⟩

section Rows
variable {world : World} {older : List (Transition (cacheSystem lib services))}
  {c c' : Config (cacheSystem lib services)} {event : Event (cacheSystem lib services)}

/-- A row after a step is a version of a row before it, with the same status unless the step is an
update of its mutation, or a new row under a new id. -/
theorem row_step (step : Step c event c') {row : Row PendingMutation}
    (member : row ∈ c'.state.db.pendingMutations.rows) :
    (∃ old ∈ c.state.db.pendingMutations.rows, SameMutation old row ∧
      (old.data.status = row.data.status ∨ ∃ pid task attempts nextAttemptAt fault, event =
        .call pid task (.updatePendingMutation row.id row.data.status attempts nextAttemptAt) fault)) ∨
    ∃ pid task input fault, event = .call pid task (.enqueueMutation input) fault ∧
      row = ⟨c.state.db.pendingMutations.nextId, { input with createdAt := c.state.now }⟩ := by
  cases step with
  | @call pid task op next fault here =>
      cases queueEffect lib fault op c.state with
      | same rows => exact Or.inl ⟨row, rows ▸ member, .refl row, Or.inl rfl⟩
      | @updated id status attempts nextAttemptAt reaches rows found =>
          have member := rows ▸ member
          obtain ⟨old, oldMember, rfl⟩ := List.mem_map.mp member
          refine Or.inl ⟨old, oldMember, sameMutation_modified .., ?_⟩
          by_cases same : old.id = id
          · right
            refine ⟨pid, task, attempts, nextAttemptAt, fault, ?_⟩
            simp [Table.modified, same]
          · left
            simp [Table.modified, same]
      | @enqueued input rows =>
          rcases List.mem_append.mp (rows ▸ member) with old | new
          · exact Or.inl ⟨row, old, .refl row, Or.inl rfl⟩
          · exact Or.inr ⟨pid, task, input, fault, rfl, List.mem_singleton.mp new⟩
      | dropped keep rows =>
          exact Or.inl ⟨row, List.mem_of_mem_filter (rows ▸ member), .refl row, Or.inl rfl⟩
  | disturb change =>
      have same : (change.disturb c.state).db = c.state.db := by cases change <;> rfl
      exact Or.inl ⟨row, same ▸ member, .refl row, Or.inl rfl⟩
  | _ => exact Or.inl ⟨row, member, .refl row, Or.inl rfl⟩

theorem updated_status {world : World} {fault : Fault Error} {id attempts : Int}
    {status : MutationStatus} {nextAttemptAt : Option Time} {answer row : Row PendingMutation}
    (answered : ((cacheHandler lib).answer fault
      (.updatePendingMutation id status attempts nextAttemptAt) world).1 = .ok answer)
    (member : row ∈ ((cacheHandler lib).answer fault
      (.updatePendingMutation id status attempts nextAttemptAt) world).2.db.pendingMutations.rows)
    (same : row.id = id) : row.data.status = status := by
  cases queueEffect lib fault (.updatePendingMutation id status attempts nextAttemptAt) world with
  | same rows noUpdate =>
      rcases noUpdate _ _ _ _ rfl with lost | absent
      · cases fault with
        | lost failure => cases answered
        | none => cases lost
        | late failure => cases lost
      · rw [rows] at member
        exact absurd same (absent row member)
  | updated reaches rows found =>
      rw [rows] at member
      obtain ⟨old, -, rfl⟩ := List.mem_map.mp member
      rw [Table.modified_id] at same
      simp [Table.modified, same]

theorem nextId_step (step : Step c event c') :
    c.state.db.pendingMutations.nextId ≤ c'.state.db.pendingMutations.nextId := by
  cases step with
  | call fault here => exact queue_nextId lib fault _ c.state
  | disturb change =>
      have same : (change.disturb c.state).db = c.state.db := by cases change <;> rfl
      exact (congrArg (fun db : Db => db.pendingMutations.nextId) same).ge
  | _ => exact le_rfl

end Rows

/-! ## At most one process holds a mutation -/

structure Exclusive (trace : List (Transition (cacheSystem lib services)))
    (c : Config (cacheSystem lib services)) : Prop where
  nodup : ∀ {pid accountId state}, progressOf trace pid = some (.flush accountId state) →
    (state.held.map (·.id)).Nodup
  known : ∀ {pid accountId mutation}, Holds trace pid accountId mutation →
    mutation.data.accountId = accountId ∧ mutation.id < c.state.db.pendingMutations.nextId ∧
      ∀ row ∈ c.state.db.pendingMutations.rows, row.id = mutation.id → SameMutation row mutation
  owner : ∀ {pid pid' accountId accountId' mutation mutation'}, Holds trace pid accountId mutation →
    Holds trace pid' accountId' mutation' → mutation.id = mutation'.id → accountId = accountId'
  alone : ∀ {pid pid' accountId}, ActiveFlush trace pid accountId →
    ActiveFlush trace pid' accountId → pid = pid'
  marked : ∀ {pid mutation}, workingOn trace pid = some mutation →
    ∀ row ∈ c.state.db.pendingMutations.rows, row.id = mutation.id → row.data.status = .inFlight

theorem Holds.active {trace : List (Transition (cacheSystem lib services))} {pid : Nat}
    {accountId : Int} {mutation : Row PendingMutation} (holds : Holds trace pid accountId mutation) :
    ActiveFlush trace pid accountId := by
  obtain ⟨state, reached, member⟩ := holds
  refine ⟨state, reached, ?_⟩
  cases state with
  | between rest => exact List.ne_nil_of_mem member
  | working mutation stage rest => trivial
  | listing => cases member
  | done => cases member

theorem holds_of_workingOn {trace : List (Transition (cacheSystem lib services))} {pid : Nat}
    {mutation : Row PendingMutation} (working : workingOn trace pid = some mutation) :
    ∃ accountId, Holds trace pid accountId mutation := by
  obtain ⟨accountId, stage, rest, reached⟩ := workingOn_eq_some.mp working
  exact ⟨accountId, _, reached, List.mem_cons_self ..⟩

theorem Exclusive.record_holder {world : World} {older : List (Transition (cacheSystem lib services))}
    {c c' : Config (cacheSystem lib services)} (run : Run (idle _ world) older c)
    (exclusive : Exclusive older c) {pid : Nat} {task : Task} {old : Row PendingMutation}
    {status : MutationStatus} {attempts : Int} {nextAttemptAt : Option Time} {fault : Fault Error}
    (step : Step c (.call pid task (.updatePendingMutation old.id status attempts nextAttemptAt) fault) c')
    (member : old ∈ c.state.db.pendingMutations.rows) (notMark : status ≠ .inFlight) :
    ∃ accountId mutation stage rest,
      progressOf older pid = some (.flush accountId (.working mutation stage rest)) ∧
      SameMutation old mutation ∧ old.data.accountId = accountId ∧
      (status = .succeeded ∧ stage = .executed ∨ status = .failed ∧ stage ≠ .executed) := by
  obtain ⟨q, reached, allowed⟩ := allows_of_call run step
  rcases allows_update allowed with
    ⟨_, _, _, _, _, mark⟩ | ⟨accountId, mutation, stage, rest, rfl, sameId, record⟩
  · exact absurd mark notMark
  · have holds : Holds older pid accountId mutation := ⟨_, reached, List.mem_cons_self ..⟩
    obtain ⟨account, -, version⟩ := exclusive.known holds
    have same := version old member sameId
    exact ⟨accountId, mutation, stage, rest, reached, same, same.2.1.trans account, record⟩

theorem Exclusive.only_holder {trace : List (Transition (cacheSystem lib services))}
    {c : Config (cacheSystem lib services)} (exclusive : Exclusive trace c) {pid pid' : Nat}
    {accountId accountId' : Int} {mutation mutation' : Row PendingMutation}
    (holds : Holds trace pid accountId mutation) (holds' : Holds trace pid' accountId' mutation')
    (same : mutation.id = mutation'.id) : pid = pid' := by
  have account := exclusive.owner holds holds' same
  subst account
  exact exclusive.alone holds.active holds'.active

section Invariant
variable {world : World} {older : List (Transition (cacheSystem lib services))}
  {c c' : Config (cacheSystem lib services)} {event : Event (cacheSystem lib services)}

theorem workingOn_origin (run : Run (idle _ world) older c) (step : Step c event c') {pid : Nat}
    {mutation : Row PendingMutation}
    (working : workingOn (⟨c, event, c'⟩ :: older) pid = some mutation) :
    (workingOn older pid = some mutation ∧ ∀ task id status attempts nextAttemptAt fault,
      event ≠ .call pid task (.updatePendingMutation id status attempts nextAttemptAt) fault) ∨
    ∃ task attempts nextAttemptAt fault row, event =
        .call pid task (.updatePendingMutation mutation.id .inFlight attempts nextAttemptAt) fault ∧
      ((cacheHandler lib).answer fault
        (.updatePendingMutation mutation.id .inFlight attempts nextAttemptAt) c.state).1 = .ok row := by
  obtain ⟨accountId, stage, rest, reached⟩ := workingOn_eq_some.mp working
  rcases progressOf_cases run step reached with
    ⟨other, before⟩ | ⟨task, rfl, start⟩ | ⟨task, op, fault, q, rfl, before, allowed, next⟩
  · refine Or.inl ⟨workingOn_eq_some.mpr ⟨accountId, stage, rest, before⟩, ?_⟩
    rintro task id status attempts nextAttemptAt fault rfl
    exact other rfl
  · cases task <;> cases start
  · cases q with
    | other => cases next
    | flush accountId' state =>
        simp only [Progress.next, Progress.flush.injEq] at next
        obtain ⟨rfl, next⟩ := next
        rcases next_eq_working _ allowed next.symm with
          ⟨stage', rfl, noUpdate⟩ | ⟨row, rfl, -, rfl, answered⟩
        · refine Or.inl ⟨workingOn_eq_some.mpr ⟨accountId, stage', rest, before⟩, ?_⟩
          rintro task id status attempts nextAttemptAt fault eq
          cases eq
          exact noUpdate _ _ _ _ rfl
        · exact Or.inr ⟨task, _, _, fault, row, rfl, eq_of_heq answered⟩

theorem Exclusive.nodup_step (run : Run (idle _ world) older c) (step : Step c event c')
    (exclusive : Exclusive older c) {pid : Nat} {accountId : Int} {state : FlushState}
    (reached : progressOf (⟨c, event, c'⟩ :: older) pid = some (.flush accountId state)) :
    (state.held.map (·.id)).Nodup := by
  rcases held_step run step reached with
    empty | ⟨task, fault, rfl, listed⟩ | ⟨before, reached', same | ⟨_, _, _, _, _, _, first, -⟩⟩
  · rw [empty]
    exact List.nodup_nil
  · rw [listed]
    exact Db.listDuePendingMutations_nodup ..
  · rw [same]
    exact exclusive.nodup reached'
  · have nodup := exclusive.nodup reached'
    rw [first, List.map_cons, List.nodup_cons] at nodup
    exact nodup.2

theorem Exclusive.known_step (run : Run (idle _ world) older c) (step : Step c event c')
    (exclusive : Exclusive older c) {pid : Nat} {accountId : Int} {mutation : Row PendingMutation}
    (holds : Holds (⟨c, event, c'⟩ :: older) pid accountId mutation) :
    mutation.data.accountId = accountId ∧ mutation.id < c'.state.db.pendingMutations.nextId ∧
      ∀ row ∈ c'.state.db.pendingMutations.rows, row.id = mutation.id → SameMutation row mutation := by
  have before : mutation.data.accountId = accountId ∧
      mutation.id < c.state.db.pendingMutations.nextId ∧
      ∀ row ∈ c.state.db.pendingMutations.rows, row.id = mutation.id → SameMutation row mutation := by
    rcases holds_step run step holds with held | ⟨task, fault, -, listed⟩
    · exact exclusive.known held
    · obtain ⟨member, due⟩ := Db.mem_listDuePendingMutations.mp listed
      simp only [Db.isDue, Bool.and_eq_true, beq_iff_eq] at due
      refine ⟨due.1.1, c.state.db.pendingMutations.fresh mutation member, ?_⟩
      intro row rowMember same
      rw [Table.eq_of_id rowMember member same]
      exact .refl mutation
  obtain ⟨account, bound, same⟩ := before
  refine ⟨account, lt_of_lt_of_le bound (nextId_step step), ?_⟩
  intro row member eq
  rcases row_step step member with ⟨old, oldMember, version, -⟩ | ⟨_, _, _, _, -, rfl⟩
  · exact version.symm.trans (same old oldMember (version.1.trans eq))
  · exact absurd eq (ne_of_gt bound)

theorem Exclusive.owner_step (run : Run (idle _ world) older c) (step : Step c event c')
    (exclusive : Exclusive older c) {pid pid' : Nat} {accountId accountId' : Int}
    {mutation mutation' : Row PendingMutation}
    (holds : Holds (⟨c, event, c'⟩ :: older) pid accountId mutation)
    (holds' : Holds (⟨c, event, c'⟩ :: older) pid' accountId' mutation')
    (same : mutation.id = mutation'.id) : accountId = accountId' := by
  -- a mutation just listed has a row, and the row of a mutation tells its account
  have listed : ∀ {pid accountId accountId' mutation mutation'},
      Holds older pid accountId mutation → mutation.id = mutation'.id →
      mutation' ∈ c.state.db.listDuePendingMutations c.state.now accountId' →
      accountId = accountId' := by
    intro pid accountId accountId' mutation mutation' held same due
    obtain ⟨member, due⟩ := Db.mem_listDuePendingMutations.mp due
    simp only [Db.isDue, Bool.and_eq_true, beq_iff_eq] at due
    obtain ⟨account, -, version⟩ := exclusive.known held
    have account' := (version mutation' member same.symm).2.1
    rw [← account, ← account', due.1.1]
  rcases holds_step run step holds with held | ⟨task, fault, eq, due⟩
  · rcases holds_step run step holds' with held' | ⟨task', fault', -, due'⟩
    · exact exclusive.owner held held' same
    · exact listed held same due'
  · rcases holds_step run step holds' with held' | ⟨task', fault', eq', -⟩
    · exact (listed held' same.symm due).symm
    · rw [eq] at eq'
      cases eq'
      rfl

theorem Exclusive.alone_step (run : Run (idle _ world) older c) (step : Step c event c')
    (separate : startsAlone older ⟨c, event, c'⟩ = true) (exclusive : Exclusive older c)
    {pid pid' : Nat} {accountId : Int} (active : ActiveFlush (⟨c, event, c'⟩ :: older) pid accountId)
    (active' : ActiveFlush (⟨c, event, c'⟩ :: older) pid' accountId) : pid = pid' := by
  have starts : ∀ {pid pid'}, event = .spawn pid (.flush accountId) →
      ¬ ActiveFlush older pid' accountId := by
    rintro pid pid' rfl active
    obtain ⟨op, next, running⟩ := busy_of_active run active
    obtain ⟨state, reached, -⟩ := active
    simp only [startsAlone, List.all_eq_true] at separate
    have different := separate pid' (mem_spawned reached)
    simp [running] at different
  rcases activeFlush_step run step active with before | spawned
  · rcases activeFlush_step run step active' with before' | spawned'
    · exact exclusive.alone before before'
    · exact absurd before (starts spawned')
  · rcases activeFlush_step run step active' with before' | spawned'
    · exact absurd before' (starts spawned)
    · rw [spawned] at spawned'
      cases spawned'
      rfl

theorem Exclusive.marked_step (run : Run (idle _ world) older c) (step : Step c event c')
    (exclusive : Exclusive older c) {pid : Nat} {mutation : Row PendingMutation}
    (working : workingOn (⟨c, event, c'⟩ :: older) pid = some mutation) :
    ∀ row ∈ c'.state.db.pendingMutations.rows, row.id = mutation.id → row.data.status = .inFlight := by
  intro row member same
  rcases workingOn_origin run step working with
    ⟨before, noUpdate⟩ | ⟨task, attempts, nextAttemptAt, fault, answer, rfl, answered⟩
  · obtain ⟨accountId, held⟩ := holds_of_workingOn before
    rcases row_step step member with ⟨old, oldMember, version, status⟩ | ⟨_, _, _, _, -, rfl⟩
    · rcases status with status | ⟨pid', task, attempts, nextAttemptAt, fault, rfl⟩
      · rw [← status]
        exact exclusive.marked before old oldMember (version.1.trans same)
      · -- an update of the mutation by another process would make it a second holder
        obtain ⟨q, reached, allowed⟩ := allows_of_call run step
        rcases allows_update allowed with
          ⟨_, _, _, _, _, inFlight⟩ | ⟨account, mutation', stage, rest, rfl, sameId, -⟩
        · exact inFlight
        · have held' : Holds older pid' account mutation' := ⟨_, reached, List.mem_cons_self ..⟩
          have owner := exclusive.only_holder held held' (same.symm.trans sameId)
          subst owner
          exact absurd rfl (noUpdate _ _ _ _ _ _)
    · exact absurd same (ne_of_gt (exclusive.known held).2.1)
  · cases step with
    | call fault here => exact updated_status answered member same

end Invariant

/-- Where no flush starts while another one of its account is busy, every reachable state is
exclusive. -/
theorem exclusive_of_startsAlone {world : World}
    {trace : List (Transition (cacheSystem lib services))} {c : Config (cacheSystem lib services)}
    (run : Run (idle _ world) trace c)
    (separate : Always (fun older t => startsAlone older t = true) trace) : Exclusive trace c := by
  induction run with
  | start =>
      have nothing : ∀ pid, progressOf ([] : List (Transition (cacheSystem lib services))) pid = none :=
        fun _ => rfl
      constructor <;> simp [nothing, Holds, ActiveFlush, workingOn]
  | step run step ih =>
      have exclusive := ih separate.2
      exact
        { nodup := exclusive.nodup_step run step
          known := exclusive.known_step run step
          owner := exclusive.owner_step run step
          alone := exclusive.alone_step run step separate.1
          marked := exclusive.marked_step run step }

end ImapCache.Queue
