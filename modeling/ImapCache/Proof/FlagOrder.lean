import ImapCache.Model.Sample
import ImapCache.Proof.ExclusiveFlush
import ImapCache.Proof.UpstreamServer

/-!
# Changes of flags take effect in their order

A flush takes the due mutations in the order of their creation and stops at the first that fails.
But one that has failed is not due again until its backoff is over, and a flush before that goes on
to the next change of the same flags. The failed one is then applied after it.
-/

namespace ImapCache.Queue
open Lib Prog System

variable {lib : Libraries} {services : Services}

/-- The flags that a mutation changes: the account, the mailbox and the UID it names. -/
def flagTarget (mutation : PendingMutation) : Option (Int × Int × Nat) :=
  if mutation.mutationType = .storeFlags then
    ((mutation.payloadJson.get "local_uid").bind Json.asU64).map fun uid =>
      (mutation.accountId, mutation.mailboxId, uid)
  else none

def sameFlags (a b : Row PendingMutation) : Bool :=
  (flagTarget a.data).isSome && flagTarget a.data == flagTarget b.data

/-- The change of flags whose STORE the server executes in a transition. -/
def applied (older : List (Transition (cacheSystem lib services)))
    (t : Transition (cacheSystem lib services)) : Option (Row PendingMutation) :=
  match t.event with
  | .call pid _ (.uidStoreFlags connection _ _) fault =>
      if fault.reaches &&
          (t.before.state.upstream.selected (t.before.state.sessions connection)).isOk then
        (workingOn older pid).filter fun mutation => (flagTarget mutation.data).isSome
      else none
  | _ => none

def applications : List (Transition (cacheSystem lib services)) → List (Row PendingMutation)
  | [] => []
  | t :: older => (applied older t).toList ++ applications older

/-- The mutations that were added to the queue, the most recent first. -/
def enqueued : List (Transition (cacheSystem lib services)) → List (Row PendingMutation)
  | [] => []
  | t :: older =>
      match t.event with
      | .call _ _ (.enqueueMutation _) _ =>
          t.after.state.db.pendingMutations.rows.drop t.before.state.db.pendingMutations.rows.length ++
            enqueued older
      | _ => enqueued older

/-- The most recent application of a change of some flags, and what has happened since. -/
def lastApplied (target : Int × Int × Nat) : List (Transition (cacheSystem lib services)) →
    Option (List (Transition (cacheSystem lib services)) × Transition (cacheSystem lib services) ×
      Row PendingMutation)
  | [] => none
  | t :: older =>
      match (applied older t).filter fun mutation => flagTarget mutation.data == some target with
      | some mutation => some ([], t, mutation)
      | none => (lastApplied target older).map fun found => (t :: found.1, found.2)

def waiting (mutation : PendingMutation) : Bool :=
  mutation.status == .pending || mutation.status == .failed

/-- When a flush lists the due mutations, a change of flags that is due does not pass an earlier
change of the same flags that waits for its next attempt. -/
def listsInTurn (t : Transition (cacheSystem lib services)) : Bool :=
  match t.event with
  | .call _ _ (.listDuePendingMutations accountId) _ =>
      let db := t.before.state.db
      db.pendingMutations.rows.all fun earlier => db.pendingMutations.rows.all fun later =>
        !(sameFlags earlier later && decide (earlier.id < later.id) && waiting earlier.data &&
            Db.isDue t.before.state.now accountId later) ||
          Db.isDue t.before.state.now accountId earlier
  | _ => true

/-! ## The same flags -/

theorem SameMutation.flagTarget {a b : Row PendingMutation} (same : SameMutation a b) :
    Queue.flagTarget a.data = Queue.flagTarget b.data := by
  obtain ⟨-, account, mailbox, kind, payload, -⟩ := same
  simp only [Queue.flagTarget, account, mailbox, kind, payload]

theorem sameFlags_iff {a b : Row PendingMutation} :
    sameFlags a b = true ↔ ∃ target, flagTarget a.data = some target ∧ flagTarget b.data = some target := by
  cases ha : flagTarget a.data with
  | none => simp [sameFlags, ha]
  | some target =>
      simp only [sameFlags, ha, Option.isSome_some, Bool.true_and, beq_iff_eq, Option.some.injEq]
      constructor
      · exact fun eq => ⟨target, rfl, eq.symm⟩
      · rintro ⟨_, rfl, eq⟩
        exact eq.symm

theorem sameFlags_congr {a b a' b' : Row PendingMutation} (first : SameMutation a a')
    (second : SameMutation b b') : sameFlags a b = sameFlags a' b' := by
  simp only [sameFlags, first.flagTarget, second.flagTarget]

theorem account_of_flagTarget {mutation : PendingMutation} {target : Int × Int × Nat}
    (eq : flagTarget mutation = some target) : mutation.accountId = target.1 := by
  unfold flagTarget at eq
  split at eq
  · obtain ⟨uid, -, rfl⟩ := Option.map_eq_some_iff.mp eq
    rfl
  · cases eq

theorem kind_of_flagTarget {mutation : PendingMutation} (target : (flagTarget mutation).isSome = true) :
    mutation.mutationType = .storeFlags := by
  unfold flagTarget at target
  split at target
  · assumption
  · cases target

theorem account_of_sameFlags {a b : Row PendingMutation} (same : sameFlags a b = true) :
    a.data.accountId = b.data.accountId := by
  obtain ⟨target, ha, hb⟩ := sameFlags_iff.mp same
  rw [account_of_flagTarget ha, account_of_flagTarget hb]

theorem applied_cases {older : List (Transition (cacheSystem lib services))}
    {t : Transition (cacheSystem lib services)} {mutation : Row PendingMutation}
    (eq : applied older t = some mutation) :
    (flagTarget mutation.data).isSome = true ∧ ∃ pid task connection uid flags fault,
      t.event = .call pid task (.uidStoreFlags connection uid flags) fault ∧ fault.reaches = true ∧
      (∃ selection, t.before.state.upstream.selected (t.before.state.sessions connection) = .ok selection) ∧
      workingOn older pid = some mutation := by
  unfold applied at eq
  split at eq
  · rename_i pid task connection uid flags fault event
    split at eq
    · rename_i executed
      simp only [Bool.and_eq_true] at executed
      obtain ⟨working, target⟩ := Option.filter_eq_some_iff.mp eq
      refine ⟨target, pid, task, connection, uid, flags, fault, event, executed.1, ?_, working⟩
      cases outcome : t.before.state.upstream.selected (t.before.state.sessions connection) with
      | ok selection => exact ⟨selection, rfl⟩
      | error failure => simp [outcome, Except.isOk, Except.toBool] at executed
    · cases eq
  · cases eq

/-! ## The order of the queue and of the lists -/

/-- The rows are in the order of their creation, and none is from the future. -/
structure Chronological (world : World) : Prop where
  order : world.db.pendingMutations.rows.Pairwise fun a b =>
    a.id < b.id ∧ a.data.createdAt ≤ b.data.createdAt
  past : ∀ row ∈ world.db.pendingMutations.rows, row.data.createdAt ≤ world.now

theorem Chronological.listed {world : World} (chronological : Chronological world) (accountId : Int) :
    world.db.listDuePendingMutations world.now accountId =
      world.db.pendingMutations.rows.filter (Db.isDue world.now accountId) := by
  apply List.Pairwise.insertionSort_eq
  exact (chronological.order.sublist List.filter_sublist).imp fun ordered => ordered.2

theorem now_step {c c' : Config (cacheSystem lib services)} {event : Event (cacheSystem lib services)}
    (step : Step c event c') : c.state.now ≤ c'.state.now := by
  cases step with
  | @call pid task op next fault here =>
      have same := World.answer_frame lib fault op c.state .now (by cases op <;> simp [Op.writes])
      exact same.ge
  | disturb change =>
      cases change with
      | tick elapsed => exact Nat.le_add_right _ _
      | _ => exact le_rfl
  | _ => exact le_rfl

theorem Chronological.step {c c' : Config (cacheSystem lib services)}
    {event : Event (cacheSystem lib services)} (step : Step c event c')
    (chronological : Chronological c.state) : Chronological c'.state := by
  constructor
  · cases step with
    | @call pid task op next fault here =>
        cases queueEffect lib fault op c.state with
        | same rows =>
            change List.Pairwise _ ((cacheHandler lib).answer fault op c.state).2.db.pendingMutations.rows
            rw [rows]
            exact chronological.order
        | @updated id status attempts nextAttemptAt reaches rows found =>
            change List.Pairwise _ ((cacheHandler lib).answer fault _ c.state).2.db.pendingMutations.rows
            rw [rows, List.pairwise_map]
            refine chronological.order.imp fun {a b} ordered => ?_
            have first := sameMutation_modified id status attempts nextAttemptAt a
            have second := sameMutation_modified id status attempts nextAttemptAt b
            rw [← first.1, ← second.1, ← first.2.2.2.2.2, ← second.2.2.2.2.2]
            exact ordered
        | @enqueued input rows =>
            change List.Pairwise _ ((cacheHandler lib).answer fault _ c.state).2.db.pendingMutations.rows
            rw [rows, List.pairwise_append]
            refine ⟨chronological.order, List.pairwise_singleton _ _, ?_⟩
            intro old member new eq
            rw [List.mem_singleton.mp eq]
            exact ⟨c.state.db.pendingMutations.fresh old member, chronological.past old member⟩
        | dropped keep rows =>
            change List.Pairwise _ ((cacheHandler lib).answer fault _ c.state).2.db.pendingMutations.rows
            rw [rows]
            exact chronological.order.sublist List.filter_sublist
    | disturb change => cases change <;> exact chronological.order
    | _ => exact chronological.order
  · intro row member
    apply le_trans _ (now_step step)
    rcases row_step step member with ⟨old, oldMember, version, -⟩ | ⟨_, _, _, _, -, rfl⟩
    · rw [← version.2.2.2.2.2]
      exact chronological.past old oldMember
    · exact le_rfl

/-- What a process has listed is in order, and nothing that waits was passed over. -/
structure InTurn (trace : List (Transition (cacheSystem lib services)))
    (c : Config (cacheSystem lib services)) : Prop where
  sorted : ∀ {pid accountId state}, progressOf trace pid = some (.flush accountId state) →
    state.held.Pairwise fun a b => a.id < b.id
  earlier : ∀ {pid accountId state later row},
    progressOf trace pid = some (.flush accountId state) → later ∈ state.held →
    row ∈ c.state.db.pendingMutations.rows → sameFlags row later = true → row.id < later.id →
    waiting row.data = true → ∃ mutation ∈ state.held, mutation.id = row.id

section Step
variable {world : World} {older : List (Transition (cacheSystem lib services))}
  {c c' : Config (cacheSystem lib services)} {event : Event (cacheSystem lib services)}

theorem InTurn.sorted_step (run : Run (idle _ world) older c) (step : Step c event c')
    (chronological : Chronological c.state) (inTurn : InTurn older c) {pid : Nat} {accountId : Int}
    {state : FlushState}
    (reached : progressOf (⟨c, event, c'⟩ :: older) pid = some (.flush accountId state)) :
    state.held.Pairwise fun a b => a.id < b.id := by
  rcases held_step run step reached with
    empty | ⟨task, fault, rfl, listed⟩ | ⟨before, reached', same | ⟨_, _, _, _, _, _, first, -⟩⟩
  · rw [empty]
    exact List.Pairwise.nil
  · rw [listed, chronological.listed]
    exact (chronological.order.sublist List.filter_sublist).imp fun ordered => ordered.1
  · rw [same]
    exact inTurn.sorted reached'
  · have sorted := inTurn.sorted reached'
    rw [first, List.pairwise_cons] at sorted
    exact sorted.2

theorem listsInTurn_due {pid : Nat} {task : Task} {accountId : Int} {fault : Fault Error}
    (turn : listsInTurn (⟨c, .call pid task (.listDuePendingMutations accountId) fault, c'⟩ :
      Transition (cacheSystem lib services)) = true) {earlier later : Row PendingMutation}
    (member : earlier ∈ c.state.db.pendingMutations.rows)
    (member' : later ∈ c.state.db.pendingMutations.rows) (same : sameFlags earlier later = true)
    (before : earlier.id < later.id) (waits : waiting earlier.data = true)
    (due : Db.isDue c.state.now accountId later = true) :
    Db.isDue c.state.now accountId earlier = true := by
  simp only [listsInTurn, List.all_eq_true] at turn
  simpa [same, before, waits, due] using turn earlier member later member'

theorem InTurn.earlier_step (run : Run (idle _ world) older c) (step : Step c event c')
    (exclusive : Exclusive older c)
    (turn : listsInTurn (⟨c, event, c'⟩ : Transition (cacheSystem lib services)) = true)
    (inTurn : InTurn older c) {pid : Nat} {accountId : Int} {state : FlushState}
    {later row : Row PendingMutation}
    (reached : progressOf (⟨c, event, c'⟩ :: older) pid = some (.flush accountId state))
    (held : later ∈ state.held) (member : row ∈ c'.state.db.pendingMutations.rows)
    (same : sameFlags row later = true) (before : row.id < later.id)
    (waits : waiting row.data = true) : ∃ mutation ∈ state.held, mutation.id = row.id := by
  rcases held_step run step reached with
    empty | ⟨task, fault, rfl, listed⟩ | ⟨state', reached', kept⟩
  · rw [empty] at held
    cases held
  · -- the list has just been made, and the condition says that it leaves nothing out
    rw [listed] at held ⊢
    obtain ⟨laterMember, due⟩ := Db.mem_listDuePendingMutations.mp held
    have rows : c'.state.db.pendingMutations = c.state.db.pendingMutations := by
      cases step with
      | call fault here => exact World.answer_frame lib fault _ c.state .pendingMutations (by simp [Op.writes])
    rw [rows] at member
    have listedToo := listsInTurn_due turn member laterMember same before waits due
    exact ⟨row, Db.mem_listDuePendingMutations.mpr ⟨member, listedToo⟩, rfl⟩
  · have laterHeld : later ∈ state'.held := by
      rcases kept with same | ⟨_, _, _, _, _, _, first, -⟩
      · rwa [same] at held
      · rw [first]
        exact List.mem_cons_of_mem _ held
    have holds : Holds older pid accountId later := ⟨state', reached', laterHeld⟩
    obtain ⟨account, bound, -⟩ := exclusive.known holds
    rcases row_step step member with ⟨old, oldMember, version, status⟩ | ⟨_, _, _, _, -, rfl⟩
    · rcases status with status | ⟨pid', task, attempts, nextAttemptAt, fault, rfl⟩
      · have waits' : waiting old.data = true := by
          simpa only [waiting, status] using waits
        have same' : sameFlags old later = true :=
          (sameFlags_congr version (.refl later)).trans same
        obtain ⟨mutation, listed, eq⟩ :=
          inTurn.earlier reached' laterHeld oldMember same' (version.1 ▸ before) waits'
        rcases kept with keeps | ⟨done, task, attempts, nextAttemptAt, fault, answer, first, rfl, answered⟩
        · exact ⟨mutation, keeps ▸ listed, eq.trans version.1⟩
        · rw [first] at listed
          rcases List.mem_cons.mp listed with rfl | rest
          · -- the mutation just taken off the list has succeeded
            cases step with
            | call fault here =>
                have succeeded := updated_status answered member (version.1.symm.trans eq.symm)
                simp [waiting, succeeded] at waits
          · exact ⟨mutation, rest, eq.trans version.1⟩
      · -- the update is the record of a flush of the account, which is this one, and ends it
        have notMark : row.data.status ≠ .inFlight := fun mark => by simp [waiting, mark] at waits
        rw [← version.1] at step reached
        obtain ⟨accountId', mutation, stage, rest, reached'', version', account', record⟩ :=
          exclusive.record_holder run step oldMember notMark
        have sameAccount : accountId' = accountId := by
          rw [← account', ← account, version.2.1]
          exact account_of_sameFlags same
        subst sameAccount
        have holds' : Holds older pid' accountId' mutation := ⟨_, reached'', List.mem_cons_self ..⟩
        have owner := exclusive.alone holds'.active holds.active
        subst owner
        rw [progressOf_call, reached''] at reached
        rcases record with ⟨succeeded, -⟩ | ⟨failed, -⟩
        · simp [waiting, succeeded] at waits
        · rw [failed] at reached
          cases reached
          cases held
    · simp only at before
      omega

theorem inTurn_step (run : Run (idle _ world) older c) (step : Step c event c')
    (exclusive : Exclusive older c) (chronological : Chronological c.state)
    (turn : listsInTurn (⟨c, event, c'⟩ : Transition (cacheSystem lib services)) = true)
    (inTurn : InTurn older c) : InTurn (⟨c, event, c'⟩ :: older) c' where
  sorted := inTurn.sorted_step run step chronological
  earlier := inTurn.earlier_step run step exclusive turn

end Step

/-! ## Applications in order -/

/-- After a change of flags has been applied, no earlier change of the same flags waits or is on the
list of a process. -/
structure Settled (trace : List (Transition (cacheSystem lib services)))
    (c : Config (cacheSystem lib services)) (later : Row PendingMutation) : Prop where
  known : later.id < c.state.db.pendingMutations.nextId
  rows : ∀ row ∈ c.state.db.pendingMutations.rows, sameFlags row later = true →
    row.id < later.id → waiting row.data = false
  holders : ∀ {pid accountId mutation}, Holds trace pid accountId mutation →
    sameFlags mutation later = true → later.id ≤ mutation.id

section Applications
variable {world : World} {older : List (Transition (cacheSystem lib services))}
  {c c' : Config (cacheSystem lib services)} {event : Event (cacheSystem lib services)}

theorem Settled.step (run : Run (idle _ world) older c) (step : Step c event c')
    (exclusive : Exclusive older c) {later : Row PendingMutation} (settled : Settled older c later) :
    Settled (⟨c, event, c'⟩ :: older) c' later := by
  constructor
  · exact lt_of_lt_of_le settled.known (nextId_step step)
  · intro row member same before
    rcases row_step step member with ⟨old, oldMember, version, status⟩ | ⟨_, _, _, _, -, rfl⟩
    · have same' : sameFlags old later = true := (sameFlags_congr version (.refl later)).trans same
      rcases status with status | ⟨pid, task, attempts, nextAttemptAt, fault, rfl⟩
      · have quiet := settled.rows old oldMember same' (version.1 ▸ before)
        simpa only [waiting, status] using quiet
      · by_cases mark : row.data.status = .inFlight
        · simp [waiting, mark]
        · rw [← version.1] at step
          obtain ⟨accountId, mutation, stage, rest, reached, version', -, -⟩ :=
            exclusive.record_holder run step oldMember mark
          have first := settled.holders ⟨_, reached, List.mem_cons_self ..⟩
            ((sameFlags_congr version' (.refl later)).symm.trans same')
          have id := version.1
          have id' := version'.1
          omega
    · exact absurd before (not_lt_of_gt settled.known)
  · intro pid accountId mutation holds same
    rcases holds_step run step holds with held | ⟨task, fault, rfl, listed⟩
    · exact settled.holders held same
    · obtain ⟨member, due⟩ := Db.mem_listDuePendingMutations.mp listed
      by_contra before
      have quiet := settled.rows mutation member same (by omega)
      simp only [Db.isDue, Bool.and_eq_true] at due
      exact absurd due.1.2 (by simpa [waiting] using quiet)

theorem settled_applied (run : Run (idle _ world) older c) (step : Step c event c')
    (exclusive : Exclusive older c) (inTurn : InTurn older c) {later : Row PendingMutation}
    (eq : applied older ⟨c, event, c'⟩ = some later) :
    Settled (⟨c, event, c'⟩ :: older) c' later := by
  obtain ⟨-, pid, task, connection, uid, flags, fault, rfl, -, -, working⟩ := applied_cases eq
  obtain ⟨accountId, stage, rest, reached⟩ := workingOn_eq_some.mp working
  have sorted := inTurn.sorted reached
  rw [FlushState.held, List.pairwise_cons] at sorted
  have holds : Holds older pid accountId later := ⟨_, reached, List.mem_cons_self ..⟩
  have first : ∀ mutation ∈ later :: rest, later.id ≤ mutation.id := by
    intro mutation member
    rcases List.mem_cons.mp member with rfl | inRest
    · exact le_rfl
    · exact (sorted.1 mutation inRest).le
  obtain ⟨account, bound, -⟩ := exclusive.known holds
  constructor
  · exact lt_of_lt_of_le bound (nextId_step step)
  · intro row member same before
    rw [← Bool.not_eq_true]
    intro waits
    have rows : c'.state.db.pendingMutations = c.state.db.pendingMutations := by
      cases step with
      | call fault here => exact World.answer_frame lib fault _ c.state .pendingMutations (by simp [Op.writes])
    rw [rows] at member
    obtain ⟨mutation, listed, eq⟩ :=
      inTurn.earlier reached (List.mem_cons_self ..) member same before waits
    have := first mutation listed
    omega
  · intro pid' accountId' mutation holds' same
    rcases holds_step run step holds' with held | ⟨_, _, wrong, -⟩
    · have account' := (exclusive.known held).1
      have sameAccount : accountId' = accountId := by
        rw [← account', ← account]
        exact account_of_sameFlags same
      subst sameAccount
      have owner := exclusive.alone held.active holds.active
      subst owner
      obtain ⟨state, reached', member⟩ := held
      rw [reached] at reached'
      cases reached'
      exact first mutation member
    · cases wrong

/-- What a run has applied, from the most recent application back, and what that leaves to do. -/
structure AppliedInOrder (trace : List (Transition (cacheSystem lib services)))
    (c : Config (cacheSystem lib services)) : Prop where
  chronological : Chronological c.state
  inTurn : InTurn trace c
  settled : ∀ later ∈ applications trace, Settled trace c later
  ordered : (applications trace).Pairwise fun newer older =>
    sameFlags newer older = true → older.id ≤ newer.id

theorem AppliedInOrder.step (run : Run (idle _ world) older c) (step : Step c event c')
    (exclusive : Exclusive older c)
    (turn : listsInTurn (⟨c, event, c'⟩ : Transition (cacheSystem lib services)) = true)
    (before : AppliedInOrder older c) : AppliedInOrder (⟨c, event, c'⟩ :: older) c' := by
  have kept : ∀ later ∈ applications older, Settled (⟨c, event, c'⟩ :: older) c' later :=
    fun later member => (before.settled later member).step run step exclusive
  have settled : ∀ later ∈ applications (⟨c, event, c'⟩ :: older),
      Settled (⟨c, event, c'⟩ :: older) c' later := by
    intro later member
    rcases List.mem_append.mp member with new | old
    · exact settled_applied run step exclusive before.inTurn (Option.mem_toList.mp new)
    · exact kept later old
  refine ⟨before.chronological.step step,
    inTurn_step run step exclusive before.chronological turn before.inTurn, settled, ?_⟩
  apply List.pairwise_append.mpr
  refine ⟨?_, before.ordered, ?_⟩
  · cases applied older ⟨c, event, c'⟩ <;> simp
  · intro newer new old member same
    obtain ⟨-, pid, task, connection, uid, flags, fault, rfl, -, -, working⟩ :=
      applied_cases (Option.mem_toList.mp new)
    obtain ⟨accountId, held⟩ := holds_of_workingOn working
    exact (before.settled old member).holders held same

end Applications

/-! ## From the queue to the server -/

/-- Every mutation that is met was queued, and what has been carried out has been applied. -/
structure Accounted (trace : List (Transition (cacheSystem lib services)))
    (c : Config (cacheSystem lib services)) : Prop where
  known : ∀ queued ∈ enqueued trace, queued.id < c.state.db.pendingMutations.nextId ∧
    ∀ row ∈ c.state.db.pendingMutations.rows, row.id = queued.id → SameMutation row queued
  rows : ∀ row ∈ c.state.db.pendingMutations.rows, ∃ queued ∈ enqueued trace, SameMutation queued row
  holders : ∀ {pid accountId mutation}, Holds trace pid accountId mutation →
    ∃ queued ∈ enqueued trace, SameMutation queued mutation
  performed : ∀ mutation ∈ applications trace, ∃ queued ∈ enqueued trace, SameMutation queued mutation
  executed : ∀ {pid accountId mutation rest},
    progressOf trace pid = some (.flush accountId (.working mutation .executed rest)) →
    (flagTarget mutation.data).isSome = true → ∃ done ∈ applications trace, SameMutation done mutation
  succeeded : ∀ row ∈ c.state.db.pendingMutations.rows, (flagTarget row.data).isSome = true →
    row.data.status = .succeeded → ∃ done ∈ applications trace, SameMutation done row

theorem mem_enqueued_cons {t : Transition (cacheSystem lib services)}
    {older : List (Transition (cacheSystem lib services))} {row : Row PendingMutation}
    (member : row ∈ enqueued older) : row ∈ enqueued (t :: older) := by
  unfold enqueued
  split
  · exact List.mem_append_right _ member
  · exact member

theorem mem_applications_cons {t : Transition (cacheSystem lib services)}
    {older : List (Transition (cacheSystem lib services))} {row : Row PendingMutation}
    (member : row ∈ applications older) : row ∈ applications (t :: older) :=
  List.mem_append_right _ member

theorem store_of_carriesOut {mutation : PendingMutation} {op : Op}
    (carries : carriesOut mutation op = true) (target : (flagTarget mutation).isSome = true) :
    ∃ connection uid flags, op = .uidStoreFlags connection uid flags ∧
      (mutation.payloadJson.get "local_uid").bind Json.asU64 = some uid ∧
      Json.stringItems (mutation.payloadJson.get "flags") = flags := by
  have kind := kind_of_flagTarget target
  cases op with
  | uidStoreFlags connection uid flags =>
      simp only [carriesOut, kind, Bool.and_eq_true, beq_iff_eq] at carries
      exact ⟨connection, uid, flags, rfl, carries.1.2, carries.2⟩
  | append => simp [carriesOut, kind] at carries
  | uidCopyMessage => simp [carriesOut, kind] at carries
  | _ => cases carries

theorem next_eq_executed {mutation : Row PendingMutation} {stage : Stage}
    {rest : List (Row PendingMutation)} {op : Op} (answer : Except Error op.Ret)
    (next : FlushState.next (.working mutation stage rest) op answer = .working mutation .executed rest) :
    stage = .executed ∨ carriesOut mutation.data op = true ∧ ∃ value, answer = .ok value := by
  by_cases carries : carriesOut mutation.data op = true
  · cases answer with
    | ok value => exact Or.inr ⟨carries, value, rfl⟩
    | error failure =>
        rw [next_carriesOut_error carries] at next
        cases next
  · left
    cases op with
    | updatePendingMutation id status attempts nextAttemptAt =>
        cases answer <;> cases status <;> cases next
    | publishEvent event =>
        cases next
        rfl
    | _ =>
        cases answer with
        | error failure => cases next
        | ok value =>
            simp only [FlushState.next, carries] at next
            cases next
            rfl

section Accounts
variable {world : World} {older : List (Transition (cacheSystem lib services))}
  {c c' : Config (cacheSystem lib services)} {event : Event (cacheSystem lib services)}

theorem Accounted.executed_step (run : Run (idle _ world) older c) (step : Step c event c')
    (accounted : Accounted older c) {pid : Nat} {accountId : Int} {mutation : Row PendingMutation}
    {rest : List (Row PendingMutation)}
    (reached : progressOf (⟨c, event, c'⟩ :: older) pid =
      some (.flush accountId (.working mutation .executed rest)))
    (target : (flagTarget mutation.data).isSome = true) :
    ∃ done ∈ applications (⟨c, event, c'⟩ :: older), SameMutation done mutation := by
  have earlier : ∀ {stage}, progressOf older pid = some (.flush accountId (.working mutation stage rest)) →
      stage = .executed → ∃ done ∈ applications (⟨c, event, c'⟩ :: older), SameMutation done mutation := by
    rintro stage before rfl
    obtain ⟨done, member, same⟩ := accounted.executed before target
    exact ⟨done, mem_applications_cons member, same⟩
  rcases progressOf_cases run step reached with
    ⟨-, before⟩ | ⟨task, rfl, start⟩ | ⟨task, op, fault, q, rfl, before, allowed, next⟩
  · exact earlier before rfl
  · cases task <;> cases start
  · cases q with
    | other => cases next
    | flush accountId' state =>
        simp only [Progress.next, Progress.flush.injEq] at next
        obtain ⟨rfl, next⟩ := next
        rcases next_eq_working _ allowed next.symm with ⟨stage, rfl, -⟩ | ⟨_, _, wrong, _⟩
        · rcases next_eq_executed _ next.symm with executed | ⟨carries, value, answered⟩
          · exact earlier before executed
          · obtain ⟨connection, uid, flags, rfl, -, -⟩ := store_of_carriesOut carries target
            have working : workingOn older pid = some mutation :=
              workingOn_eq_some.mpr ⟨_, _, _, before⟩
            have reaches : fault.reaches = true := by
              cases fault with
              | lost failure => cases answered
              | _ => rfl
            have selected : (c.state.upstream.selected (c.state.sessions connection)).isOk = true := by
              rw [Handler.answer_ok answered, cacheHandler_exec] at answered
              simp only [World.perform, World.withUpstream, Upstream.uidStoreFlags] at answered
              split at answered
              · cases answered
              · rename_i ok
                rw [ok]
                rfl
            have new : applied older ⟨c, .call pid task (.uidStoreFlags connection uid flags) fault, c'⟩ =
                some mutation := by
              simp [applied, reaches, selected, working, target]
            exact ⟨mutation, List.mem_append_left _ (Option.mem_toList.mpr new), .refl mutation⟩
        · cases wrong

theorem Accounted.known_step (step : Step c event c') (accounted : Accounted older c)
    {queued : Row PendingMutation} (member : queued ∈ enqueued (⟨c, event, c'⟩ :: older)) :
    queued.id < c'.state.db.pendingMutations.nextId ∧
      ∀ row ∈ c'.state.db.pendingMutations.rows, row.id = queued.id → SameMutation row queued := by
  have earlier : queued ∈ enqueued older ∨ queued ∈ c'.state.db.pendingMutations.rows := by
    unfold enqueued at member
    split at member
    · exact (List.mem_append.mp member).symm.imp_right List.mem_of_mem_drop
    · exact Or.inl member
  rcases earlier with before | here
  · obtain ⟨bound, version⟩ := accounted.known queued before
    refine ⟨lt_of_lt_of_le bound (nextId_step step), fun row rowMember same => ?_⟩
    rcases row_step step rowMember with ⟨old, oldMember, version', -⟩ | ⟨_, _, _, _, -, rfl⟩
    · exact version'.symm.trans (version old oldMember (version'.1.trans same))
    · exact absurd same (ne_of_gt bound)
  · refine ⟨c'.state.db.pendingMutations.fresh queued here, fun row rowMember same => ?_⟩
    rw [Table.eq_of_id rowMember here same]
    exact .refl queued

theorem accounted_step (run : Run (idle _ world) older c) (step : Step c event c')
    (exclusive : Exclusive older c) (accounted : Accounted older c) :
    Accounted (⟨c, event, c'⟩ :: older) c' := by
  have queued : ∀ {row}, (∃ queued ∈ enqueued older, SameMutation queued row) →
      ∃ queued ∈ enqueued (⟨c, event, c'⟩ :: older), SameMutation queued row :=
    fun ⟨queued, member, same⟩ => ⟨queued, mem_enqueued_cons member, same⟩
  refine ⟨fun _ => accounted.known_step step, ?_, ?_, ?_, accounted.executed_step run step, ?_⟩
  · intro row member
    rcases row_step step member with
      ⟨old, oldMember, version, -⟩ | ⟨pid, task, input, fault, rfl, new⟩
    · obtain ⟨queued, member, same⟩ := queued (accounted.rows old oldMember)
      exact ⟨queued, member, same.trans version⟩
    · cases step with
      | call fault here =>
          cases queueEffect lib fault (.enqueueMutation input) c.state with
          | same rows => exact queued (accounted.rows row (rows ▸ member))
          | enqueued rows =>
              refine ⟨row, List.mem_append_left _ ?_, .refl row⟩
              change row ∈ List.drop _ ((cacheHandler lib).answer fault _ c.state).2.db.pendingMutations.rows
              rw [rows, List.drop_left, new]
              exact List.mem_singleton_self _
  · intro pid accountId mutation holds
    rcases holds_step run step holds with held | ⟨task, fault, -, listed⟩
    · exact queued (accounted.holders held)
    · exact queued (accounted.rows mutation (Db.mem_listDuePendingMutations.mp listed).1)
  · intro mutation member
    rcases List.mem_append.mp member with new | old
    · obtain ⟨-, pid, task, connection, uid, flags, fault, rfl, -, -, working⟩ :=
        applied_cases (Option.mem_toList.mp new)
      obtain ⟨accountId, held⟩ := holds_of_workingOn working
      exact queued (accounted.holders held)
    · exact queued (accounted.performed mutation old)
  · intro row member target status
    rcases row_step step member with
      ⟨old, oldMember, version, change⟩ | ⟨pid, task, input, fault, rfl, new⟩
    · have target' : (flagTarget old.data).isSome = true := by rw [version.flagTarget]; exact target
      have done : ∃ done ∈ applications older, SameMutation done old := by
        rcases change with same | ⟨pid, task, attempts, nextAttemptAt, fault, rfl⟩
        · exact accounted.succeeded old oldMember target' (same.trans status)
        · rw [← version.1] at step
          obtain ⟨accountId, mutation, stage, rest, reached, version', -, ⟨-, rfl⟩ | ⟨failed, -⟩⟩ :=
            exclusive.record_holder run step oldMember (by rw [status]; decide)
          · obtain ⟨done, member, same⟩ :=
              accounted.executed reached (by rw [← version'.flagTarget]; exact target')
            exact ⟨done, member, same.trans version'.symm⟩
          · rw [status] at failed
            cases failed
      obtain ⟨done, member, same⟩ := done
      exact ⟨done, mem_applications_cons member, same.trans version⟩
    · obtain ⟨q, reached, allowed⟩ := allows_of_call run step
      have pending := (allows_enqueue allowed).2
      rw [new] at status
      simp only [pending] at status
      cases status

end Accounts

/-! ## The last application -/

theorem lastApplied_spec {target : Int × Int × Nat} {trace newer : List (Transition (cacheSystem lib services))}
    {t : Transition (cacheSystem lib services)} {mutation : Row PendingMutation}
    (last : lastApplied target trace = some (newer, t, mutation)) :
    flagTarget mutation.data = some target ∧
      ∃ older, trace = newer ++ t :: older ∧ applied older t = some mutation := by
  induction trace generalizing newer with
  | nil => cases last
  | cons t' older ih =>
      unfold lastApplied at last
      split at last
      · rename_i found
        cases last
        obtain ⟨new, target'⟩ := Option.filter_eq_some_iff.mp found
        exact ⟨by simpa using target', older, rfl, new⟩
      · obtain ⟨⟨newer', found⟩, eq, same⟩ := Option.map_eq_some_iff.mp last
        cases same
        obtain ⟨target', older', rfl, new⟩ := ih eq
        exact ⟨target', older', rfl, new⟩

theorem lastApplied_newest {target : Int × Int × Nat} {trace : List (Transition (cacheSystem lib services))}
    (ordered : (applications trace).Pairwise fun newer older =>
      sameFlags newer older = true → older.id ≤ newer.id) {done : Row PendingMutation}
    (member : done ∈ applications trace) (target' : flagTarget done.data = some target) :
    ∃ newer t mutation, lastApplied target trace = some (newer, t, mutation) ∧
      mutation ∈ applications trace ∧ done.id ≤ mutation.id := by
  induction trace with
  | nil => cases member
  | cons t older ih =>
      have ordered' := List.pairwise_append.mp ordered
      unfold lastApplied
      split
      · rename_i mutation found
        obtain ⟨new, same⟩ := Option.filter_eq_some_iff.mp found
        have first : mutation ∈ (applied older t).toList := Option.mem_toList.mpr new
        refine ⟨[], t, mutation, rfl, List.mem_append_left _ first, ?_⟩
        rcases List.mem_append.mp member with here | before
        · have eq := (Option.mem_toList.mp here).symm.trans new
          cases eq
          exact le_rfl
        · exact ordered'.2.2 mutation first done before
            (sameFlags_iff.mpr ⟨target, by simpa using same, target'⟩)
      · rename_i other
        have before : done ∈ applications older := by
          rcases List.mem_append.mp member with here | before
          · rw [Option.mem_toList.mp here] at other
            simp [target'] at other
          · exact before
        obtain ⟨newer, t', mutation, last, member', le⟩ := ih ordered'.2.1 before
        exact ⟨t :: newer, t', mutation, by rw [last]; rfl, mem_applications_cons member', le⟩

def storedIn (t : Transition (cacheSystem lib services)) : Option String :=
  match t.event with
  | .call _ _ (.uidStoreFlags connection _ _) _ => t.before.state.sessions connection
  | _ => none

/-- An application stores the flags of its mutation at its UID, in the mailbox that is selected. -/
theorem applied_store {world : World} {older : List (Transition (cacheSystem lib services))}
    {c c' : Config (cacheSystem lib services)} {event : Event (cacheSystem lib services)}
    (run : Run (idle _ world) older c) (step : Step c event c') {mutation : Row PendingMutation}
    (eq : applied older ⟨c, event, c'⟩ = some mutation) {accountId mailboxId : Int} {uid : Nat}
    (target : flagTarget mutation.data = some (accountId, mailboxId, uid)) :
    ∃ pid task connection fault name,
      let flags := Json.stringItems (mutation.data.payloadJson.get "flags")
      event = .call pid task (.uidStoreFlags connection uid flags) fault ∧
      c.state.sessions connection = some name ∧
      c'.state.upstream = c.state.upstream.update name (·.storeFlags uid flags) := by
  obtain ⟨target', pid, task, connection, uid', flags, fault, rfl, reaches, ⟨selection, selected⟩, working⟩ :=
    applied_cases eq
  obtain ⟨accountId', stage, rest, reached⟩ := workingOn_eq_some.mp working
  obtain ⟨q, reached', allowed⟩ := allows_of_call run step
  rw [reached] at reached'
  cases reached'
  have kind := kind_of_flagTarget target'
  have carries : carriesOut mutation.data (.uidStoreFlags connection uid' flags) = true := by
    cases stage with
    | started =>
        rcases allowed with prep | carries | ⟨next, record⟩
        · cases prep
        · exact carries
        · cases record
    | executed =>
        rcases allowed with sub | ⟨next, record⟩
        · simp [subsequent, kind] at sub
        · cases record
    | failed => rcases allowed with clock | ⟨event, publish⟩ | ⟨next, record⟩ <;> contradiction
  obtain ⟨_, _, _, same, payloadUid, payloadFlags⟩ := store_of_carriesOut carries target'
  cases same
  have sameUid : uid' = uid := by
    simp only [flagTarget, kind, if_true, payloadUid, Option.map_some, Option.some.injEq,
      Prod.mk.injEq] at target
    exact target.2.2
  subst sameUid
  subst payloadFlags
  obtain ⟨name, mailbox⟩ := selection
  refine ⟨pid, task, connection, fault, name, rfl, (Upstream.selected_ok selected).1, ?_⟩
  cases step with
  | call fault here => exact Upstream.answer_uidStoreFlags reaches selected

theorem appliedInOrder_of_run {world : World} {trace : List (Transition (cacheSystem lib services))}
    {c : Config (cacheSystem lib services)} (run : Run (idle _ world) trace c)
    (empty : world.db.pendingMutations.rows = [])
    (separate : Always (fun older t => startsAlone older t = true) trace)
    (turn : Always (fun _ t => listsInTurn t = true) trace) :
    AppliedInOrder trace c ∧ Accounted trace c := by
  induction run with
  | start =>
      have nothing : ∀ pid, progressOf ([] : List (Transition (cacheSystem lib services))) pid = none :=
        fun _ => rfl
      refine ⟨⟨⟨?_, ?_⟩, ?_, ?_, List.Pairwise.nil⟩, ?_⟩
      · simp [idle, empty]
      · simp [idle, empty]
      · constructor <;> simp [nothing]
      · simp [applications]
      · constructor <;> simp [nothing, Holds, enqueued, applications, idle, empty]
  | @step older c event c' run step ih =>
      have exclusive := exclusive_of_startsAlone run separate.2
      obtain ⟨before, accounted⟩ := ih separate.2 turn.2
      exact ⟨before.step run step exclusive turn.1, accounted_step run step exclusive accounted⟩

/-- From an empty queue on, where flushes of an account do not overlap and no change of flags passes
an earlier one that waits for its next attempt, changes of the same flags are applied in the order in
which they were queued. Once the last of them has succeeded, it is the last that was applied, and
its flags stay until something else changes them. -/
theorem flags_applied_in_order {world : World} {trace : List (Transition (cacheSystem lib services))}
    {c : Config (cacheSystem lib services)} (run : Run (idle _ world) trace c)
    (empty : world.db.pendingMutations.rows = [])
    (separate : Always (fun older t => startsAlone older t = true) trace)
    (turn : Always (fun _ t => listsInTurn t = true) trace) :
    (applications trace).Pairwise (fun newer older =>
      sameFlags newer older = true → older.id ≤ newer.id) ∧
    ∀ last ∈ enqueued trace, ∀ accountId mailboxId uid,
      flagTarget last.data = some (accountId, mailboxId, uid) →
      (∀ mutation ∈ enqueued trace, sameFlags mutation last = true → mutation.id ≤ last.id) →
      (∃ row ∈ c.state.db.pendingMutations.rows, row.id = last.id ∧ row.data.status = .succeeded) →
      ∃ newer t mutation name,
        lastApplied (accountId, mailboxId, uid) trace = some (newer, t, mutation) ∧
        mutation.id = last.id ∧ storedIn t = some name ∧
        ((∀ t' ∈ newer, t'.after.state.upstream.flagsOf name uid =
            t'.before.state.upstream.flagsOf name uid) →
          ∀ flags, c.state.upstream.flagsOf name uid = some flags →
            flags = Json.stringItems (last.data.payloadJson.get "flags")) := by
  obtain ⟨inOrder, accounted⟩ := appliedInOrder_of_run run empty separate turn
  refine ⟨inOrder.ordered, ?_⟩
  rintro last queued accountId mailboxId uid target newest ⟨row, member, sameId, status⟩
  have version := (accounted.known last queued).2 row member sameId
  obtain ⟨done, doneMember, doneVersion⟩ := accounted.succeeded row member
    (by rw [version.flagTarget, target]; rfl) status
  have doneTarget : flagTarget done.data = some (accountId, mailboxId, uid) :=
    (doneVersion.trans version).flagTarget.trans target
  obtain ⟨newer, t, mutation, found, mutationMember, le⟩ :=
    lastApplied_newest inOrder.ordered doneMember doneTarget
  obtain ⟨mutationTarget, older, rfl, new⟩ := lastApplied_spec found
  -- the mutation applied last was queued no later than `last`, and so it is the same one
  obtain ⟨source, sourceMember, sourceVersion⟩ := accounted.performed mutation mutationMember
  have ge : source.id ≤ last.id := by
    apply newest source sourceMember
    exact sameFlags_iff.mpr ⟨_, sourceVersion.flagTarget.trans mutationTarget, target⟩
  have id : mutation.id = last.id := by
    have ids := sourceVersion.1
    have ids' := doneVersion.1
    omega
  have same : SameMutation mutation last := by
    have rowVersion := (accounted.known source sourceMember).2 row member
      (by rw [sameId, sourceVersion.1, id])
    exact (rowVersion.trans sourceVersion).symm.trans version
  obtain ⟨before, step⟩ := run.split
  obtain ⟨pid, task, connection, fault, name, event, session, stored⟩ :=
    applied_store before step new mutationTarget
  refine ⟨newer, t, mutation, name, found, id, by rw [storedIn, event]; exact session, ?_⟩
  intro untouched flags now
  have kept := run.unchanged (fun c => c.state.upstream.flagsOf name uid) untouched
  rw [kept, stored, Upstream.flagsOf_storeFlags, if_pos ⟨sameMailboxName_refl name, rfl⟩] at now
  obtain ⟨_, -, rfl⟩ := Option.map_eq_some_iff.mp now
  rw [same.2.2.2.2.1]

/-! ## Two changes of the flags of one message -/

theorem inbox_distinct :
    ([Sample.withMessages (Sample.upstreamMailbox "INBOX" (some 7)) [Sample.hiMessage]].map
      (·.name)).Pairwise fun a b => sameMailboxName a b = false :=
  List.pairwise_singleton _ _

/-- INBOX with one message, selected on every connection. -/
def selectedInbox : Config (cacheSystem Sample.libraries ⟨true, false⟩) :=
  idle _ { Sample.world (Sample.db [Sample.mailbox "INBOX" (some 7)] [Sample.row 1 1 (some 1) []])
      { mailboxes := [Sample.withMessages (Sample.upstreamMailbox "INBOX" (some 7)) [Sample.hiMessage]]
        uidplus := true, distinct := inbox_distinct } with
    sessions := fun _ => some "INBOX" }

/-- The message is marked as seen, and a moment later as unseen again. -/
def queuedFlags : List (Label (cacheSystem Sample.libraries ⟨true, false⟩)) :=
  [.spawn 0 (.queueFlagUpdate 1 1 none 1 ["\\Seen"]), .step 0 .none, .step 0 .none, .finish 0,
    .disturb (.tick 1),
    .spawn 1 (.queueFlagUpdate 1 1 none 1 []), .step 1 .none, .step 1 .none, .finish 1]

def flushedFlags : List (Label (cacheSystem Sample.libraries ⟨true, false⟩)) :=
  queuedFlags ++ Label.spawn 2 (Task.flush 1) :: List.replicate 11 (Label.step 2 .none) ++ [Label.finish 2]

/-- The first STORE is lost. A second flush finds only the second mutation due, and a third one,
after the backoff, the first. -/
def overtakenFlags : List (Label (cacheSystem Sample.libraries ⟨true, false⟩)) :=
  queuedFlags ++ Label.spawn 2 (Task.flush 1) :: List.replicate 3 (Label.step 2 .none) ++
    Label.step 2 (.lost (Error.io "connection reset")) :: List.replicate 3 (Label.step 2 .none) ++
    Label.finish 2 :: Label.spawn 3 (Task.flush 1) :: List.replicate 6 (Label.step 3 .none) ++
    Label.finish 3 :: Label.disturb (Environment.tick 2) :: Label.spawn 4 (Task.flush 1) ::
      List.replicate 6 (Label.step 4 .none) ++
    [Label.finish 4]

theorem flags_applied_in_order_flushedFlags :
    ∃ trace c, Run selectedInbox trace c ∧ (applications trace).map (·.id) = [2, 1] ∧
      (applications trace).Pairwise (fun newer older =>
        sameFlags newer older = true → older.id ≤ newer.id) ∧
      ∃ newer t mutation name, lastApplied (1, 1, 1) trace = some (newer, t, mutation) ∧
        mutation.id = 2 ∧ storedIn t = some name := by
  have evaluated : (schedule [] selectedInbox flushedFlags).map (fun run => decide (
      (applications run.1).map (·.id) = [2, 1] ∧
      (enqueued run.1).map (fun row => (row.id, flagTarget row.data)) =
        [(2, some (1, 1, 1)), (1, some (1, 1, 1))] ∧
      run.2.state.db.pendingMutations.rows.map (fun row => (row.id, row.data.status)) =
        [(1, .succeeded), (2, .succeeded)] ∧
      Always (fun older t => startsAlone older t = true) run.1 ∧
      Always (fun _ t => listsInTurn t = true) run.1)) = some true := by
    decide +kernel
  obtain ⟨⟨trace, c⟩, followed, result⟩ := Option.map_eq_some_iff.mp evaluated
  rw [decide_eq_true_eq] at result
  obtain ⟨ids, queue, rows, separate, turn⟩ := result
  have run := schedule_run .start followed
  obtain ⟨ordered, final⟩ := flags_applied_in_order run rfl separate turn
  obtain ⟨last, queued, key⟩ : ∃ last ∈ enqueued trace,
      (last.id, flagTarget last.data) = (2, some (1, 1, 1)) := by
    have here : (2, some (1, 1, 1)) ∈ (enqueued trace).map fun row => (row.id, flagTarget row.data) := by
      rw [queue]
      exact List.mem_cons_self ..
    simpa using here
  simp only [Prod.mk.injEq] at key
  have newest : ∀ mutation ∈ enqueued trace, sameFlags mutation last = true → mutation.id ≤ last.id := by
    intro mutation member _
    have here := List.mem_map_of_mem (f := fun row => (row.id, flagTarget row.data)) member
    rw [queue] at here
    simp only [List.mem_cons, Prod.mk.injEq, List.not_mem_nil, or_false] at here
    omega
  have succeeded : ∃ row ∈ c.state.db.pendingMutations.rows, row.id = last.id ∧
      row.data.status = .succeeded := by
    have here : ((2, .succeeded) : Int × MutationStatus) ∈
        c.state.db.pendingMutations.rows.map fun row => (row.id, row.data.status) := by
      rw [rows]
      exact List.mem_cons_of_mem _ (List.mem_singleton_self _)
    simpa [key.1] using here
  obtain ⟨newer, t, mutation, name, found, id, session, -⟩ :=
    final last queued 1 1 1 key.2 newest succeeded
  exact ⟨trace, c, run, ids, ordered, newer, t, mutation, name, found, id.trans key.1, session⟩

/-- The mutation queued first is applied last, and its flags remain. -/
theorem flags_overtaken :
    ∃ trace c, Run selectedInbox trace c ∧
      (enqueued trace).map (fun row =>
        (row.id, flagTarget row.data, Json.stringItems (row.data.payloadJson.get "flags"))) =
          [(2, some (1, 1, 1), []), (1, some (1, 1, 1), ["\\Seen"])] ∧
      (applications trace).map (·.id) = [1, 2] ∧
      (c.state.db.pendingMutations.rows.map fun row => (row.id, row.data.status)) =
        [(1, .succeeded), (2, .succeeded)] ∧
      c.state.upstream.flagsOf "INBOX" 1 = some ["\\Seen"] := by
  have evaluated : (schedule [] selectedInbox overtakenFlags).map (fun run => decide (
      (enqueued run.1).map (fun row =>
        (row.id, flagTarget row.data, Json.stringItems (row.data.payloadJson.get "flags"))) =
          [(2, some (1, 1, 1), []), (1, some (1, 1, 1), ["\\Seen"])] ∧
      (applications run.1).map (·.id) = [1, 2] ∧
      run.2.state.db.pendingMutations.rows.map (fun row => (row.id, row.data.status)) =
        [(1, .succeeded), (2, .succeeded)] ∧
      run.2.state.upstream.flagsOf "INBOX" 1 = some ["\\Seen"])) = some true := by
    decide +kernel
  obtain ⟨⟨trace, c⟩, followed, result⟩ := Option.map_eq_some_iff.mp evaluated
  rw [decide_eq_true_eq] at result
  exact ⟨trace, c, schedule_run .start followed, result⟩

end ImapCache.Queue
