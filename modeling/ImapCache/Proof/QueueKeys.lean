import ImapCache.Model.Sample
import ImapCache.Proof.QueueProtocol

/-!
# The keys of the queue

A mutation is queued under the digest of its account, mailbox, type and payload, and the column of
the keys is unique. Nothing in the key tells two changes apart that ask for the same thing at
different times, and a mutation that has been applied keeps its row.
-/

namespace ImapCache.Queue
open Lib Prog System

variable {lib : Libraries} {services : Services}

def mutationText (lib : Libraries) (mutation : PendingMutation) : Bytes :=
  Mutations.toBeBytes mutation.accountId ++ Mutations.toBeBytes mutation.mailboxId ++
    Mutations.utf8 mutation.mutationType.text ++
    Mutations.utf8 (lib.jsonToString mutation.payloadJson)

/-- The key of every queued mutation is that of its contents. -/
def Keyed (lib : Libraries) (rows : List (Row PendingMutation)) : Prop :=
  ∀ row ∈ rows, row.data.idempotencyKey = lib.sha256 (mutationText lib row.data)

/-- Whatever is added to the queue has the key of its contents. -/
def AddsKeyed (lib : Libraries) : Op → Prop
  | .enqueueMutation input => input.idempotencyKey = lib.sha256 (mutationText lib input)
  | _ => True

/-! ## Every task adds mutations under their keys -/

theorem addsKeyed_of_auxiliary (op : Op) (auxiliary : op.auxiliary = true) : AddsKeyed lib op := by
  cases op <;> trivial

theorem newPendingMutation_keyed (accountId mailboxId : Int) (messageId : Option Int)
    (mutationType : MutationType) (payload : Json) :
    AddsKeyed lib (.enqueueMutation
      (Mutations.newPendingMutation lib accountId mailboxId messageId mutationType payload)) :=
  rfl

theorem task_addsKeyed (pid : Nat) (task : Task) :
    (task.code lib services pid).Uses (AddsKeyed lib) := by
  cases task with
  | command tag session request =>
      have use : CommandUse lib session (AddsKeyed lib) :=
        { auxiliary := addsKeyed_of_auxiliary
          enqueue := newPendingMutation_keyed
          insert := fun _ => trivial
          mapping := fun _ _ _ _ => trivial
          copy := fun _ _ _ => trivial
          update := fun _ _ _ _ => trivial
          delete := fun _ _ _ => trivial }
      refine Uses.bind ?_ fun _ => trivial
      exact command_uses use (fun _ _ => trivial) (fun _ _ _ => trivial) request
  | queueFlagUpdate accountId mailboxId messageId localUid flags =>
      refine Uses.bind ?_ fun _ => trivial
      exact Repository.enqueueMutation_uses
        (fun op bookkeeping => addsKeyed_of_auxiliary op (Op.auxiliary_of_bookkeeping bookkeeping))
        (newPendingMutation_keyed ..)
  | flush accountId =>
      refine Uses.bind ((Mutations.flushPendingMutations_uses ..).mono ?_) fun _ => trivial
      intro op flushing
      cases op <;> trivial
  | syncAccount accountId =>
      refine Uses.bind ((Sync.syncAccount_uses ..).mono ?_) fun _ => trivial
      intro op syncing
      cases op <;> trivial
  | syncMailbox accountId mailboxName =>
      refine Uses.bind ((Sync.syncMailbox_uses ..).mono ?_) fun _ => trivial
      intro op syncing
      cases op <;> trivial

/-! ## The keys along a run -/

theorem keyed_call {op : Op} {world : World} (adds : AddsKeyed lib op) (fault : Fault Error)
    (keyed : Keyed lib world.db.pendingMutations.rows) :
    Keyed lib ((cacheHandler lib).answer fault op world).2.db.pendingMutations.rows := by
  cases queueEffect lib fault op world with
  | same rows _ => exact rows ▸ keyed
  | @updated id status attempts nextAttemptAt reaches rows found =>
      rw [rows]
      intro row member
      obtain ⟨old, oldMember, rfl⟩ := List.mem_map.mp member
      have key := keyed old oldMember
      unfold Table.modified
      split
      · exact key
      · exact key
  | @enqueued input rows =>
      rw [rows]
      intro row member
      rcases List.mem_append.mp member with old | new
      · exact keyed row old
      · rw [List.mem_singleton.mp new]
        exact adds
  | dropped keep rows =>
      rw [rows]
      exact fun row member => keyed row (List.mem_of_mem_filter member)

theorem keyed_run {world : World} {trace : List (Transition (cacheSystem lib services))}
    {c : Config (cacheSystem lib services)} (run : Run (idle _ world) trace c)
    (keyed : Keyed lib world.db.pendingMutations.rows) :
    Keyed lib c.state.db.pendingMutations.rows := by
  induction run with
  | start => exact keyed
  | @step older c event c' run step ih =>
      cases step with
      | call fault here =>
          exact keyed_call (run.uses task_addsKeyed (.call fault here)) fault ih
      | disturb change => cases change <;> exact ih
      | _ => exact ih

/-! ## Refused mutations -/

/-- A mutation is refused as one that was queued before. -/
def refusedAsQueued (t : Transition (cacheSystem lib services)) : Bool :=
  match t.event with
  | .call _ _ (.enqueueMutation input) .none =>
      match ((cacheHandler lib).exec (.enqueueMutation input) t.before.state).1 with
      | .error failure => failure == Db.uniqueViolation "pending_mutations_idempotency_key_key"
      | .ok _ => false
  | _ => false

/-- A mutation is to be queued while the queue has one of the same account, mailbox, type and
payload, in whatever status. -/
def repeatsQueued (t : Transition (cacheSystem lib services)) : Bool :=
  match t.event with
  | .call _ _ (.enqueueMutation input) .none =>
      t.before.state.db.pendingMutations.rows.any fun row =>
        mutationText lib row.data == mutationText lib input
  | _ => false

/-- No mutation that is to be queued has the digest, without the text, of a queued one. -/
def collisionFree (t : Transition (cacheSystem lib services)) : Bool :=
  match t.event with
  | .call _ _ (.enqueueMutation input) _ =>
      t.before.state.db.pendingMutations.rows.all fun row =>
        lib.sha256 (mutationText lib row.data) != lib.sha256 (mutationText lib input) ||
          mutationText lib row.data == mutationText lib input
  | _ => true

theorem enqueueMutation_refused_iff {db : Db} {input : PendingMutation} :
    db.enqueueMutation input = .error (Db.uniqueViolation "pending_mutations_idempotency_key_key") ↔
      ∃ row ∈ db.pendingMutations.rows, row.data.idempotencyKey = input.idempotencyKey := by
  have admitted (row : Row PendingMutation) :
      pendingMutationKeys.admits row.data input = false ↔
        row.data.idempotencyKey = input.idempotencyKey := by
    rw [← not_iff_not, Bool.not_eq_false]
    exact pendingMutationKeys_admits row.data input
  have refused : db.pendingMutations.insert input = none ↔
      ∃ row ∈ db.pendingMutations.rows, row.data.idempotencyKey = input.idempotencyKey := by
    simp only [Table.insert_eq_none, admitted]
  rw [← refused]
  unfold Db.enqueueMutation
  cases inserted : db.pendingMutations.insert input with
  | none => simp
  | some written =>
      dsimp only
      split
      · simp [Db.foreignKeyViolation, Db.uniqueViolation]
      · simp

theorem refused_iff_repeats {t : Transition (cacheSystem lib services)}
    (keyed : Keyed lib t.before.state.db.pendingMutations.rows)
    (adds : ∀ pid task op fault, t.event = .call pid task op fault → AddsKeyed lib op)
    (free : collisionFree t = true) : refusedAsQueued t = repeatsQueued t := by
  obtain ⟨before, event, after⟩ := t
  cases event with
  | call pid task op fault =>
      cases op with
      | enqueueMutation input =>
          cases fault with
          | none =>
              have key : input.idempotencyKey = lib.sha256 (mutationText lib input) :=
                adds pid task _ .none rfl
              have same : ∀ row ∈ before.state.db.pendingMutations.rows,
                  row.data.idempotencyKey = input.idempotencyKey ↔
                    mutationText lib row.data = mutationText lib input := by
                intro row member
                rw [keyed row member, key]
                refine ⟨fun digest => ?_, congrArg _⟩
                have apart := List.all_eq_true.mp free row member
                simpa [digest] using apart
              have executed := @enqueueMutation_refused_iff before.state.db
                { input with createdAt := before.state.now }
              rw [Bool.eq_iff_iff]
              simp only [refusedAsQueued, repeatsQueued, cacheHandler_exec, World.perform,
                List.any_eq_true, beq_iff_eq]
              rw [← exists_congr fun row => and_congr_right (same row), ← executed]
              cases before.state.db.enqueueMutation { input with createdAt := before.state.now } with
              | ok written => simp [World.commit]
              | error failure => simp [World.commit]
          | lost failure => rfl
          | late failure => rfl
      | _ => rfl
  | _ => rfl

/-- No mutation is refused as queued before exactly if none repeats one that the queue still has. -/
theorem queueing_never_refused_iff {world : World}
    {trace : List (Transition (cacheSystem lib services))} {c : Config (cacheSystem lib services)}
    (run : Run (idle _ world) trace c) (keyed : Keyed lib world.db.pendingMutations.rows)
    (free : ∀ t ∈ trace, collisionFree t = true) :
    (∀ t ∈ trace, refusedAsQueued t = false) ↔ ∀ t ∈ trace, repeatsQueued t = false := by
  refine forall₂_congr fun t member => ?_
  obtain ⟨newer, older, rfl⟩ := List.append_of_mem member
  obtain ⟨before, step⟩ := run.split
  rw [refused_iff_repeats (keyed_run before keyed) ?_ (free t member)]
  intro pid task op fault event
  exact before.uses task_addsKeyed (event ▸ step)

def oneMessage : Config (cacheSystem Sample.libraries ⟨true, false⟩) :=
  idle _ (Sample.world (Sample.db [Sample.mailbox "INBOX" (some 7)] [Sample.row 1 1 (some 1) []])
    (Sample.emptyServer (some 7)))

def inboxSession : Commands.Session := ⟨some 1, .selectedMailbox "INBOX" false, some 1⟩

def storing (pid steps : Nat) (item : String) : List (Label (cacheSystem Sample.libraries ⟨true, false⟩)) :=
  Label.spawn pid (Task.command "a" inboxSession (.store ["1", item, "(\\Seen)"])) ::
    List.replicate steps (Label.step pid .none) ++ [Label.finish pid]

theorem queueing_never_refused_iff_storing :
    ∃ trace c, Run oneMessage trace c ∧ c.state.db.pendingMutations.rows.length = 2 ∧
      ∀ t ∈ trace, refusedAsQueued t = false := by
  have evaluated : (schedule [] oneMessage (storing 0 10 "+FLAGS" ++ storing 1 10 "-FLAGS")).map
      (fun run => run.2.state.db.pendingMutations.rows.length == 2 &&
        run.1.all fun t => collisionFree t && !repeatsQueued t) = some true := by
    decide +kernel
  obtain ⟨⟨trace, c⟩, followed, result⟩ := Option.map_eq_some_iff.mp evaluated
  simp only [Bool.and_eq_true, beq_iff_eq, List.all_eq_true, Bool.not_eq_true'] at result
  have run := schedule_run .start followed
  have empty : oneMessage.state.db.pendingMutations.rows = [] := rfl
  have keyed : Keyed Sample.libraries oneMessage.state.db.pendingMutations.rows := by
    rw [empty]
    exact fun row member => nomatch member
  refine ⟨trace, c, run, result.1, ?_⟩
  apply (queueing_never_refused_iff run keyed fun t member => (result.2 t member).1).mpr
  exact fun t member => (result.2 t member).2

/-- The message is marked as seen, as unseen and as seen again: the flags change, but the third
mutation is refused, and with it the command. -/
theorem store_refused_as_queued :
    ∃ trace c, Run oneMessage trace c ∧
      (trace.any fun t => refusedAsQueued t && match t.event with
        | .call pid (.command _ _ (.store args)) _ _ => pid == 2 && args == ["1", "+FLAGS", "(\\Seen)"]
        | _ => false) = true ∧
      (trace.any fun t => match t.event with
        | .finish pid _ (.error failure) =>
            pid == 2 && failure == Db.uniqueViolation "pending_mutations_idempotency_key_key"
        | _ => false) = true ∧
      c.state.db.mailboxMessages.rows.map (·.data.flags) = [["\\Seen"]] ∧
      c.state.db.pendingMutations.rows.length = 2 := by
  have evaluated : (schedule [] oneMessage
      (storing 0 10 "+FLAGS" ++ storing 1 10 "-FLAGS" ++ storing 2 6 "+FLAGS")).map
      (fun run => decide ((run.1.any fun t => refusedAsQueued t && match t.event with
          | .call pid (.command _ _ (.store args)) _ _ => pid == 2 && args == ["1", "+FLAGS", "(\\Seen)"]
          | _ => false) = true ∧
        (run.1.any fun t => match t.event with
          | .finish pid _ (.error failure) =>
              pid == 2 && failure == Db.uniqueViolation "pending_mutations_idempotency_key_key"
          | _ => false) = true ∧
        run.2.state.db.mailboxMessages.rows.map (·.data.flags) = [["\\Seen"]] ∧
        run.2.state.db.pendingMutations.rows.length = 2)) = some true := by
    decide +kernel
  obtain ⟨⟨trace, c⟩, followed, result⟩ := Option.map_eq_some_iff.mp evaluated
  exact ⟨trace, c, schedule_run .start followed, of_decide_eq_true result⟩

end ImapCache.Queue
