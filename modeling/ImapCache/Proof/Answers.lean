import ImapCache.Proof.Frames

/-!
# What a call returns

What the code may rely on when an operation gives it a value, whatever the state was.
-/

namespace ImapCache
open Lib

def Op.Answers : (op : Op) → op.Ret → Prop
  | .upsertMailbox input, row => row.data = input
  | .listMailboxes accountId, rows => ∀ row ∈ rows, row.data.accountId = accountId
  | .findMailbox accountId _, found => ∀ mailbox ∈ found, mailbox.data.accountId = accountId
  | .listMailboxMessages mailboxId, rows =>
      ∀ row ∈ rows, row.data.mailboxId = mailboxId ∧ row.data.isExpunged = false
  | .insertMailboxMessage input, (row, _) =>
      (∃ modseq, row.data = { input with localUid := row.data.localUid, modseq }) ∧
        (input.localUid ≠ 0 → row.data.localUid = input.localUid)
  | .copyMailboxMessage _ destination _, copied =>
      ∀ result ∈ copied, result.1.data.mailboxId = destination ∧ result.1.data.upstreamUid = none
  | .listDuePendingMutations accountId, rows =>
      (rows.map (·.id)).Nodup ∧ ∀ row ∈ rows, row.data.accountId = accountId
  | .updatePendingMutation id _ attempts _, row => row.id = id ∧ row.data.attempts = attempts
  | _, _ => True

namespace Db

theorem mem_of_findMailbox {db : Db} {accountId : Int} {name : String} {mailbox : Row Mailbox}
    (found : db.findMailbox accountId name = some mailbox) :
    mailbox ∈ db.mailboxes.rows ∧ mailbox.data.accountId = accountId := by
  have member : mailbox ∈ (db.mailboxes.rows.filter (namedMailbox accountId name)).insertionSort
      fun a b => b.id ≤ a.id := List.mem_of_mem_head? found
  rw [(List.perm_insertionSort _ _).mem_iff, List.mem_filter] at member
  refine ⟨member.1, ?_⟩
  have named := member.2
  simp only [namedMailbox, Bool.and_eq_true, beq_iff_eq] at named
  exact named.1

theorem mem_listDuePendingMutations {db : Db} {now : Time} {accountId : Int}
    {row : Row PendingMutation} : row ∈ db.listDuePendingMutations now accountId ↔
      row ∈ db.pendingMutations.rows ∧ isDue now accountId row = true := by
  simp [listDuePendingMutations]

theorem listDuePendingMutations_nodup (db : Db) (now : Time) (accountId : Int) :
    ((db.listDuePendingMutations now accountId).map (·.id)).Nodup := by
  have distinct : (db.pendingMutations.rows.map (·.id)).Nodup :=
    List.pairwise_map.mpr (db.pendingMutations.distinct.imp fun separate => separate.1)
  refine ((List.perm_insertionSort _ _).map _).nodup_iff.mpr ?_
  exact distinct.sublist (List.filter_sublist.map _)

end Db

namespace World

theorem commit_ok {α : Type} {world : World} {result : Except Error (α × Db)} {value : α}
    (h : (world.commit result).1 = .ok value) : ∃ db, result = .ok (value, db) := by
  unfold commit at h
  split at h
  · rename_i value' db
    cases h
    exact ⟨db, rfl⟩
  · cases h

theorem commit_state {α : Type} {world : World} {result : Except Error (α × Db)} {value : α}
    (ok : (world.commit result).1 = .ok value) :
    ∃ db, result = .ok (value, db) ∧ (world.commit result).2 = { world with db } := by
  obtain ⟨db, eq⟩ := commit_ok ok
  exact ⟨db, eq, by rw [eq, commit]⟩

theorem perform_answers (lib : Libraries) (world : World) (op : Op) (value : op.Ret)
    (h : (world.perform lib op).1 = .ok value) : op.Answers value := by
  cases op with
  | upsertMailbox input =>
      obtain ⟨db, ok⟩ := commit_ok h
      exact (Db.upsertMailbox_ok ok).1
  | listMailboxes accountId =>
      cases h
      intro row member
      simp only [Db.listMailboxes, List.mem_insertionSort, List.mem_filter, beq_iff_eq] at member
      exact member.2
  | findMailbox accountId mailboxName =>
      cases h
      exact fun mailbox found => (Db.mem_of_findMailbox found).2
  | listMailboxMessages mailboxId =>
      cases h
      intro row member
      exact (Db.mem_liveMessages.mp (Db.mem_listMailboxMessages.mp member)).2
  | insertMailboxMessage input =>
      obtain ⟨db, ok⟩ := commit_ok h
      obtain ⟨-, data, uid, -⟩ := Db.insertMailboxMessage_ok ok
      exact ⟨data, uid⟩
  | copyMailboxMessage source destination localUid =>
      obtain ⟨db, ok⟩ := commit_ok h
      rcases Db.copyMailboxMessage_ok ok with
        ⟨rfl, -, -⟩ | ⟨original, -, -, row, position, rfl, -, -, ⟨modseq, data⟩, -⟩
      · exact fun _ none => nomatch none
      · rintro result some
        cases some
        exact ⟨by rw [data], by rw [data]⟩
  | listDuePendingMutations accountId =>
      cases h
      refine ⟨Db.listDuePendingMutations_nodup _ _ _, fun row member => ?_⟩
      have due := (Db.mem_listDuePendingMutations.mp member).2
      simp only [Db.isDue, Bool.and_eq_true, beq_iff_eq] at due
      exact due.1.1
  | updatePendingMutation id status attempts nextAttemptAt =>
      obtain ⟨db, ok⟩ := commit_ok h
      obtain ⟨-, -, -, -, old, -, -, rfl⟩ := Db.updatePendingMutation_ok ok
      exact ⟨rfl, rfl⟩
  | _ => trivial

end World

theorem ensures_await {lib : Libraries} {allowed : Fault Error → Prop} {op : Op} {world : World}
    {ok : op.Ret → World → Prop}
    (success : ∀ value, (world.perform lib op).1 = .ok value → ok value (world.perform lib op).2) :
    (await op).Ensures (cacheHandler lib) allowed ok (fun _ _ => True) world :=
  Prog.ensures_ask success (fun _ _ => trivial) (fun _ _ => trivial) fun _ _ => trivial
end ImapCache
