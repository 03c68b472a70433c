import ImapCache.Proof.CountedIngests
import ImapCache.Model.Sample

/-!
# Runs that keep the reference counts right

The counts stay right as long as every message gets a row of its own, no mailbox goes with messages in
it that use objects, no object is pruned and no message is loaded for another account than its own.
-/

namespace ImapCache.CacheCommand
open Lib Prog

def Counts (lib : Libraries) (world : World) : CacheCommand → Prop
  | ingest target raw => Ingest.Refused lib world.db target raw ∨ Ingest.RowFree world.db target
  | copy _ _ _ => True
  | deleteMessage _ _ => True
  | deleteMailbox accountId mailboxName => NothingUsed world.db accountId mailboxName
  | load connection mailboxId localUid _ _ => LoadsOwn lib world connection mailboxId localUid
  | prune accountId keepLatestObjects => NothingSelected world.db accountId keepLatestObjects
  | environment _ => True

/-- Each command of the run keeps them right in the world that it finds. -/
def AllCount (lib : Libraries) (createdAt : Int → Time) (world : World) (commands : List CacheCommand) : Prop :=
  ∀ before command after, commands = before ++ command :: after →
    command.Counts lib (run lib createdAt world before)

section
variable {lib : Libraries} {createdAt : Int → Time} {world : World}

theorem environment_kept (consistent : world.db.Consistent) (right : world.db.CountsRight) (change : Environment) :
    Kept lib createdAt world (.environment change) := by
  have same : ((environment change).apply lib createdAt world).db = world.db := by
    cases change <;> rfl
  exact ⟨same ▸ consistent, same ▸ right, trivial⟩

/-- The step lemma. -/
theorem kept_of_counts (keyed : KeyedParts lib) (consistent : world.db.Consistent) (right : world.db.CountsRight)
    {command : CacheCommand} (counts : command.Counts lib world) : Kept lib createdAt world command := by
  cases command with
  | ingest target raw => exact ingest_kept keyed consistent right counts
  | copy source destination localUid => exact copy_kept consistent right source destination localUid
  | deleteMessage mailboxId localUid => exact deleteMessage_kept consistent right mailboxId localUid
  | deleteMailbox accountId mailboxName => exact deleteMailbox_kept consistent right counts
  | load connection mailboxId localUid bodySection range =>
      exact load_kept consistent right counts bodySection range
  | prune accountId keepLatestObjects => exact prune_kept consistent right counts
  | environment change => exact environment_kept consistent right change

theorem AllCount.cons {command : CacheCommand} {commands : List CacheCommand} (first : command.Counts lib world)
    (rest : AllCount lib createdAt (command.apply lib createdAt world) commands) :
    AllCount lib createdAt world (command :: commands) := by
  rintro (- | ⟨head, before⟩) next after split
  · obtain ⟨rfl, rfl⟩ := List.cons.inj split
    exact first
  · obtain ⟨rfl, same⟩ := List.cons.inj split
    exact rest before next after same

theorem AllCount.tail {command : CacheCommand} {commands : List CacheCommand}
    (counts : AllCount lib createdAt world (command :: commands)) :
    AllCount lib createdAt (command.apply lib createdAt world) commands := by
  intro before next after split
  exact counts (command :: before) next after (by rw [split, List.cons_append])

/-- The run lemma. -/
theorem run_kept (keyed : KeyedParts lib) (consistent : world.db.Consistent) (right : world.db.CountsRight)
    {commands : List CacheCommand} (counts : AllCount lib createdAt world commands) :
    (run lib createdAt world commands).db.Consistent ∧ (run lib createdAt world commands).db.CountsRight := by
  induction commands generalizing world with
  | nil => exact ⟨consistent, right⟩
  | cons command commands ih =>
      have kept : Kept lib createdAt world command :=
        kept_of_counts keyed consistent right (counts [] command commands rfl)
      exact ih kept.consistent kept.right counts.tail

end

/-- In a run whose commands all meet the condition, the counts are right after every command, and no
command gives up a blob that a current message uses. -/
theorem references_counted (lib : Libraries) (createdAt : Int → Time) (keyed : KeyedParts lib) (start : World)
    (consistent : start.db.Consistent) (right : start.db.CountsRight) (commands : List CacheCommand)
    (counts : AllCount lib createdAt start commands) :
    (∀ before after, commands = before ++ after → (run lib createdAt start before).db.CountsRight) ∧
      ∀ before command after, commands = before ++ command :: after →
        command.GivesUpSafely lib createdAt (run lib createdAt start before) := by
  have part {before after : List CacheCommand} (split : commands = before ++ after) :
      (run lib createdAt start before).db.Consistent ∧ (run lib createdAt start before).db.CountsRight := by
    refine run_kept keyed consistent right fun first command rest eq => ?_
    exact counts first command (rest ++ after) (by rw [split, eq, List.append_assoc, List.cons_append])
  refine ⟨fun before after split => (part split).2, fun before command after split => ?_⟩
  obtain ⟨consistent', right'⟩ := part split
  exact (kept_of_counts keyed consistent' right' (counts before command after split)).safe

/-! ## Runs on a small deployment -/

/-- Where a message of INBOX goes that has no upstream UID yet. -/
def inboxTarget (localUid : Int) : Ingest.Target where
  accountId := 1
  mailboxId := 1
  mailboxName := "INBOX"
  localUid := localUid
  upstreamUid := none
  internalDate := none
  flags := []
  indexed := false

/-- An account with an INBOX and an archive, both empty. -/
def emptyInbox : World :=
  Sample.world (Sample.db [Sample.mailbox "INBOX" (some 7), Sample.mailbox "Archive" (some 7)] [])
    (Sample.emptyServer (some 7))

def rawKey : String := contentAddressedKey Sample.libraries .rfc822 Sample.hiMessage

theorem sample_keyed : KeyedParts Sample.libraries := by
  intro raw parsed parses part member
  have parts : parsed.mimeParts = (Sample.parsedText raw "hi").mimeParts := by
    change Sample.parseMessage raw = .ok parsed at parses
    unfold Sample.parseMessage at parses
    split at parses
    · cases parses
      rfl
    · split at parses
      · cases parses
        rfl
      · cases parses
  rw [parts] at member
  obtain rfl := List.mem_singleton.mp member
  rfl

theorem emptyInbox_consistent : emptyInbox.db.Consistent := by
  refine ⟨?_, ?_, ?_, ?_, ?_, ?_, ?_⟩ <;> decide +kernel

theorem emptyInbox_right : emptyInbox.db.CountsRight := fun _ _ => rfl

/-- A message is ingested, copied and deleted. -/
theorem references_counted_of_copied :
    let commands := [.ingest (inboxTarget 1) Sample.hiMessage, .copy 1 2 1, .deleteMessage 1 1, .prune 1 8]
    (∀ before after, commands = before ++ after →
        (run Sample.libraries (fun _ => 0) emptyInbox before).db.CountsRight) ∧
      ∀ before command after, commands = before ++ command :: after →
        command.GivesUpSafely Sample.libraries (fun _ => 0) (run Sample.libraries (fun _ => 0) emptyInbox before) := by
  intro commands
  refine references_counted Sample.libraries (fun _ => 0) sample_keyed emptyInbox emptyInbox_consistent
    emptyInbox_right commands ?_
  refine .cons (.inr ⟨by decide +kernel, 1, by decide +kernel, ?_, ?_, ?_⟩) (.cons trivial (.cons trivial (.cons ?_ ?_)))
  · decide +kernel
  · intro upstream own
    cases own
  · intro upstream own
    cases own
  · change List.length _ ≤ 8
    decide +kernel
  · intro before command after split
    simp at split

def ingestedTwice : Db :=
  (run Sample.libraries (fun _ => 0) emptyInbox
    [.ingest (inboxTarget 1) Sample.hiMessage, .ingest (inboxTarget 1) Sample.hiMessage]).db

def ingestedAndPruned : World :=
  run Sample.libraries (fun _ => 0) emptyInbox [.ingest (inboxTarget 1) Sample.hiMessage, .prune 1 0]

/-- A message that is ingested twice under its UID is counted twice, and a prune gives up the objects of
a message that is still there. -/
theorem references_miscounted :
    ¬ ingestedTwice.CountsRight ∧
    ingestedTwice.countedReferences 1 rawKey = 2 ∧ ingestedTwice.liveReferences 1 rawKey = 1 ∧
    ingestedAndPruned.db.liveReferences 1 rawKey = 1 ∧ ingestedAndPruned.blob rawKey = none := by
  refine ⟨fun right => ?_, by decide +kernel, by decide +kernel, by decide +kernel, by decide +kernel⟩
  have counted := right 1 rawKey
  revert counted
  decide +kernel

end ImapCache.CacheCommand
