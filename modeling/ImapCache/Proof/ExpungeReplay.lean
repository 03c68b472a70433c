import ImapCache.Lib.Removal
import ImapCache.Model.Sample
import ImapCache.Proof.IdleView
import ImapCache.Proof.MailboxOrder
import ImapCache.Proof.SetTexts

/-!
# What a client makes of the numbers of an EXPUNGE

The client keeps the UIDs of the selected mailbox in their order. Each untagged EXPUNGE takes the
element with its number out of that list.
-/

namespace ImapCache.ExpungeReplay
open Lib Prog Removal Commands

/-! ## The client -/

def applyExpunge (uids : List Int) (line : String) : Option (List Int) :=
  match IdleView.numbered "EXPUNGE" line with
  | some number => removeAt uids number.toNat
  | none => some uids

/-- The list after the lines of a reply; there is none if a number was out of range. -/
def replay (uids : List Int) (lines : List String) : Option (List Int) := lines.foldlM applyExpunge uids

theorem numbered_expungeLine (number : Nat) :
    IdleView.numbered "EXPUNGE" (expungeLine number) = some (number : Int) :=
  IdleView.numbered_line "EXPUNGE" number

theorem replay_expungeLines (uids : List Int) (numbers : List Nat) (rest : List String) :
    replay uids (numbers.map expungeLine ++ rest) =
      (removeAll uids numbers).bind fun uids => replay uids rest := by
  induction numbers generalizing uids with
  | nil => rfl
  | cons number numbers ih =>
      have first : applyExpunge uids (expungeLine number) = removeAt uids number := by
        rw [applyExpunge, numbered_expungeLine]
        rfl
      rw [List.map_cons, List.cons_append, removeAll_cons, Option.bind_assoc]
      change (applyExpunge uids (expungeLine number)).bind _ = _
      rw [first]
      refine Option.bind_congr fun uids' _ => ?_
      exact ih uids'

theorem replay_completion (uids : List Int) {line : String}
    (other : line.toList.getLast? ≠ some 'E') : replay uids [line] = some uids := by
  have none : IdleView.numbered "EXPUNGE" line = none :=
    IdleView.numbered_none (by simpa using other) (by simp)
  simp [replay, applyExpunge, none]

theorem ends_with {front text : String} (other : text.toList.getLast?.any (· ≠ 'E') = true) :
    (front ++ text).toList.getLast? ≠ some 'E' := by
  rw [String.toList_append]
  cases last : text.toList.getLast? with
  | none => simp [last] at other
  | some c =>
      rw [List.getLast?_append, last]
      simpa [last] using other

/-! ## The loop of the commands -/

variable {lib : Libraries} {allowed : Fault Error → Prop}

theorem numbered_ascending (messages : List (Row MailboxMessage)) :
    (numbered messages).Pairwise fun a b => a.1 < b.1 := by
  have indices : (messages.zipIdx.map (·.2)).Pairwise (· < ·) := by
    rw [List.zipIdx_map_snd]
    exact List.pairwise_lt_range'
  unfold numbered
  rw [List.pairwise_map] at indices ⊢
  exact indices.imp fun less => Nat.succ_lt_succ less

theorem numbered_filter (p : Row MailboxMessage → Bool) (messages : List (Row MailboxMessage)) :
    ((numbered messages).filter fun target => p target.2).map (·.1) = positions p messages ∧
      ((numbered messages).filter fun target => p target.2).map (·.2) = messages.filter p := by
  have filtered : ((numbered messages).filter fun target => p target.2) =
      (messages.zipIdx.filter fun entry => p entry.1).map fun entry => (entry.2 + 1, entry.1) :=
    List.filter_map
  have rows : (messages.zipIdx.filter fun entry => p entry.1).map (·.1) = messages.filter p := by
    conv_rhs => rw [← List.zipIdx_map_fst 0 messages, List.filter_map]
    rfl
  refine ⟨?_, ?_⟩
  · rw [filtered, List.map_map]
    rfl
  · rw [filtered, List.map_map, ← rows]
    rfl

/-- What is listed after some of the targets were deleted. -/
def Deleting (world : World) (mailboxId : Int) (targets : List (Nat × Row MailboxMessage))
    (lines : List String) (world' : World) : Prop :=
  lines = targets.map (fun target => expungeLine target.1) ∧
    ∀ id, world'.db.listMailboxMessages id = (world.db.listMailboxMessages id).filter
      fun row => targets.all fun target => !Db.isLiveAt mailboxId target.2.data.localUid row

theorem expungeTargets_deleting (mailboxId : Int) (targets : List (Nat × Row MailboxMessage))
    (ascending : targets.Pairwise fun a b => a.1 < b.1) (world : World) :
    (expungeTargets mailboxId targets).Ensures (cacheHandler lib) allowed
      (Deleting world mailboxId targets.reverse) (fun _ _ => True) world := by
  have sorted : (targets.insertionSort fun a b => a.1 ≤ b.1) = targets :=
    List.Pairwise.insertionSort_eq (ascending.imp fun less => Nat.le_of_lt less)
  unfold expungeTargets
  rw [sorted]
  refine ensures_foldlM (fun done _ => Deleting world mailboxId done) ?_ ?_
  · exact ⟨rfl, fun id => (List.filter_eq_self.mpr fun _ _ => rfl).symm⟩
  · rintro done target rest lines world' - ⟨rfl, listed⟩
    refine ensures_bind.mpr
      ((Repository.deleteMailboxMessage_listed mailboxId target.2.data.localUid world').mono ?_
        fun _ _ => id)
    intro _ world'' dropped
    refine ⟨by simp, fun id => ?_⟩
    rw [dropped, listed, List.filter_filter]
    refine List.filter_congr fun row _ => ?_
    rw [List.all_append, Bool.and_comm]
    simp

/-- The rows with a property are gone from a mailbox. -/
def Removed (world : World) (mailboxId : Int) (p : Row MailboxMessage → Bool) (world' : World) : Prop :=
  ∀ id, world'.db.listMailboxMessages id =
    (world.db.listMailboxMessages id).filter fun row => !(row.data.mailboxId == mailboxId && p row)

theorem Removed.here {world world' : World} {mailboxId : Int} {p : Row MailboxMessage → Bool}
    (removed : Removed world mailboxId p world') :
    world'.db.listMailboxMessages mailboxId =
      (world.db.listMailboxMessages mailboxId).filter fun row => !p row := by
  rw [removed mailboxId]
  refine List.filter_congr fun row member => ?_
  rw [(Db.mem_liveMessages.mp (Db.mem_listMailboxMessages.mp member)).2.1]
  simp

theorem expungeTargets_replayed (mailboxId : Int) (p : Row MailboxMessage → Bool) (world : World) :
    (expungeTargets mailboxId
        ((numbered (world.db.listMailboxMessages mailboxId)).filter fun target => p target.2)).Ensures
      (cacheHandler lib) allowed (fun lines world' => Removed world mailboxId p world' ∧
        ∀ rest, replay (uidOrder world mailboxId) (lines ++ rest) = replay (uidOrder world' mailboxId) rest)
      (fun _ _ => True) world := by
  set messages := world.db.listMailboxMessages mailboxId with isMessages
  set targets := (numbered messages).filter fun target => p target.2 with isTargets
  obtain ⟨numbers, rows⟩ := numbered_filter p messages
  refine (expungeTargets_deleting mailboxId targets ((numbered_ascending messages).filter _) world).mono ?_
    fun _ _ => id
  rintro lines world' ⟨rfl, listed⟩
  have removed : Removed world mailboxId p world' := by
    intro id
    rw [listed]
    refine List.filter_congr fun row member => ?_
    rw [Bool.eq_iff_iff, List.all_eq_true, Bool.not_eq_true', Bool.and_eq_false_imp]
    obtain ⟨-, mailbox, live⟩ := Db.mem_liveMessages.mp (Db.mem_listMailboxMessages.mp member)
    constructor
    · intro spared inside
      rw [beq_iff_eq, mailbox] at inside
      subst inside
      by_contra chosen
      have here : row ∈ targets.map (·.2) := by
        rw [rows, List.mem_filter]
        exact ⟨member, by simpa using chosen⟩
      obtain ⟨target, isTarget, rfl⟩ := List.mem_map.mp here
      have other := spared target (List.mem_reverse.mpr isTarget)
      rw [Db.isLiveAt_iff.mpr ⟨mailbox, rfl, live⟩] at other
      cases other
    · intro spared target isTarget
      have targeted : target.2 ∈ messages.filter p := by
        rw [← rows]
        exact List.mem_map_of_mem (List.mem_reverse.mp isTarget)
      obtain ⟨here, chosen⟩ := List.mem_filter.mp targeted
      rw [Bool.not_eq_true', ← Bool.not_eq_true, Db.isLiveAt_iff]
      rintro ⟨inside, same, -⟩
      rw [mailbox] at inside
      subst inside
      rw [← Db.eq_of_localUid member here same, spared (by simp [mailbox])] at chosen
      cases chosen
  have remaining := removed.here
  refine ⟨removed, fun rest => ?_⟩
  have announced : targets.reverse.map (fun target => expungeLine target.1) =
      (positions p messages).reverse.map expungeLine := by
    rw [← numbers, ← List.map_reverse, List.map_map]
    rfl
  rw [announced, replay_expungeLines, uidOrder, removeAll_map, ← isMessages,
    removeAll_positions_reverse, uidOrder, remaining]
  rfl

/-! ## The commands -/

/-- An EXPUNGE without an argument, or a UID EXPUNGE of a UID set. -/
inductive Expunging where
  | expunge
  | uidExpunge (uidSet : String) (rest : List String)
deriving DecidableEq, Repr

def Expunging.command (context : Context) : Expunging → Action Reply
  | expunge => Commands.expunge context []
  | uidExpunge uidSet rest => Commands.uidExpunge context (uidSet :: rest)

def Expunging.removes (messages : List (Row MailboxMessage)) (row : Row MailboxMessage) : Expunging → Bool
  | expunge => flagsContainDeleted row.data.flags
  | uidExpunge uidSet _ =>
      (parseNumberSet uidSet ((messages.map (·.data.localUid)).max?.getD 0)).contains row.data.localUid &&
        flagsContainDeleted row.data.flags

theorem removes_text (set : SetTexts.NumberSet) (rest : List String) (messages : List (Row MailboxMessage))
    (row : Row MailboxMessage) : (Expunging.uidExpunge set.text rest).removes messages row =
      (set.has ((messages.map (·.data.localUid)).max?.getD 0) row.data.localUid &&
        flagsContainDeleted row.data.flags) := by
  have same (largest : Int) : (parseNumberSet set.text largest).contains row.data.localUid =
      set.has largest row.data.localUid := by
    rw [Bool.eq_iff_iff, List.contains_iff_mem, set.mem_parseNumberSet_text]
  unfold Expunging.removes
  dsimp only
  rw [same]

/-- The client has followed the mailbox, from which the rows with a property were removed. -/
def Followed (world : World) (mailboxId : Int) (p : Row MailboxMessage → Bool) (reply : Reply)
    (world' : World) : Prop :=
  replay (uidOrder world mailboxId) reply.lines = some (uidOrder world' mailboxId) ∧
    Removed world mailboxId p world'

theorem removeRows_followed (context : Context) (mailboxId : Int) (p : Row MailboxMessage → Bool)
    {completion : String} (other : completion.toList.getLast? ≠ some 'E') (world : World) :
    ((expungeTargets mailboxId
        ((numbered (world.db.listMailboxMessages mailboxId)).filter fun target => p target.2)).bind fun lines =>
      (Repository.refreshMailboxCounts mailboxId).bind fun _ =>
        context.reply (lines ++ [completion])).Ensures (cacheHandler lib) allowed
      (Followed world mailboxId p) (fun _ _ => True) world := by
  refine ensures_bind.mpr ((expungeTargets_replayed mailboxId p world).mono ?_ fun _ _ => id)
  rintro lines world' ⟨removed, replayed⟩
  refine ensures_bind.mpr ((Repository.refreshMailboxCounts_rows mailboxId world').mono ?_ fun _ _ => id)
  intro _ world'' kept
  have same : world''.db.listMailboxMessages mailboxId = world'.db.listMailboxMessages mailboxId :=
    Db.listMailboxMessages_congr kept
  refine ⟨?_, fun id => ?_⟩
  · rw [replayed, replay_completion _ other, uidOrder, uidOrder, same]
  · rw [Db.listMailboxMessages_congr kept, removed id]

theorem refused_followed (world : World) (mailboxId : Int) (session : Commands.Session) {line : String}
    (other : line.toList.getLast? ≠ some 'E') :
    Followed world mailboxId (fun _ => false) ⟨[line], session⟩ world := by
  refine ⟨replay_completion _ other, fun id => ?_⟩
  exact (List.filter_eq_self.mpr fun row _ => by simp).symm

section Command
variable {context : Context} {accountId : Int} {name : String} {mailbox : Row Mailbox} {world : World}
  (account : context.session.accountId = some accountId)
  (selected : context.session.selectedMailboxName = some name)
  (found : world.db.findMailbox accountId name = some mailbox)
include account selected found

theorem expunge_followed :
    (Commands.expunge context []).Ensures (cacheHandler lib) allowed
      (Followed world mailbox.id fun row =>
        !context.session.isReadOnly && flagsContainDeleted row.data.flags) (fun _ _ => True) world := by
  unfold Commands.expunge
  rw [account, selected]
  refine ensures_bind.mpr (ensures_read rfl ?_)
  rw [found]
  dsimp only
  cases context.session.isReadOnly with
  | true =>
      exact refused_followed world mailbox.id context.session (ends_with (by decide))
  | false =>
      refine ensures_bind.mpr (ensures_bind.mpr (ensures_read rfl ?_))
      exact removeRows_followed context mailbox.id _ (ends_with (by decide)) world

attribute [local irreducible] expungeTargets parseNumberSet in
theorem uidExpunge_followed (uidSet : String) (rest : List String) :
    (Commands.uidExpunge context (uidSet :: rest)).Ensures (cacheHandler lib) allowed
      (Followed world mailbox.id fun row => !context.session.isReadOnly &&
        (Expunging.uidExpunge uidSet rest).removes (world.db.listMailboxMessages mailbox.id) row)
      (fun _ _ => True) world := by
  unfold Commands.uidExpunge withUidMailbox
  rw [account, selected]
  refine ensures_bind.mpr (ensures_read rfl ?_)
  rw [found]
  dsimp only
  cases context.session.isReadOnly with
  | true =>
      exact refused_followed world mailbox.id context.session (ends_with (by decide))
  | false =>
      refine ensures_bind.mpr (ensures_read rfl ?_)
      refine ensures_bind.mpr (ensures_numberSet ?_)
      exact removeRows_followed context mailbox.id _ (ends_with (by decide)) world

end Command

/-- A client that applies the numbers of an EXPUNGE or a UID EXPUNGE in their order is left with the
UIDs of the mailbox, and what the mailbox has lost are the messages marked as deleted, of a UID set
those that its numbers and ranges name; in a read-only mailbox nothing is lost. -/
theorem expunge_replays (command : Expunging) (context : Context) (accountId : Int) (name : String)
    (mailbox : Row Mailbox) (world world' : World) (faults : List (Fault Error)) (reply : Reply)
    (account : context.session.accountId = some accountId)
    (selected : context.session.selectedMailboxName = some name)
    (found : world.db.findMailbox accountId name = some mailbox)
    (replied : (command.command context).run (cacheHandler lib) faults world = (.ok reply, world')) :
    replay (uidOrder world mailbox.id) reply.lines = some (uidOrder world' mailbox.id) ∧
      (∀ id, world'.db.listMailboxMessages id = (world.db.listMailboxMessages id).filter fun row =>
        !(row.data.mailboxId == mailbox.id && (!context.session.isReadOnly &&
          command.removes (world.db.listMailboxMessages mailbox.id) row))) ∧
      ∀ (set : SetTexts.NumberSet) rest, command = .uidExpunge set.text rest → ∀ row,
        command.removes (world.db.listMailboxMessages mailbox.id) row =
          (set.has ((uidOrder world mailbox.id).max?.getD 0) row.data.localUid &&
            flagsContainDeleted row.data.flags) := by
  have ensures : (command.command context).Ensures (cacheHandler lib) (anyFault Error)
      (Followed world mailbox.id fun row => !context.session.isReadOnly &&
        command.removes (world.db.listMailboxMessages mailbox.id) row) (fun _ _ => True) world := by
    cases command with
    | expunge => exact expunge_followed account selected found
    | uidExpunge uidSet rest => exact uidExpunge_followed account selected found uidSet rest
  have ended := (ensures.run faults (fun _ _ => trivial) trivial).1 reply (by rw [replied])
  rw [replied] at ended
  refine ⟨ended.1, ended.2, ?_⟩
  rintro set rest rfl row
  exact removes_text set rest _ row

/-- Three messages, of which the first and the last are marked as deleted. -/
def inbox : World :=
  Sample.world (Sample.db [Sample.mailbox "INBOX" none]
    [Sample.row 1 2 none ["\\Deleted"], Sample.row 1 5 none [], Sample.row 1 9 none ["\\deleted"]])
    (Sample.emptyServer none)

def inboxContext : Context :=
  ⟨Sample.libraries, true, true, "A1", ⟨some 1, .selectedMailbox "INBOX" false, some 1⟩, 0⟩

theorem inbox_expunge_replayed :
    ∃ reply world', (Expunging.expunge.command inboxContext).run (cacheHandler Sample.libraries) [] inbox =
        (.ok reply, world') ∧
      reply.lines = ["* 3 EXPUNGE", "* 1 EXPUNGE", "A1 OK EXPUNGE completed"] ∧
      replay (uidOrder inbox 1) reply.lines = some (uidOrder world' 1) := by
  have lines : ((Expunging.expunge.command inboxContext).run (cacheHandler Sample.libraries) []
      inbox).1.toOption.map (·.lines) = some ["* 3 EXPUNGE", "* 1 EXPUNGE", "A1 OK EXPUNGE completed"] := by
    decide +kernel
  have named : (inbox.db.findMailbox 1 "INBOX").map (·.id) = some 1 := by decide +kernel
  obtain ⟨mailbox, found, here⟩ := Option.map_eq_some_iff.mp named
  cases replied : (Expunging.expunge.command inboxContext).run (cacheHandler Sample.libraries) [] inbox with
  | mk outcome world' =>
      rw [replied] at lines
      cases outcome with
      | error failure => cases lines
      | ok reply =>
          have followed := (expunge_replays .expunge inboxContext 1 "INBOX" mailbox inbox world' [] reply
            rfl rfl found replied).1
          rw [here] at followed
          exact ⟨reply, world', rfl, Option.some.inj lines, followed⟩

end ImapCache.ExpungeReplay
