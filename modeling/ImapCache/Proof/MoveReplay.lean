import ImapCache.Lib.Removal
import ImapCache.Model.Sample
import ImapCache.Proof.ExpungeReplay
import ImapCache.Proof.NumberSets

/-!
# What a client makes of the numbers of a MOVE

MOVE announces the messages that it takes out of the selected mailbox in ascending order, by the
numbers that they had before the first was gone. UID MOVE announces none of them.
-/

namespace ImapCache.MoveReplay
open Lib Prog Removal Commands ExpungeReplay

variable {lib : Libraries} {allowed : Fault Error → Prop}

/-! ## One round -/

/-- The UIDs of the source mailbox while messages are moved out of it: the moved ones are gone, and
if they were moved into the same mailbox their copies have come after all others. -/
def Moving (world : World) (source destination : Int) (moved : List Int) (world' : World) : Prop :=
  ∃ copies : List Int, uidOrder world' source =
      (uidOrder world source).filter (fun uid => !moved.contains uid) ++ copies ∧
    (∀ copy ∈ copies, ∀ uid ∈ uidOrder world source, uid < copy) ∧
    (copies = [] ↔ moved = [] ∨ destination ≠ source)

theorem Moving.congr {world world' world'' : World} {source destination : Int} {moved : List Int}
    (moving : Moving world source destination moved world')
    (kept : world''.db.mailboxMessages = world'.db.mailboxMessages) :
    Moving world source destination moved world'' := by
  have same : uidOrder world'' source = uidOrder world' source := by
    rw [uidOrder, uidOrder, Db.listMailboxMessages_congr kept]
  unfold Moving at moving ⊢
  rwa [same]

theorem queueTransferred_rows (context : Context) (move : Bool) (accountId : Int)
    (source destination : Row Mailbox) (message copied : Row MailboxMessage) :
    (queueTransferred context move accountId source destination message copied).Uses Op.keepsRows := by
  have enqueue : ∀ input, (Repository.enqueueMutation input).Uses Op.keepsRows := fun input =>
    Repository.enqueueMutation_uses Op.keepsRows_of_bookkeeping (by simp [Op.keepsRows, Op.writes])
  refine Uses.bind ?_ fun _ => trivial
  cases move
  · exact enqueue _
  · exact enqueue _

theorem Moving.here {world world' : World} {source destination uid : Int} {moved : List Int}
    (moving : Moving world source destination moved world') (member : uid ∈ uidOrder world source)
    (unmoved : uid ∉ moved) :
    ∃ row ∈ world'.db.mailboxMessages.rows, Db.isLiveAt source uid row = true := by
  obtain ⟨copies, order, -, -⟩ := moving
  have still : uid ∈ uidOrder world' source := by
    rw [order, List.mem_append, List.mem_filter]
    exact Or.inl ⟨member, by simpa using unmoved⟩
  obtain ⟨row, listed, rfl⟩ := List.mem_map.mp still
  obtain ⟨row', mailbox, live⟩ := Db.mem_liveMessages.mp (Db.mem_listMailboxMessages.mp listed)
  exact ⟨row, row', Db.isLiveAt_iff.mpr ⟨mailbox, rfl, live⟩⟩

theorem uidOrder_deleted {world world' : World} {mailboxId uid : Int}
    (deleted : ∀ id, world'.db.listMailboxMessages id =
      (world.db.listMailboxMessages id).filter fun row => !Db.isLiveAt mailboxId uid row) :
    uidOrder world' mailboxId = (uidOrder world mailboxId).filter fun other => other ≠ uid := by
  unfold uidOrder
  rw [deleted, List.filter_map]
  refine congrArg _ (List.filter_congr fun row member => ?_)
  obtain ⟨-, mailbox, live⟩ := Db.mem_liveMessages.mp (Db.mem_listMailboxMessages.mp member)
  rw [Bool.eq_iff_iff]
  simp [Db.isLiveAt, mailbox, live]

theorem Moving.step {world world₁ world₂ world₃ : World} {source destination uid : Int} {moved : List Int}
    {row : Row MailboxMessage} (moving : Moving world source destination moved world₁)
    (member : uid ∈ uidOrder world source)
    (last : ∀ other ∈ world₁.db.liveMessages destination, other.data.localUid < row.data.localUid)
    (copied : ∀ id, world₂.db.listMailboxMessages id =
      world₁.db.listMailboxMessages id ++ if destination = id then [row] else [])
    (deleted : ∀ id, world₃.db.listMailboxMessages id =
      (world₂.db.listMailboxMessages id).filter fun row => !Db.isLiveAt source uid row) :
    Moving world source destination (moved ++ [uid]) world₃ := by
  obtain ⟨copies, order, later, none⟩ := moving
  let added := if destination = source then [row.data.localUid] else []
  have extended : uidOrder world₂ source = uidOrder world₁ source ++ added := by
    unfold uidOrder
    rw [copied, List.map_append]
    congr 1
    unfold added
    split <;> rfl
  -- The new copy comes after the copies before it, or after all messages if it is the first.
  have above : ∀ copy ∈ added, ∀ other ∈ uidOrder world source, other < copy := by
    intro copy isAdded other isOther
    unfold added at isAdded
    split at isAdded
    · rename_i same
      subst same
      rw [List.mem_singleton.mp isAdded]
      have largest : ∀ other ∈ uidOrder world₁ destination, other < row.data.localUid := by
        intro other isOther
        obtain ⟨listed, isListed, rfl⟩ := List.mem_map.mp isOther
        exact last listed (Db.mem_listMailboxMessages.mp isListed)
      rw [order] at largest
      cases copies with
      | nil =>
          have nothing : moved = [] := (none.mp rfl).resolve_right (by simp)
          refine largest other ?_
          simpa [nothing] using isOther
      | cons first rest =>
          exact (later first List.mem_cons_self other isOther).trans
            (largest first (List.mem_append_right _ List.mem_cons_self))
    · cases isAdded
  have allLater : ∀ copy ∈ copies ++ added, ∀ other ∈ uidOrder world source, other < copy := by
    intro copy isCopy
    rcases List.mem_append.mp isCopy with isCopy | isCopy
    · exact later copy isCopy
    · exact above copy isCopy
  refine ⟨copies ++ added, ?_, allLater, ?_⟩
  · have kept : (copies ++ added).filter (fun other => decide (other ≠ uid)) = copies ++ added :=
      List.filter_eq_self.mpr fun copy isCopy => by
        have := allLater copy isCopy uid member
        simp only [decide_eq_true_eq]
        omega
    rw [uidOrder_deleted deleted, extended, order, List.append_assoc, List.filter_append, kept,
      List.filter_filter]
    congr 1
    refine List.filter_congr fun other _ => ?_
    rw [Bool.and_comm]
    simp
  · unfold added
    by_cases same : destination = source
    · simp [same]
    · have nothing := none.mpr (Or.inr same)
      simp [same, nothing]

/-! ## The loop -/

def announced (targets : List (Option Nat × Row MailboxMessage)) : List String :=
  (targets.filterMap (·.1)).map expungeLine

def targetUids (targets : List (Option Nat × Row MailboxMessage)) : List Int :=
  targets.map (·.2.data.localUid)

theorem transferMessage_moves (context : Context) (accountId : Int) (source destination : Row Mailbox)
    (progress : Transferred) (target : Option Nat × Row MailboxMessage) {world world' : World}
    {moved : List Int} (moving : Moving world source.id destination.id moved world')
    (member : target.2.data.localUid ∈ uidOrder world source.id)
    (unmoved : target.2.data.localUid ∉ moved) :
    (transferMessage context true accountId source destination progress target).Ensures (cacheHandler lib)
      allowed (fun progress' world'' =>
        progress'.lines = progress.lines ++ (target.1.map expungeLine).toList ∧
        Moving world source.id destination.id (moved ++ [target.2.data.localUid]) world'')
      (fun _ _ => True) world' := by
  unfold transferMessage
  refine ensures_bind.mpr ((Repository.copyMailboxMessage_listed source.id destination.id _ world'
    (moving.here member unmoved)).mono ?_ fun _ _ => id)
  rintro copied world₁ ⟨row, last, listed⟩
  have queued : (forEach copied.toList fun copied => onlyIf context.mutationEngine
      (queueTransferred context true accountId source destination target.2 copied) : Action Unit).Uses
      Op.keepsRows :=
    Uses.forEach fun copied _ => Uses.onlyIf fun _ => queueTransferred_rows ..
  refine ensures_bind.mpr ((ensures_rows queued world₁).mono ?_ fun _ _ => id)
  intro _ world₂ kept
  refine ensures_bind.mpr ((Repository.deleteMailboxMessage_listed source.id target.2.data.localUid
    world₂).mono ?_ fun _ _ => id)
  intro _ world₃ deleted
  refine ⟨rfl, moving.step member last (fun id => ?_) deleted⟩
  rw [Db.listMailboxMessages_congr kept, listed]

def Progress (world : World) (source destination : Int) (done : List (Option Nat × Row MailboxMessage))
    (progress : Transferred) (world' : World) : Prop :=
  progress.lines = announced done ∧ Moving world source destination (targetUids done) world'

theorem transfer_loop (context : Context) (accountId : Int) (source destination : Row Mailbox)
    (targets : List (Option Nat × Row MailboxMessage)) (world : World)
    (members : ∀ target ∈ targets, target.2.data.localUid ∈ uidOrder world source.id)
    (distinct : (targetUids targets).Nodup) :
    (targets.foldlM (transferMessage context true accountId source destination) ⟨[], []⟩).Ensures
      (cacheHandler lib) allowed (Progress world source.id destination.id targets) (fun _ _ => True)
      world := by
  refine ensures_foldlM (fun done _ => Progress world source.id destination.id done) ?_ ?_
  · refine ⟨rfl, [], ?_, by simp, by simp [targetUids]⟩
    simp [targetUids]
  · rintro done target rest progress world' rfl ⟨lines, moving⟩
    have unmoved : target.2.data.localUid ∉ targetUids done := by
      rw [targetUids, List.map_append, List.map_cons] at distinct
      exact (List.nodup_middle.mp distinct).notMem ∘ List.mem_append_left _
    refine (transferMessage_moves context accountId source destination progress target moving
      (members target (by simp)) unmoved).mono ?_ fun _ _ => id
    rintro progress' world'' ⟨next, moving'⟩
    refine ⟨?_, ?_⟩
    · rw [next, lines]
      cases first : target.1 <;> simp [announced, first]
    · rw [targetUids, List.map_append]
      exact moving'

/-! ## What the client is left with -/

/-- The client's list agrees with the mailbox after the lines for the targets. -/
def Agrees (world : World) (mailboxId : Int) (lines : List String) (world' : World) : Prop :=
  replay (uidOrder world mailboxId) lines = some (uidOrder world' mailboxId)

section Outcome
variable {world world' : World} {source destination : Int}

theorem Moving.gone {moved : List Int} (moving : Moving world source destination moved world') {uid : Int}
    (member : uid ∈ uidOrder world source) (isMoved : uid ∈ moved) : uid ∉ uidOrder world' source := by
  obtain ⟨copies, order, later, -⟩ := moving
  rw [order, List.mem_append, List.mem_filter]
  rintro (⟨-, spared⟩ | copied)
  · simp [isMoved] at spared
  · exact lt_irrefl uid (later uid copied uid member)

theorem Moving.nothing (moving : Moving world source destination [] world') :
    uidOrder world' source = uidOrder world source := by
  obtain ⟨copies, order, -, none⟩ := moving
  rw [order, none.mpr (Or.inl rfl)]
  simp

theorem unannounced_agrees_iff {moved : List Int} (moving : Moving world source destination moved world')
    (members : ∀ uid ∈ moved, uid ∈ uidOrder world source) :
    uidOrder world source = uidOrder world' source ↔ moved = [] := by
  constructor
  · intro same
    refine List.eq_nil_iff_forall_not_mem.mpr fun uid isMoved => ?_
    have gone := moving.gone (members uid isMoved) isMoved
    rw [← same] at gone
    exact gone (members uid isMoved)
  · rintro rfl
    exact moving.nothing.symm

/-- With a number for each message, in ascending order, the client is right about one message that
goes to another mailbox, and about none. -/
theorem announced_agrees_iff {targets : List (Nat × Int)}
    (moving : Moving world source destination (targets.map (·.2)) world')
    (ascending : (targets.map (·.1)).Pairwise (· < ·))
    (placed : ∀ target ∈ targets, 0 < target.1 ∧ (uidOrder world source)[target.1 - 1]? = some target.2) :
    removeAll (uidOrder world source) (targets.map (·.1)) = some (uidOrder world' source) ↔
      targets = [] ∨ targets.length = 1 ∧ destination ≠ source := by
  have members : ∀ target ∈ targets, target.2 ∈ uidOrder world source := fun target isTarget =>
    List.mem_of_getElem? (placed target isTarget).2
  cases targets with
  | nil =>
      rw [moving.nothing]
      simp
  | cons first rest =>
      cases rest with
      | nil =>
          obtain ⟨positive, here⟩ := placed first List.mem_cons_self
          have distinct : (uidOrder world source).Nodup := (uidOrder_ascending world source).imp ne_of_lt
          have removed := removeAll_singleton distinct positive here
          obtain ⟨copies, order, later, none⟩ := moving
          have spared : (uidOrder world source).filter (fun uid => !([first.2].contains uid)) =
              (uidOrder world source).filter fun uid => uid ≠ first.2 := by
            refine List.filter_congr fun uid _ => ?_
            simp
          rw [List.map_singleton, removed, order, List.map_singleton, spared, Option.some.injEq,
            List.self_eq_append_right, none]
          simp
      | cons second rest =>
          refine iff_of_false (fun same => ?_) (by simp)
          have stays := mem_of_removeAll_ascending ascending same (placed second (by simp)).2
          exact moving.gone (members second (by simp)) (by simp) stays

end Outcome

/-! ## The commands -/

/-- The messages of a set of sequence numbers, with their numbers. -/
def sequenceTargets (messages : List (Row MailboxMessage)) (set : String) : List (Nat × Row MailboxMessage) :=
  (parseNumberSet set messages.length).filterMap fun sequence =>
    messages[(sequence - 1).toNat]?.map fun message => (sequence.toNat, message)

def uidSetTargets (messages : List (Row MailboxMessage)) (set : String) : List (Row MailboxMessage) :=
  messages.filter fun message =>
    (parseNumberSet set ((messages.map (·.data.localUid)).max?.getD 0)).contains message.data.localUid

theorem sequenceTargets_ascending (messages : List (Row MailboxMessage)) (set : String) :
    ((sequenceTargets messages set).map (·.1)).Pairwise (· < ·) := by
  rw [List.pairwise_map]
  refine List.Pairwise.filterMap _ ?_ ((parseNumberSet_ascending set messages.length).imp_of_mem
    (S := fun a b => 0 < a ∧ a < b) fun memberA _ less => ⟨parseNumberSet_positive memberA, less⟩)
  rintro a b ⟨positive, less⟩ x isX y isY
  obtain ⟨rowX, -, rfl⟩ := Option.map_eq_some_iff.mp isX
  obtain ⟨rowY, -, rfl⟩ := Option.map_eq_some_iff.mp isY
  change a.toNat < b.toNat
  omega

theorem sequenceTargets_placed {messages : List (Row MailboxMessage)} {set : String}
    {target : Nat × Row MailboxMessage} (member : target ∈ sequenceTargets messages set) :
    0 < target.1 ∧ messages[target.1 - 1]? = some target.2 := by
  obtain ⟨sequence, named, isTarget⟩ := List.mem_filterMap.mp member
  obtain ⟨row, here, rfl⟩ := Option.map_eq_some_iff.mp isTarget
  have positive := parseNumberSet_positive named
  refine ⟨by omega, ?_⟩
  rw [← here]
  congr 1
  omega

/-- A MOVE or a UID MOVE of a set of messages to a mailbox. -/
structure Move where
  byUid : Bool
  set : String
  destination : String
  rest : List String
deriving DecidableEq, Repr

def Move.command (context : Context) (move : Move) : Action Reply :=
  if move.byUid then uidTransfer context true (move.set :: move.destination :: move.rest)
  else transfer context true (move.set :: move.destination :: move.rest)

def Move.targets (messages : List (Row MailboxMessage)) (move : Move) : List (Row MailboxMessage) :=
  if move.byUid then uidSetTargets messages move.set
  else (sequenceTargets messages move.set).map (·.2)

/-- The numbers of the client are right: no message is moved, or a single one by its sequence number
and to another mailbox. -/
def Move.Replayable (context : Context) (db : Db) (accountId : Int) (source : Row Mailbox) (move : Move) : Prop :=
  context.session.isReadOnly = true ∨
    ∀ destination, db.findMailbox accountId move.destination = some destination →
      move.targets (db.listMailboxMessages source.id) = [] ∨
        move.byUid = false ∧ (move.targets (db.listMailboxMessages source.id)).length = 1 ∧
          destination.id ≠ source.id

/-- The whole of a MOVE: the lines remove the numbered targets, and the targets are gone. -/
theorem transferMessages_moves (context : Context) (name : String) (accountId : Int)
    (source destination : Row Mailbox) (targets : List (Option Nat × Row MailboxMessage)) (world : World)
    (members : ∀ target ∈ targets, target.2.data.localUid ∈ uidOrder world source.id)
    (distinct : (targetUids targets).Nodup) :
    (transferMessages context name true accountId source destination targets).Ensures (cacheHandler lib)
      allowed (fun reply world' =>
        replay (uidOrder world source.id) reply.lines =
          removeAll (uidOrder world source.id) (targets.filterMap (·.1)) ∧
        Moving world source.id destination.id (targetUids targets) world') (fun _ _ => True) world := by
  unfold transferMessages
  refine ensures_bind.mpr ((transfer_loop context accountId source destination targets world members
    distinct).mono ?_ fun _ _ => id)
  rintro done world₁ ⟨lines, moving⟩
  refine ensures_bind.mpr ((Repository.refreshMailboxCounts_rows source.id world₁).mono ?_ fun _ _ => id)
  intro _ world₂ kept
  refine ensures_bind.mpr ((Repository.refreshMailboxCounts_rows destination.id world₂).mono ?_ fun _ _ => id)
  intro _ world₃ kept'
  have completed : (name ++ " completed").toList.getLast?.any (· ≠ 'E') = true := by
    simp [String.toList_append, List.getLast?_cons]
  have other : ∀ completion, completion = (if done.copied.isEmpty then ok context.tag (name ++ " completed")
      else context.tag ++ " OK [COPYUID " ++ toString (destination.data.uidvalidity.getD 1) ++ " " ++
        ",".intercalate ((done.copied.map (·.1)).map toString) ++ " " ++
        ",".intercalate ((done.copied.map (·.2)).map toString) ++ "] " ++ name ++ " completed") →
      completion.toList.getLast? ≠ some 'E' := by
    rintro completion rfl
    split
    · exact ends_with completed
    · exact ends_with (by decide)
  refine ⟨?_, (moving.congr kept).congr kept'⟩
  change replay _ (done.lines ++ _) = _
  rw [lines, announced, replay_expungeLines]
  have unchanged : ∀ uids, replay uids _ = some uids := fun uids => replay_completion uids (other _ rfl)
  rw [funext unchanged]
  exact Option.bind_fun_some _

section Command
variable {context : Context} {accountId : Int} {name : String} {source : Row Mailbox} {world : World}

theorem resolveSequenceTargets_read (mailboxId : Int) (set : String) (world : World) :
    (resolveSequenceTargets mailboxId set).Ensures (cacheHandler lib) allowed (fun targets world' =>
      targets = sequenceTargets (world.db.listMailboxMessages mailboxId) set ∧ world' = world)
      (fun _ _ => True) world :=
  ensures_bind.mpr (ensures_read rfl (ensures_bind.mpr (ensures_numberSet ⟨rfl, rfl⟩)))

theorem resolveUidTargets_read (mailboxId : Int) (set : String) (world : World) :
    (resolveUidTargets mailboxId set).Ensures (cacheHandler lib) allowed (fun targets world' =>
      targets = uidSetTargets (world.db.listMailboxMessages mailboxId) set ∧ world' = world)
      (fun _ _ => True) world :=
  ensures_bind.mpr (ensures_read rfl (ensures_bind.mpr (ensures_numberSet ⟨rfl, rfl⟩)))

theorem sequence_agrees (destination : Row Mailbox) {targets : List (Nat × Row MailboxMessage)}
    (ascending : (targets.map (·.1)).Pairwise (· < ·))
    (placed : ∀ target ∈ targets, 0 < target.1 ∧
      (world.db.listMailboxMessages source.id)[target.1 - 1]? = some target.2) :
    (transferMessages context name true accountId source destination
        (targets.map fun target => (some target.1, target.2))).Ensures (cacheHandler lib) allowed
      (fun reply world' => Agrees world source.id reply.lines world' ↔
        targets = [] ∨ targets.length = 1 ∧ destination.id ≠ source.id) (fun _ _ => True) world := by
  have distinct : targets.Pairwise fun a b => a.2.data.localUid ≠ b.2.data.localUid := by
    refine (List.pairwise_map.mp ascending).imp_of_mem fun {a b} ha hb less => ?_
    obtain ⟨positive, here⟩ := placed a ha
    obtain ⟨insideA, isA⟩ := List.getElem?_eq_some_iff.mp here
    obtain ⟨insideB, isB⟩ := List.getElem?_eq_some_iff.mp (placed b hb).2
    have increasing := List.pairwise_iff_getElem.mp (world.db.listMailboxMessages_ascending source.id)
      (a.1 - 1) (b.1 - 1) insideA insideB (by omega)
    rw [isA, isB] at increasing
    exact ne_of_lt increasing
  have uids : targetUids (targets.map fun target => (some target.1, target.2)) =
      (targets.map fun target => (target.1, target.2.data.localUid)).map (·.2) := by
    simp [targetUids]
  have numbers : (targets.map fun target => (some target.1, target.2)).filterMap (·.1) =
      (targets.map fun target => (target.1, target.2.data.localUid)).map (·.1) := by
    simp [List.filterMap_map, Function.comp_def]
  refine (transferMessages_moves context name accountId source destination _ world ?_ ?_).mono ?_ fun _ _ => id
  · intro target isTarget
    obtain ⟨numbered, isNumbered, rfl⟩ := List.mem_map.mp isTarget
    exact List.mem_map_of_mem (List.mem_of_getElem? (placed numbered isNumbered).2)
  · rw [targetUids, List.map_map]
    exact List.pairwise_map.mpr distinct
  · rintro reply world' ⟨replayed, moving⟩
    rw [Agrees, replayed, numbers]
    rw [uids] at moving
    refine (announced_agrees_iff moving ?_ ?_).trans (by simp)
    · rw [List.map_map]
      exact ascending
    · intro target isTarget
      obtain ⟨numbered, isNumbered, rfl⟩ := List.mem_map.mp isTarget
      obtain ⟨positive, here⟩ := placed numbered isNumbered
      refine ⟨positive, ?_⟩
      rw [uidOrder, List.getElem?_map, here]
      rfl

theorem uids_agree (destination : Row Mailbox) {targets : List (Row MailboxMessage)}
    (part : targets.Sublist (world.db.listMailboxMessages source.id)) :
    (transferMessages context name true accountId source destination
        (targets.map fun target => (none, target))).Ensures (cacheHandler lib) allowed
      (fun reply world' => Agrees world source.id reply.lines world' ↔ targets = []) (fun _ _ => True)
      world := by
  have uids : targetUids (targets.map fun target => (none, target)) = targets.map (·.data.localUid) := by
    simp [targetUids]
  have members : ∀ uid ∈ targets.map (·.data.localUid), uid ∈ uidOrder world source.id :=
    fun uid => ((part.map _).subset ·)
  refine (transferMessages_moves context name accountId source destination _ world ?_ ?_).mono ?_ fun _ _ => id
  · intro target isTarget
    obtain ⟨row, isRow, rfl⟩ := List.mem_map.mp isTarget
    exact members _ (List.mem_map_of_mem isRow)
  · rw [uids]
    exact ((uidOrder_ascending world source.id).sublist (part.map _)).imp ne_of_lt
  · rintro reply world' ⟨replayed, moving⟩
    have numbers : (targets.map fun target => ((none : Option Nat), target)).filterMap (·.1) = [] := by
      simp [List.filterMap_map]
    rw [Agrees, replayed, numbers, removeAll_nil, Option.some.injEq]
    rw [uids] at moving
    exact (unannounced_agrees_iff moving members).trans List.map_eq_nil_iff

theorem refused_agrees (mailboxId : Int) {line : String} (other : line.toList.getLast? ≠ some 'E') :
    Agrees world mailboxId [line] world := replay_completion _ other

variable (account : context.session.accountId = some accountId)
  (selected : context.session.selectedMailboxName = some name)
  (found : world.db.findMailbox accountId name = some source)
include account selected found

theorem transfer_agrees (move : Move) (bySequence : move.byUid = false) :
    (transfer context true (move.set :: move.destination :: move.rest)).Ensures (cacheHandler lib) allowed
      (fun reply world' => Agrees world source.id reply.lines world' ↔
        move.Replayable context world.db accountId source) (fun _ _ => True) world := by
  unfold transfer
  rw [account, selected]
  refine ensures_bind.mpr (ensures_read rfl ?_)
  rw [found]
  refine ensures_bind.mpr (ensures_read rfl ?_)
  cases target : world.db.findMailbox accountId move.destination with
  | none =>
      refine iff_of_true (refused_agrees source.id (ends_with (by decide))) (Or.inr fun _ some => ?_)
      rw [target] at some
      cases some
  | some destination =>
      dsimp only
      cases readOnly : context.session.isReadOnly with
      | true => exact iff_of_true (refused_agrees source.id (ends_with (by decide))) (Or.inl readOnly)
      | false =>
          refine ensures_bind.mpr ((resolveSequenceTargets_read source.id move.set world).mono ?_ fun _ _ => id)
          rintro targets world' ⟨isTargets, rfl⟩
          have ascending : (targets.map (·.1)).Pairwise (· < ·) := isTargets ▸ sequenceTargets_ascending _ _
          refine (sequence_agrees destination ascending fun target member =>
            sequenceTargets_placed (isTargets ▸ member)).mono (fun reply world' agrees => agrees.trans ?_)
            fun _ _ => id
          simp [Move.Replayable, Move.targets, readOnly, bySequence, target, isTargets]

theorem uidTransfer_agrees (move : Move) (byUid : move.byUid = true) :
    (uidTransfer context true (move.set :: move.destination :: move.rest)).Ensures (cacheHandler lib) allowed
      (fun reply world' => Agrees world source.id reply.lines world' ↔
        move.Replayable context world.db accountId source) (fun _ _ => True) world := by
  unfold uidTransfer withUidMailbox
  rw [account, selected]
  refine ensures_bind.mpr (ensures_read rfl ?_)
  rw [found]
  dsimp only
  cases readOnly : context.session.isReadOnly with
  | true => exact iff_of_true (refused_agrees source.id (ends_with (by decide))) (Or.inl readOnly)
  | false =>
      refine ensures_bind.mpr (ensures_read rfl ?_)
      cases target : world.db.findMailbox accountId move.destination with
      | none =>
          refine iff_of_true (refused_agrees source.id (ends_with (by decide))) (Or.inr fun _ some => ?_)
          rw [target] at some
          cases some
      | some destination =>
          refine ensures_bind.mpr ((resolveUidTargets_read source.id move.set world).mono ?_ fun _ _ => id)
          rintro targets world' ⟨isTargets, rfl⟩
          have part : targets.Sublist (world'.db.listMailboxMessages source.id) :=
            isTargets ▸ List.filter_sublist
          refine (uids_agree destination part).mono (fun reply world' agrees => agrees.trans ?_) fun _ _ => id
          simp [Move.Replayable, Move.targets, uidSetTargets, readOnly, byUid, target, isTargets]

end Command

/-- A client that applies the numbers of a MOVE or a UID MOVE in their order is left with the UIDs of
the mailbox exactly if the move is of the kind above. -/
theorem move_replays_iff (move : Move) (context : Context) (accountId : Int) (name : String)
    (source : Row Mailbox) (world world' : World) (faults : List (Fault Error)) (reply : Reply)
    (account : context.session.accountId = some accountId)
    (selected : context.session.selectedMailboxName = some name)
    (found : world.db.findMailbox accountId name = some source)
    (replied : (move.command context).run (cacheHandler lib) faults world = (.ok reply, world')) :
    replay (uidOrder world source.id) reply.lines = some (uidOrder world' source.id) ↔
      move.Replayable context world.db accountId source := by
  have ensures : (move.command context).Ensures (cacheHandler lib) (anyFault Error)
      (fun reply world' => Agrees world source.id reply.lines world' ↔
        move.Replayable context world.db accountId source) (fun _ _ => True) world := by
    unfold Move.command
    split
    · rename_i byUid
      exact uidTransfer_agrees account selected found move byUid
    · rename_i bySequence
      exact transfer_agrees account selected found move (by simpa using bySequence)
  have ended := (ensures.run faults (fun _ _ => trivial) trivial).1 reply (by rw [replied])
  rw [replied] at ended
  exact ended

/-- Three messages in the INBOX, and an empty Archive. -/
def mailboxes : World :=
  Sample.world (Sample.db [Sample.mailbox "INBOX" none, Sample.mailbox "Archive" none]
    [Sample.row 1 1 none [], Sample.row 1 2 none [], Sample.row 1 3 none []]) (Sample.emptyServer none)

theorem single_move_replayed :
    ∃ reply world', (Move.command inboxContext ⟨false, "2", "Archive", []⟩).run
        (cacheHandler Sample.libraries) [] mailboxes = (.ok reply, world') ∧
      replay (uidOrder mailboxes 1) reply.lines = some (uidOrder world' 1) := by
  have lines : ((Move.command inboxContext ⟨false, "2", "Archive", []⟩).run (cacheHandler Sample.libraries) []
      mailboxes).1.toOption.isSome = true := by decide +kernel
  have named : (mailboxes.db.findMailbox 1 "INBOX").map (·.id) = some 1 := by decide +kernel
  have target : (mailboxes.db.findMailbox 1 "Archive").map (·.id) = some 2 := by decide +kernel
  obtain ⟨source, found, here⟩ := Option.map_eq_some_iff.mp named
  obtain ⟨archive, isArchive, there⟩ := Option.map_eq_some_iff.mp target
  have one : (Move.targets (mailboxes.db.listMailboxMessages source.id) ⟨false, "2", "Archive", []⟩).length =
      1 := by
    rw [here]
    decide +kernel
  cases replied : (Move.command inboxContext ⟨false, "2", "Archive", []⟩).run (cacheHandler Sample.libraries)
      [] mailboxes with
  | mk outcome world' =>
      rw [replied] at lines
      cases outcome with
      | error failure => cases lines
      | ok reply =>
          have followed := (move_replays_iff ⟨false, "2", "Archive", []⟩ inboxContext 1 "INBOX" source
            mailboxes world' [] reply rfl rfl found replied).mpr (by
              refine Or.inr fun destination isDestination => Or.inr ⟨rfl, one, ?_⟩
              rw [isArchive] at isDestination
              cases isDestination
              rw [here, there]
              decide)
          rw [here] at followed
          exact ⟨reply, world', rfl, followed⟩

/-- `MOVE 1:2 Archive` announces 1 and 2: the client removes the first message and the third, and is
left with the second instead of the third. -/
theorem move_of_two_misread :
    ∃ reply world', (Move.command inboxContext ⟨false, "1:2", "Archive", []⟩).run
        (cacheHandler Sample.libraries) [] mailboxes = (.ok reply, world') ∧
      replay (uidOrder mailboxes 1) reply.lines = some [2] ∧ uidOrder world' 1 = [3] := by
  have ended : (((Move.command inboxContext ⟨false, "1:2", "Archive", []⟩).run (cacheHandler Sample.libraries)
      [] mailboxes).1.toOption.map (·.lines), uidOrder ((Move.command inboxContext
        ⟨false, "1:2", "Archive", []⟩).run (cacheHandler Sample.libraries) [] mailboxes).2 1) =
      (some ([1, 2].map expungeLine ++ ["A1 OK [COPYUID 1 1,2 1,2] MOVE completed"]), [3]) := by
    decide +kernel
  obtain ⟨lines, left⟩ := Prod.mk.inj ended
  have order : uidOrder mailboxes 1 = [1, 2, 3] := by decide +kernel
  cases replied : (Move.command inboxContext ⟨false, "1:2", "Archive", []⟩).run (cacheHandler Sample.libraries)
      [] mailboxes with
  | mk outcome world' =>
      rw [replied] at lines left
      cases outcome with
      | error failure => cases lines
      | ok reply =>
          have text : reply.lines = _ := Option.some.inj lines
          refine ⟨reply, world', rfl, ?_, left⟩
          have applied : removeAll [(1 : Int), 2, 3] [1, 2] = some [2] := rfl
          rw [text, replay_expungeLines, order, applied, Option.bind_some, replay_completion _ (by decide)]

end ImapCache.MoveReplay
