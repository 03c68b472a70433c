import ImapCache.Model.Sample
import ImapCache.Proof.Footprints

/-!
# Concurrent changes of flags

Any number of sessions run STORE and UID STORE at once. A command lists the rows of its mailbox,
computes the flags of each target from its listing, and writes them one by one. If every write
finds the flags that its command has listed, the flags end up as if the commands had been executed
one after the other.
-/

namespace ImapCache.Stores
open Lib Prog System Repository Protocol

structure StoreCommand where
  tag : String
  session : Commands.Session
  byUid : Bool
  args : List String
deriving DecidableEq, Repr

def StoreCommand.code (lib : Libraries) (mutationEngine : Bool) (pid : Nat)
    (command : StoreCommand) : Action Commands.Reply :=
  let context : Commands.Context := ⟨lib, mutationEngine, true, command.tag, command.session, pid⟩
  if command.byUid then Commands.uidStore context command.args
  else Commands.store context command.args

@[reducible] def storeSystem (lib : Libraries) (mutationEngine : Bool) :
    System cacheSignature World where
  handler := cacheHandler lib
  Task := StoreCommand
  Out := Commands.Reply
  code := StoreCommand.code lib mutationEngine
  Env := Empty
  disturb := fun change _ => change.elim

/-! ## What one command does -/

/-- The rows that a command changes, from the rows that it has listed. -/
def targets (byUid : Bool) (set : String) (rows : List (Row MailboxMessage)) :
    List (Row MailboxMessage) :=
  if byUid then
    let uids := Commands.parseNumberSet set ((rows.map (·.data.localUid)).max?.getD 0)
    rows.filter fun message => uids.contains message.data.localUid
  else
    (Commands.parseNumberSet set rows.length).filterMap fun sequence => rows[(sequence - 1).toNat]?

inductive Progress where
  | unread (command : StoreCommand)
  | writing (mailboxId : Int) (request : StoreRequest) (rest : List (Row MailboxMessage))
  | failed

/-- The operations of a command that neither read nor write rows of a mailbox. -/
def quiet : Op → Bool
  | .findMailbox .. | .accountIdForMailbox .. | .publishEvent .. | .enqueueMutation ..
  | .refreshMailboxCounts .. | .panic .. => true
  | _ => false

def Progress.Allows : Progress → Op → Prop
  | unread _, op => quiet op = true ∨ ∃ mailboxId, op = .listMailboxMessages mailboxId
  | writing mailboxId request rest, op => quiet op = true ∨ op = .listMailboxMessages mailboxId ∨
      ∃ message rest', rest = message :: rest' ∧ op = .updateMailboxMessageFlags mailboxId
        message.data.localUid (Commands.storedFlags request message)
  | failed, _ => False

def Progress.next : Progress → (op : Op) → Except Error op.Ret → Progress
  | unread command, .listMailboxMessages mailboxId, .ok rows =>
      match parseStoreRequest command.args with
      | .ok request => writing mailboxId request (targets command.byUid request.set rows)
      | .error _ => unread command
  | writing mailboxId request (_ :: rest), .updateMailboxMessageFlags .., .ok _ =>
      writing mailboxId request rest
  | writing .., .updateMailboxMessageFlags .., _ => failed
  | q, _, _ => q

def storeProtocol : Lib.Protocol cacheSignature Progress where
  allows := Progress.Allows
  next := Progress.next
  expects _ _ := True

theorem storeProtocol_sound (lib : Libraries) : storeProtocol.Sound (cacheHandler lib) :=
  fun _ _ _ _ => trivial

/-- A command that is answered has written all its targets. -/
def Ends {α : Type} (outcome : Except Error α) (q : Progress) : Prop :=
  match outcome, q with
  | .ok _, .writing _ _ rest => rest = []
  | .ok _, .failed => False
  | _, _ => True

theorem quiet_allowed {q : Progress} {op : Op} (silent : quiet op = true) (live : q ≠ .failed) :
    q.Allows op := by
  cases q with
  | unread command => exact Or.inl silent
  | writing mailboxId request rest => exact Or.inl silent
  | failed => exact absurd rfl live

theorem quiet_next {q : Progress} {op : Op} (silent : quiet op = true)
    (answer : Except Error op.Ret) : q.next op answer = q := by
  cases op <;> try cases silent
  all_goals cases q <;> first | rfl | (cases ‹List _› <;> rfl)

theorem quiet_follows {α : Type} {p : Action α} (uses : p.Uses (quiet · = true)) {q : Progress}
    (live : q ≠ .failed) : p.Follows storeProtocol (fun _ q' => q' = q) q :=
  uses.follows (fun _ silent => quiet_allowed silent live) fun _ answer silent =>
    quiet_next silent answer

section Follows
variable {mailboxId : Int} {request : StoreRequest} {message : Row MailboxMessage}
  {rest : List (Row MailboxMessage)}

theorem next_listing (listed : Int) (answer : Except Error (List (Row MailboxMessage))) :
    Progress.next (.writing mailboxId request rest) (.listMailboxMessages listed) answer =
      .writing mailboxId request rest := by
  cases rest <;> rfl

theorem writing_live : Progress.writing mailboxId request rest ≠ .failed := nofun

theorem update_follows :
    (updateMailboxMessageFlags mailboxId message.data.localUid
        (Commands.storedFlags request message)).Follows storeProtocol
      (fun outcome q => match outcome with
        | .ok _ => q = .writing mailboxId request rest
        | .error _ => True) (.writing mailboxId request (message :: rest)) := by
  refine follows_ask_bind (Or.inr (Or.inr ⟨message, rest, rfl, rfl⟩)) (fun updated _ => ?_)
    fun _ _ => trivial
  cases updated with
  | none => rfl
  | some updated =>
      refine (quiet_follows (q := .writing mailboxId request rest) ?_ writing_live).mono ?_
      · refine (Uses.ask (by rfl)).bind fun accountId => ?_
        exact Uses.bind (Uses.tell (by rfl)) fun _ => trivial
      · intro outcome q same
        cases outcome with
        | ok row => exact same
        | error failure => trivial

theorem queueFlags_quiet (context : Commands.Context) (accountId localUid : Int)
    (flags : List String) :
    (Commands.queueFlags context accountId mailboxId localUid flags).Uses (quiet · = true) := by
  refine Uses.onlyIf fun _ => Uses.bind ?_ fun _ => trivial
  refine (Uses.ask (by rfl)).bind fun row => ?_
  exact Uses.bind (Uses.tell (by rfl)) fun _ => trivial

theorem refreshMailboxCounts_quiet : (refreshMailboxCounts mailboxId).Uses (quiet · = true) := by
  refine (Uses.ask (by rfl)).bind fun _ => ?_
  exact (Uses.ask (by rfl)).bind fun accountId => Uses.tell (by rfl)

theorem follows_quiet_bind {α β : Type} {p : Action α} {f : α → Action β} {q : Progress}
    (uses : p.Uses (quiet · = true)) (live : q ≠ .failed)
    (next : ∀ value, (f value).Follows storeProtocol Ends q) :
    (p.bind f).Follows storeProtocol Ends q := by
  refine follows_bind ((quiet_follows uses live).mono fun outcome q' same => ?_)
  subst same
  cases outcome with
  | ok value => exact next value
  | error failure => trivial

theorem follows_numberSet {set : String} {maxValue : Int} {q : Progress} (live : q ≠ .failed)
    {post : Except Error (List Int) → Progress → Prop}
    (next : post (.ok (Commands.parseNumberSet set maxValue)) q)
    (failed : ∀ failure, post (.error failure) q) :
    (Commands.numberSet set maxValue).Follows storeProtocol post q := by
  unfold Commands.numberSet
  split
  · exact next
  · refine ⟨quiet_allowed rfl live, fun answer _ => ?_⟩
    cases answer with
    | ok value => exact value.elim
    | error failure =>
        rw [show storeProtocol.next q _ _ = q from quiet_next rfl _]
        exact failed failure

/-- The round of one target, between the rounds before it and after it. -/
def Rounds (mailboxId : Int) (request : StoreRequest) (rest : List (Row MailboxMessage)) {α : Type}
    (outcome : Except Error α) (q : Progress) : Prop :=
  match outcome with
  | .ok _ => q = .writing mailboxId request rest
  | .error _ => True

theorem storeTarget_follows (context : Commands.Context) (accountId : Int) (lines : List String)
    (sequence : Nat) :
    (Commands.storeTarget context accountId mailboxId request lines (sequence, message)).Follows
      storeProtocol (Rounds mailboxId request rest) (.writing mailboxId request (message :: rest)) := by
  refine follows_bind (update_follows.mono fun outcome q same => ?_)
  cases outcome with
  | error failure => trivial
  | ok row =>
      subst same
      refine follows_bind ((quiet_follows (queueFlags_quiet ..) writing_live).mono ?_)
      rintro outcome q rfl
      cases outcome with
      | ok _ => rfl
      | error failure => trivial

theorem uidStoreTarget_follows (lines : List String) :
    (Commands.uidStoreTarget mailboxId request lines message).Follows storeProtocol
      (Rounds mailboxId request rest) (.writing mailboxId request (message :: rest)) := by
  refine follows_bind (update_follows.mono fun outcome q same => ?_)
  cases outcome with
  | error failure => trivial
  | ok row =>
      subst same
      dsimp only
      split
      · rfl
      · refine follows_bind (follows_ask_bind (Or.inr (Or.inl rfl)) (fun rows _ => ?_) ?_)
        · exact next_listing mailboxId (.ok rows)
        · exact fun _ _ => trivial

theorem storeTargets_follows (context : Commands.Context) (accountId : Int)
    (pairs : List (Nat × Row MailboxMessage)) :
    (pairs.foldlM (Commands.storeTarget context accountId mailboxId request) []).Follows
      storeProtocol (Rounds mailboxId request [])
      (.writing mailboxId request (pairs.map (·.2))) := by
  refine follows_foldlM (fun rest q => q = .writing mailboxId request (rest.map (·.2))) rfl ?_ ?_
  · rintro ⟨sequence, message⟩ rest lines q rfl
    refine (storeTarget_follows ..).mono fun outcome q same => ?_
    cases outcome with
    | ok lines => exact same
    | error failure => trivial
  · exact fun lines q same => same

theorem uidStoreTargets_follows (messages : List (Row MailboxMessage)) :
    (messages.foldlM (Commands.uidStoreTarget mailboxId request) []).Follows storeProtocol
      (Rounds mailboxId request []) (.writing mailboxId request messages) := by
  refine follows_foldlM (fun rest q => q = .writing mailboxId request rest) rfl ?_ ?_
  · rintro message rest lines q rfl
    refine (uidStoreTarget_follows ..).mono fun outcome q same => ?_
    cases outcome with
    | ok lines => exact same
    | error failure => trivial
  · exact fun lines q same => same

theorem next_unread {command : StoreCommand} (parsed : parseStoreRequest command.args = .ok request)
    (rows : List (Row MailboxMessage)) :
    Progress.next (.unread command) (.listMailboxMessages mailboxId) (.ok rows) =
      .writing mailboxId request (targets command.byUid request.set rows) := by
  simp only [Progress.next, parsed]

theorem store_follows (context : Commands.Context) {command : StoreCommand}
    (sequence : command.byUid = false) :
    (Commands.store context command.args).Follows storeProtocol Ends (.unread command) := by
  unfold Commands.store
  cases context.session.accountId with
  | none => trivial
  | some accountId =>
      cases context.session.selectedMailboxName with
      | none => trivial
      | some mailboxName =>
          refine follows_ask_bind (Or.inl rfl) (fun mailbox _ => ?_) fun _ _ => trivial
          cases mailbox with
          | none => trivial
          | some mailbox =>
              dsimp only
              split
              · trivial
              · refine follows_ofExcept_bind (fun request parsed => ?_) fun _ _ => trivial
                refine follows_bind (follows_ask_bind (Or.inr ⟨_, rfl⟩) (fun rows _ => ?_) fun _ _ => trivial)
                have read : storeProtocol.next (storeProtocol.next (.unread command)
                    (.findMailbox accountId mailboxName) (.ok (some mailbox)))
                    (.listMailboxMessages mailbox.id) (.ok rows) =
                      .writing mailbox.id request (targets command.byUid request.set rows) :=
                  next_unread parsed rows
                rw [read]
                refine follows_bind (follows_numberSet writing_live ?_ fun _ => trivial)
                dsimp only [pure_eq, Follows]
                have pairs : targets command.byUid request.set rows =
                    ((Commands.parseNumberSet request.set rows.length).filterMap fun sequence =>
                      rows[(sequence - 1).toNat]?.map fun message => (sequence.toNat, message)).map
                        (·.2) := by
                  simp [targets, sequence, List.map_filterMap, Function.comp_def]
                rw [pairs]
                generalize ((Commands.parseNumberSet request.set rows.length).filterMap fun sequence =>
                  rows[(sequence - 1).toNat]?.map fun message => (sequence.toNat, message)) = numbered
                refine follows_bind ((storeTargets_follows ..).mono fun outcome q same => ?_)
                cases outcome with
                | error failure => trivial
                | ok lines =>
                    subst same
                    exact follows_quiet_bind refreshMailboxCounts_quiet writing_live fun _ => rfl

theorem uidStore_follows (context : Commands.Context) {command : StoreCommand}
    (byUid : command.byUid = true) :
    (Commands.uidStore context command.args).Follows storeProtocol Ends (.unread command) := by
  unfold Commands.uidStore Commands.withUidMailbox
  cases context.session.accountId with
  | none => trivial
  | some accountId =>
      cases context.session.selectedMailboxName with
      | none => trivial
      | some mailboxName =>
          refine follows_ask_bind (Or.inl rfl) (fun mailbox _ => ?_) fun _ _ => trivial
          cases mailbox with
          | none => trivial
          | some mailbox =>
              dsimp only
              split
              · trivial
              · refine follows_ofExcept_bind (fun request parsed => ?_) fun _ _ => trivial
                refine follows_bind (follows_ask_bind (Or.inr ⟨_, rfl⟩) (fun rows _ => ?_) fun _ _ => trivial)
                have read : storeProtocol.next (storeProtocol.next (.unread command)
                    (.findMailbox accountId mailboxName) (.ok (some mailbox)))
                    (.listMailboxMessages mailbox.id) (.ok rows) =
                      .writing mailbox.id request (targets command.byUid request.set rows) :=
                  next_unread parsed rows
                rw [read]
                refine follows_bind (follows_numberSet writing_live ?_ fun _ => trivial)
                dsimp only [pure_eq, Follows]
                rw [show targets command.byUid request.set rows = _ by rw [targets, if_pos byUid]]
                refine follows_bind ((uidStoreTargets_follows _).mono fun outcome q same => ?_)
                cases outcome with
                | error failure => trivial
                | ok lines =>
                    subst same
                    refine follows_quiet_bind refreshMailboxCounts_quiet writing_live fun _ => ?_
                    refine follows_quiet_bind (Uses.forEach fun _ _ => queueFlags_quiet ..)
                      writing_live fun _ => rfl

theorem command_follows (lib : Libraries) (mutationEngine : Bool) (pid : Nat)
    (command : StoreCommand) :
    (command.code lib mutationEngine pid).Follows storeProtocol Ends (.unread command) := by
  unfold StoreCommand.code
  dsimp only
  split
  · exact uidStore_follows _ ‹_›
  · exact store_follows _ (by simpa using ‹¬ command.byUid = true›)

end Follows

/-! ## What a run reads and writes of one message -/

variable {lib : Libraries} {mutationEngine : Bool}

def progressOf (trace : List (Transition (storeSystem lib mutationEngine))) (pid : Nat) :
    Option Progress :=
  progress storeProtocol Progress.unread trace pid

/-- The message as a target that a command has still to write. -/
def pending (mailboxId localUid : Int) (pid : Nat) : Option Progress → List (Nat × StoreRequest)
  | some (.writing listed request rest) =>
      if listed = mailboxId then
        (rest.filter (·.data.localUid == localUid)).map fun _ => (pid, request)
      else []
  | _ => []

/-- The message as a target of the command that lists its rows in a step. -/
def addressedIn (mailboxId localUid : Int)
    (older : List (Transition (storeSystem lib mutationEngine)))
    (t : Transition (storeSystem lib mutationEngine)) : List (Nat × StoreRequest) :=
  match t.event with
  | .call pid _ _ _ =>
      match progressOf older pid with
      | some (.unread _) => pending mailboxId localUid pid (progressOf (t :: older) pid)
      | _ => []
  | _ => []

/-- The commands that have the message among their targets, the one that read last first. -/
def addressed (mailboxId localUid : Int) :
    List (Transition (storeSystem lib mutationEngine)) → List (Nat × StoreRequest)
  | [] => []
  | t :: older => addressedIn mailboxId localUid older t ++ addressed mailboxId localUid older

def writtenIn (mailboxId localUid : Int)
    (older : List (Transition (storeSystem lib mutationEngine)))
    (t : Transition (storeSystem lib mutationEngine)) : List (Nat × StoreRequest) :=
  match t.event with
  | .call pid _ (.updateMailboxMessageFlags mailboxId' localUid' flags) fault =>
      match progressOf older pid with
      | some (.writing _ request _) =>
          if mailboxId' = mailboxId ∧ localUid' = localUid ∧ fault.reaches = true ∧
              (t.before.state.db.updateMailboxMessageFlags mailboxId localUid flags).isOk = true then
            [(pid, request)]
          else []
      | _ => []
  | _ => []

/-- The commands that have written the message's flags, the last one first. -/
def written (mailboxId localUid : Int) :
    List (Transition (storeSystem lib mutationEngine)) → List (Nat × StoreRequest)
  | [] => []
  | t :: older => writtenIn mailboxId localUid older t ++ written mailboxId localUid older

/-- A write finds the flags that its command has listed. -/
def writesWhatItRead (older : List (Transition (storeSystem lib mutationEngine)))
    (t : Transition (storeSystem lib mutationEngine)) : Bool :=
  match t.event with
  | .call pid _ (.updateMailboxMessageFlags mailboxId localUid _) _ =>
      match progressOf older pid with
      | some (.writing _ _ (message :: _)) =>
          t.before.state.db.flagsAt mailboxId localUid == some message.data.flags
      | _ => true
  | _ => true

def completes (t : Transition (storeSystem lib mutationEngine)) : Bool :=
  match t.event with
  | .finish _ _ (.error _) | .crash _ _ => false
  | _ => true

def execute (flags : List String) (request : StoreRequest) : List String :=
  Commands.applyStoreFlags flags request.mode request.flags

/-! ## The flags follow the writes -/

theorem allows_cases {q : Progress} {op : Op} (allowed : q.Allows op) :
    (∃ mailboxId request message rest, q = .writing mailboxId request (message :: rest) ∧
      op = .updateMailboxMessageFlags mailboxId message.data.localUid
        (Commands.storedFlags request message)) ∨
    (Component.mailboxMessages ∉ op.writes ∧ ∀ mailboxId localUid flags,
      op ≠ .updateMailboxMessageFlags mailboxId localUid flags) := by
  have silent (holds : quiet op = true) : Component.mailboxMessages ∉ op.writes ∧
      ∀ mailboxId localUid flags, op ≠ .updateMailboxMessageFlags mailboxId localUid flags := by
    cases op <;> first | simp [quiet] at holds; done | simp [Op.writes]
  cases q with
  | unread command =>
      rcases allowed with holds | ⟨mailboxId, rfl⟩
      · exact Or.inr (silent holds)
      · exact Or.inr (by simp [Op.writes])
  | writing mailboxId request rest =>
      rcases allowed with holds | rfl | ⟨message, rest', rfl, rfl⟩
      · exact Or.inr (silent holds)
      · exact Or.inr (by simp [Op.writes])
      · exact Or.inl ⟨mailboxId, request, message, rest', rfl, rfl⟩
  | failed => exact allowed.elim

theorem writtenIn_other {older : List (Transition (storeSystem lib mutationEngine))}
    {before after : Config (storeSystem lib mutationEngine)} {pid : Nat} {command : StoreCommand}
    {op : Op} {fault : Fault Error} {mailboxId localUid : Int}
    (other : ∀ mailboxId localUid flags, op ≠ .updateMailboxMessageFlags mailboxId localUid flags) :
    writtenIn mailboxId localUid older ⟨before, .call pid command op fault, after⟩ = [] := by
  cases op <;> first | exact absurd rfl (other _ _ _) | rfl

theorem flags_write {older : List (Transition (storeSystem lib mutationEngine))}
    {before after : Config (storeSystem lib mutationEngine)} {pid : Nat} {command : StoreCommand}
    {fault : Fault Error} {target : Int} {request : StoreRequest} {message : Row MailboxMessage}
    {rest : List (Row MailboxMessage)}
    (reached : progressOf older pid = some (.writing target request (message :: rest)))
    (read : before.state.db.flagsAt target message.data.localUid = some message.data.flags)
    (mailboxId localUid : Int) :
    ((cacheHandler lib).answer fault (.updateMailboxMessageFlags target message.data.localUid
        (Commands.storedFlags request message)) before.state).2.db.flagsAt mailboxId localUid =
      (before.state.db.flagsAt mailboxId localUid).map fun flags =>
        (writtenIn mailboxId localUid older ⟨before, .call pid command
          (.updateMailboxMessageFlags target message.data.localUid
            (Commands.storedFlags request message)) fault, after⟩).foldl
          (fun flags write => execute flags write.2) flags := by
  simp only [writtenIn, reached]
  cases reaches : fault.reaches with
  | false =>
      rw [Handler.answer_lost _ rfl reaches]
      simp
  | true =>
      rw [Handler.answer_reaches _ _ reaches, cacheHandler_exec, World.perform]
      by_cases here : target = mailboxId ∧ message.data.localUid = localUid
      · obtain ⟨rfl, rfl⟩ := here
        cases result : before.state.db.updateMailboxMessageFlags target message.data.localUid
            (Commands.storedFlags request message) with
        | error failure =>
            simp [World.commit, Except.isOk, Except.toBool]
        | ok updated =>
            have changed := Db.flagsAt_updateMailboxMessageFlags result target message.data.localUid
            simp only [World.commit, changed, and_self, if_true, read, Except.isOk, Except.toBool,
              Option.map_some, List.foldl_cons, List.foldl_nil]
            rfl
      · have elsewhere : ¬ (target = mailboxId ∧ message.data.localUid = localUid ∧ true = true ∧
            (before.state.db.updateMailboxMessageFlags mailboxId localUid
              (Commands.storedFlags request message)).isOk = true) :=
          fun same => here ⟨same.1, same.2.1⟩
        rw [if_neg elsewhere]
        cases result : before.state.db.updateMailboxMessageFlags target message.data.localUid
            (Commands.storedFlags request message) with
        | error failure => simp [World.commit]
        | ok updated =>
            have changed := Db.flagsAt_updateMailboxMessageFlags result mailboxId localUid
            simp [World.commit, changed, here]

theorem flags_step {world : World} {older : List (Transition (storeSystem lib mutationEngine))}
    {c c' : Config (storeSystem lib mutationEngine)} {event : Event (storeSystem lib mutationEngine)}
    (run : Run (idle _ world) older c) (step : Step c event c')
    (reads : writesWhatItRead older ⟨c, event, c'⟩ = true) (mailboxId localUid : Int) :
    c'.state.db.flagsAt mailboxId localUid =
      (c.state.db.flagsAt mailboxId localUid).map fun flags =>
        (writtenIn mailboxId localUid older ⟨c, event, c'⟩).foldl
          (fun flags write => execute flags write.2) flags := by
  cases step with
  | @call pid command op next fault here =>
      obtain ⟨q, reached, allowed⟩ := run.allowed (storeProtocol_sound lib)
        (command_follows lib mutationEngine) (.call fault here)
      rcases allows_cases allowed with
        ⟨target, request, message, rest, rfl, rfl⟩ | ⟨unwritten, other⟩
      · refine flags_write reached ?_ mailboxId localUid
        simpa [writesWhatItRead, progressOf, reached] using reads
      · rw [writtenIn_other other]
        simpa using World.flagsAt_frame lib unwritten fault c.state mailboxId localUid
  | disturb change => exact change.elim
  | _ => simp [writtenIn]

/-- The flags after a run are those before it, changed by the commands in the order of their
writes. -/
theorem flags_run {world : World} {trace : List (Transition (storeSystem lib mutationEngine))}
    {c : Config (storeSystem lib mutationEngine)} (run : Run (idle _ world) trace c)
    (reads : Always (fun older t => writesWhatItRead older t = true) trace)
    (mailboxId localUid : Int) :
    c.state.db.flagsAt mailboxId localUid =
      (world.db.flagsAt mailboxId localUid).map fun flags =>
        ((written mailboxId localUid trace).reverse.map (·.2)).foldl execute flags := by
  induction run with
  | start => simp [written, idle]
  | @step older c event c' run step ih =>
      rw [flags_step run step reads.1, ih reads.2]
      cases world.db.flagsAt mailboxId localUid with
      | none => rfl
      | some flags =>
          have single : ∀ writes : List (Nat × StoreRequest), writes.length ≤ 1 →
              writes.reverse = writes := by
            intro writes short
            match writes, short with
            | [], _ => rfl
            | [_], _ => rfl
          have short : (writtenIn mailboxId localUid older ⟨c, event, c'⟩).length ≤ 1 := by
            unfold writtenIn
            split
            · split
              · split <;> simp
              · simp
            · simp
          simp only [Option.map_some, written, List.reverse_append, List.map_append, List.foldl_append,
            single _ short, List.foldl_map]

/-! ## Every target is written once -/

theorem count_other {older : List (Transition (storeSystem lib mutationEngine))}
    {t : Transition (storeSystem lib mutationEngine)} {pid : Nat} (other : t.event.actor ≠ some pid)
    (mailboxId localUid : Int) (request : StoreRequest) :
    (addressedIn mailboxId localUid older t).count (pid, request) = 0 ∧
      (writtenIn mailboxId localUid older t).count (pid, request) = 0 := by
  have elsewhere {pid' : Nat} (ne : pid' ≠ pid) (q : Option Progress) :
      (pending mailboxId localUid pid' q).count (pid, request) = 0 := by
    rw [List.count_eq_zero]
    unfold pending
    split
    · split
      · simp [ne.symm]
      · exact List.not_mem_nil
    · exact List.not_mem_nil
  obtain ⟨before, event, after⟩ := t
  cases event with
  | call pid' command op fault =>
      have ne : pid' ≠ pid := fun eq => other (congrArg some eq)
      constructor
      · unfold addressedIn
        dsimp only
        split
        · exact elsewhere ne _
        · rfl
      · cases op with
        | updateMailboxMessageFlags mailboxId' localUid' flags =>
            rw [List.count_eq_zero]
            simp only [writtenIn]
            split
            · split
              · simp [ne.symm]
              · exact List.not_mem_nil
            · exact List.not_mem_nil
        | _ => rfl
  | _ => exact ⟨rfl, rfl⟩

/-- Nothing has failed and every target has been written or is still to be written. -/
def Balanced (mailboxId localUid : Int)
    (trace : List (Transition (storeSystem lib mutationEngine))) : Prop :=
  (∃ pid, progressOf trace pid = some .failed) ∨
  ∀ pid request, (addressed mailboxId localUid trace).count (pid, request) =
    (written mailboxId localUid trace).count (pid, request) +
      (pending mailboxId localUid pid (progressOf trace pid)).count (pid, request)

theorem balanced_own {older : List (Transition (storeSystem lib mutationEngine))}
    {t : Transition (storeSystem lib mutationEngine)} {mailboxId localUid : Int} {pid : Nat}
    (own : t.event.actor = some pid)
    (balance : ∀ request, (addressedIn mailboxId localUid older t).count (pid, request) +
      (pending mailboxId localUid pid (progressOf older pid)).count (pid, request) =
        (writtenIn mailboxId localUid older t).count (pid, request) +
          (pending mailboxId localUid pid (progressOf (t :: older) pid)).count (pid, request))
    (before : Balanced mailboxId localUid older) (live : progressOf older pid ≠ some .failed) :
    Balanced mailboxId localUid (t :: older) := by
  have kept {pid' : Nat} (ne : pid' ≠ pid) : t.event.actor ≠ some pid' := by
    rw [own]
    exact fun eq => ne (Option.some.inj eq).symm
  rcases before with ⟨failed, reached⟩ | counts
  · refine Or.inl ⟨failed, ?_⟩
    have ne : failed ≠ pid := by
      rintro rfl
      exact live reached
    exact (progress_other (kept ne)).trans reached
  · refine Or.inr fun pid' request => ?_
    have previous := counts pid' request
    simp only [addressed, written, List.count_append]
    by_cases same : pid' = pid
    · subst same
      have own := balance request
      omega
    · obtain ⟨unread, unwritten⟩ :=
        @count_other _ _ older t pid' (kept same) mailboxId localUid request
      have progress : progressOf (t :: older) pid' = progressOf older pid' :=
        progress_other (kept same)
      rw [unread, unwritten, progress]
      omega

theorem progressOf_call {older : List (Transition (storeSystem lib mutationEngine))}
    {c c' : Config (storeSystem lib mutationEngine)} {pid : Nat} {command : StoreCommand} {op : Op}
    {fault : Fault Error} {q : Progress} (reached : progressOf older pid = some q) :
    progressOf (⟨c, .call pid command op fault, c'⟩ :: older) pid =
      some (q.next op ((cacheHandler lib).answer fault op c.state).1) := by
  have reached' : progress storeProtocol Progress.unread older pid = some q := reached
  simp only [progressOf, progress, if_true, reached', Option.map_some]
  rfl

theorem pending_cons {mailboxId localUid listed : Int} {request : StoreRequest}
    {message : Row MailboxMessage} {rest : List (Row MailboxMessage)} (pid : Nat) :
    pending mailboxId localUid pid (some (.writing listed request (message :: rest))) =
      (if listed = mailboxId ∧ message.data.localUid = localUid then [(pid, request)] else []) ++
        pending mailboxId localUid pid (some (.writing listed request rest)) := by
  unfold pending
  by_cases mailbox : listed = mailboxId
  · by_cases uid : message.data.localUid = localUid
    · simp [mailbox, uid]
    · simp [mailbox, uid]
  · simp [mailbox]

theorem balanced_call {world : World} {older : List (Transition (storeSystem lib mutationEngine))}
    {c c' : Config (storeSystem lib mutationEngine)} {pid : Nat} {command : StoreCommand} {op : Op}
    {fault : Fault Error} (run : Run (idle _ world) older c)
    (step : Step c (.call pid command op fault) c') {mailboxId localUid : Int}
    (before : Balanced mailboxId localUid older) :
    Balanced mailboxId localUid (⟨c, .call pid command op fault, c'⟩ :: older) := by
  obtain ⟨q, reached, allowed⟩ : ∃ q, progressOf older pid = some q ∧ q.Allows op :=
    run.allowed (storeProtocol_sound lib) (command_follows lib mutationEngine) step
  have next : progressOf (⟨c, .call pid command op fault, c'⟩ :: older) pid =
      some (q.next op ((cacheHandler lib).answer fault op c.state).1) := progressOf_call reached
  have live : progressOf older pid ≠ some .failed := by
    rintro failed
    rw [reached] at failed
    cases failed
    exact allowed
  rcases allows_cases allowed with
    ⟨target, request, message, rest, rfl, rfl⟩ | ⟨unwritten, other⟩
  · cases answered : ((cacheHandler lib).answer fault (.updateMailboxMessageFlags target
        message.data.localUid (Commands.storedFlags request message)) c.state).1 with
    | error failure =>
        refine Or.inl ⟨pid, ?_⟩
        rw [next, answered]
        rfl
    | ok updated =>
        refine balanced_own rfl (fun request' => ?_) before live
        rw [next, answered]
        have executed := Handler.answer_ok answered
        have success : ((cacheHandler lib).exec (.updateMailboxMessageFlags target
            message.data.localUid (Commands.storedFlags request message)) c.state).1 = .ok updated := by
          rw [← executed, answered]
        obtain ⟨db', ok⟩ := World.commit_ok success
        have reaches : fault.reaches = true := Handler.answer_ok_reaches rfl answered
        have unread : addressedIn mailboxId localUid older ⟨c, .call pid command
            (.updateMailboxMessageFlags target message.data.localUid
              (Commands.storedFlags request message)) fault, c'⟩ = [] := by
          simp only [addressedIn, reached]
        have write : writtenIn mailboxId localUid older ⟨c, .call pid command
            (.updateMailboxMessageFlags target message.data.localUid
              (Commands.storedFlags request message)) fault, c'⟩ =
            if target = mailboxId ∧ message.data.localUid = localUid then [(pid, request)] else [] := by
          simp only [writtenIn, reached, reaches, true_and]
          by_cases here : target = mailboxId ∧ message.data.localUid = localUid
          · obtain ⟨rfl, rfl⟩ := here
            simp [ok, Except.isOk, Except.toBool]
          · rw [if_neg here, if_neg fun same => here ⟨same.1, same.2.1⟩]
        rw [unread, write, reached, pending_cons, List.count_append]
        exact Nat.zero_add _
  · refine balanced_own rfl (fun request => ?_) before live
    rw [writtenIn_other other, next]
    cases q with
    | unread command' =>
        have read : addressedIn mailboxId localUid older ⟨c, .call pid command op fault, c'⟩ =
            pending mailboxId localUid pid
              (some ((Progress.unread command').next op ((cacheHandler lib).answer fault op c.state).1)) := by
          simp only [addressedIn, reached, next]
        rw [read, reached]
        exact Nat.add_comm _ _
    | writing listed request' rest =>
        have same : (Progress.writing listed request' rest).next op
            ((cacheHandler lib).answer fault op c.state).1 = .writing listed request' rest := by
          cases op <;> first | exact absurd rfl (other _ _ _) | (cases rest <;> rfl)
        simp [same, addressedIn, reached]
    | failed => exact allowed.elim

theorem balanced_run {world : World} {trace : List (Transition (storeSystem lib mutationEngine))}
    {c : Config (storeSystem lib mutationEngine)} (run : Run (idle _ world) trace c)
    (complete : ∀ t ∈ trace, completes t = true) (mailboxId localUid : Int) :
    Balanced mailboxId localUid trace := by
  induction run with
  | start => exact Or.inr fun pid request => rfl
  | @step older c event c' run step ih =>
      have before := ih fun t member => complete t (List.mem_cons_of_mem _ member)
      have last := complete _ (List.mem_cons_self ..)
      have follows (pid : Nat) := run.follows (storeProtocol_sound lib)
        (command_follows lib mutationEngine) pid
      cases step with
      | @spawn pid command free =>
          have idle := follows pid
          rw [free] at idle
          have unstarted : progressOf older pid = none := idle
          refine balanced_own rfl (fun request => ?_) before (by simp [unstarted])
          rw [unstarted]
          simp [addressedIn, writtenIn, pending, progressOf, progress]
      | call fault here => exact balanced_call run (.call fault here) before
      | @returned pid command reply here =>
          have idle := follows pid
          rw [here] at idle
          obtain ⟨q, reached, ends⟩ := idle
          have reached' : progressOf older pid = some q := reached
          cases q with
          | failed => exact ends.elim
          | unread command' =>
              refine balanced_own rfl (fun request => ?_) before (by simp [reached'])
              rw [reached']
              simp [addressedIn, writtenIn, pending, progressOf, progress]
          | writing listed request rest =>
              have done : rest = [] := ends
              subst done
              refine balanced_own rfl (fun request => ?_) before (by simp [reached'])
              rw [reached']
              simp [addressedIn, writtenIn, pending, progressOf, progress]
      | failed here => cases last
      | crash here => cases last
      | disturb change => exact change.elim

/-- Commands that all complete leave the flags of a message as if those that have it among their
targets had been executed one after the other, provided that every write finds the flags that its
command has listed. -/
theorem stores_serialize {world : World} {trace : List (Transition (storeSystem lib mutationEngine))}
    {c : Config (storeSystem lib mutationEngine)} (run : Run (idle _ world) trace c)
    (complete : ∀ t ∈ trace, completes t = true) (finished : ∀ pid ∈ spawned trace, c.procs pid = none)
    (reads : Always (fun older t => writesWhatItRead older t = true) trace)
    (mailboxId localUid : Int) :
    ∃ order : List StoreRequest,
      order.Perm ((addressed mailboxId localUid trace).map (·.2)) ∧
      c.state.db.flagsAt mailboxId localUid =
        (world.db.flagsAt mailboxId localUid).map fun flags => order.foldl execute flags := by
  refine ⟨(written mailboxId localUid trace).reverse.map (·.2), ?_, flags_run run reads _ _⟩
  have ended (pid : Nat) : progressOf trace pid = none := by
    by_contra running
    obtain ⟨q, reached⟩ := Option.ne_none_iff_exists'.mp running
    have follows := run.follows (storeProtocol_sound lib) (command_follows lib mutationEngine) pid
    rw [finished pid (mem_spawned reached)] at follows
    exact running follows
  rcases balanced_run run complete mailboxId localUid with ⟨pid, failed⟩ | counts
  · rw [ended] at failed
    cases failed
  · refine List.Perm.map _ ((List.reverse_perm _).trans (List.perm_iff_count.mpr ?_))
    rintro ⟨pid, request⟩
    have count := counts pid request
    rw [ended] at count
    exact count.symm

def unflagged : Config (storeSystem Sample.libraries false) :=
  idle _ (Sample.world (Sample.db [Sample.mailbox "INBOX" (some 7)] [Sample.row 1 1 (some 1) []])
    (Sample.emptyServer (some 7)))

/-- A change of the message's flags by a client that has selected INBOX. -/
def changing (byUid : Bool) (item flag : String) : StoreCommand :=
  ⟨"a", ⟨some 1, .selectedMailbox "INBOX" false, some 1⟩, byUid, ["1", item, flag]⟩

def steps (pid count : Nat) : List (Label (storeSystem Sample.libraries false)) :=
  List.replicate count (.step pid .none)

/-- The second client starts when the first one is done. -/
def inTurn : List (Label (storeSystem Sample.libraries false)) :=
  Label.spawn 0 (changing false "+FLAGS" "\\Seen") :: steps 0 8 ++ Label.finish 0 ::
    Label.spawn 1 (changing true "+FLAGS" "\\Flagged") :: steps 1 9 ++ [Label.finish 1]

/-- Both clients list the rows before either one writes. -/
def atOnce : List (Label (storeSystem Sample.libraries false)) :=
  Label.spawn 0 (changing false "+FLAGS" "\\Seen") :: steps 0 2 ++
    Label.spawn 1 (changing true "+FLAGS" "\\Flagged") :: steps 1 2 ++ steps 0 6 ++ Label.finish 0 ::
    steps 1 7 ++ [Label.finish 1]

def seenRequest : StoreRequest := ⟨"1", .add, false, ["\\Seen"]⟩
def flaggedRequest : StoreRequest := ⟨"1", .add, false, ["\\Flagged"]⟩

/-- Every command has been answered, and both had the message among their targets. -/
def bothAnswered (trace : List (Transition (storeSystem Sample.libraries false)))
    (c : Config (storeSystem Sample.libraries false)) : Bool :=
  trace.all completes && (spawned trace).all (fun pid => (c.procs pid).isNone) &&
    (addressed 1 1 trace).map (·.2) == [flaggedRequest, seenRequest]

theorem stores_serialize_inTurn :
    ∃ trace c, Run unflagged trace c ∧ bothAnswered trace c = true ∧
      ∃ order : List StoreRequest, order.Perm [flaggedRequest, seenRequest] ∧
        c.state.db.flagsAt 1 1 = some (order.foldl execute []) := by
  have evaluated : (schedule [] unflagged inTurn).map (fun run => bothAnswered run.1 run.2 &&
      decide (Always (fun older t => writesWhatItRead older t = true) run.1)) = some true := by
    decide +kernel
  obtain ⟨⟨trace, c⟩, followed, result⟩ := Option.map_eq_some_iff.mp evaluated
  rw [Bool.and_eq_true, decide_eq_true_eq] at result
  obtain ⟨answered, reads⟩ := result
  have run := schedule_run .start followed
  refine ⟨trace, c, run, answered, ?_⟩
  simp only [bothAnswered, Bool.and_eq_true, List.all_eq_true, Option.isNone_iff_eq_none,
    beq_iff_eq] at answered
  obtain ⟨⟨complete, finished⟩, targets⟩ := answered
  obtain ⟨order, permuted, flags⟩ := stores_serialize run complete finished reads 1 1
  have start : unflagged.state.db.flagsAt 1 1 = some [] := by decide +kernel
  rw [targets] at permuted
  exact ⟨order, permuted, by rw [flags]; exact congrArg _ start⟩

/-- The addition of the first client is lost: neither order of the two commands gives these flags. -/
theorem addition_lost :
    ∃ trace c, Run unflagged trace c ∧ bothAnswered trace c = true ∧
      c.state.db.flagsAt 1 1 = some ["\\Flagged"] ∧
      execute (execute [] seenRequest) flaggedRequest = ["\\Seen", "\\Flagged"] ∧
      execute (execute [] flaggedRequest) seenRequest = ["\\Flagged", "\\Seen"] := by
  have evaluated : (schedule [] unflagged atOnce).map (fun run => bothAnswered run.1 run.2 &&
      run.2.state.db.flagsAt 1 1 == some ["\\Flagged"]) = some true := by
    decide +kernel
  obtain ⟨⟨trace, c⟩, followed, result⟩ := Option.map_eq_some_iff.mp evaluated
  simp only [Bool.and_eq_true, beq_iff_eq] at result
  exact ⟨trace, c, schedule_run .start followed, result.1, result.2, by decide +kernel,
    by decide +kernel⟩

end ImapCache.Stores
