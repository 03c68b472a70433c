import ImapCache.Proof.QuotaProtocol

/-!
# The usage that a quota records

Between the check and the adjustment of an ingestion, other ingestions may adjust the usage, and nothing
takes back what a deleted or replaced message was charged for.
-/

namespace ImapCache.Ingest
open Lib Prog System

/-! ## Steps that keep the usage right -/

section
variable {lib : Libraries} {accountId firstId : Int} {earlier : List (Int × Int)}

def adjusts (accountId : Int) : Event (messageSystem lib) → Bool
  | .call _ _ (.adjustAccountQuotaUsage adjusted _) fault => adjusted == accountId && fault.reaches
  | _ => false

def checks (pid : Nat) : Event (messageSystem lib) → Bool
  | .call caller _ (.getAccountQuota _) _ => caller == pid
  | _ => false

/-- Nobody has adjusted the usage of the account since the process read its quota. -/
def undisturbed (accountId : Int) (pid : Nat) : List (Transition (messageSystem lib)) → Bool
  | [] => true
  | t :: older => checks pid t.event || !adjusts accountId t.event && undisturbed accountId pid older

/-- The account has been charged for the message, or an ingestion of the run has recorded it. -/
def Accounted (firstId : Int) (earlier : List (Int × Int)) (messageId : Int) : Prop :=
  messageId ∈ earlier.map (·.1) ∨ firstId ≤ messageId

instance (firstId : Int) (earlier : List (Int × Int)) (messageId : Int) :
    Decidable (Accounted firstId earlier messageId) := inferInstanceAs (Decidable (_ ∨ _))

/-- An adjustment of the usage is answered, and no other came between the check and it; no message
that is accounted for is deleted or loses its row to another. -/
def careful (accountId firstId : Int) (earlier : List (Int × Int))
    (older : List (Transition (messageSystem lib))) (t : Transition (messageSystem lib)) : Bool :=
  match t.event with
  | .call pid _ (.adjustAccountQuotaUsage adjusted _) fault => decide
      (adjusted = accountId → fault.reaches = true → fault = .none ∧ undisturbed accountId pid older = true)
  | .call _ _ (.insertMailboxMessage input) fault => decide (fault.reaches = true →
      ∀ row ∈ t.before.state.db.mailboxMessages.rows, row.data.mailboxId = input.mailboxId →
        t.before.state.db.chooseLocalUid input.mailboxId input.localUid = .ok row.data.localUid →
        ¬ Accounted firstId earlier row.data.messageId)
  | .call _ _ (.deleteMailboxMessage mailboxId localUid) fault => decide (fault.reaches = true →
      ∀ row ∈ t.before.state.db.mailboxMessages.rows, Db.isLiveAt mailboxId localUid row = true →
        ¬ Accounted firstId earlier row.data.messageId)
  | _ => true

theorem present_iff {db : Db} {messageId : Int} :
    present db messageId = true ↔ ∃ row ∈ db.mailboxMessages.rows, row.data.messageId = messageId := by
  simp [present]

theorem present_frame {op : Op} (untouched : .mailboxMessages ∉ op.writes) (fault : Fault Error) (world : World)
    (messageId : Int) : present ((cacheHandler lib).answer fault op world).2.db messageId =
      present world.db messageId := by
  have same := World.answer_frame lib fault op world .mailboxMessages untouched
  change ((cacheHandler lib).answer fault op world).2.db.mailboxMessages = world.db.mailboxMessages at same
  rw [present, same]
  rfl

theorem answer_keeps {op : Op} {fault : Fault Error} {world : World} (kept : World → Prop)
    (fallible : op.fallible = true) (before : kept world)
    (after : fault.reaches = true → kept (world.perform lib op).2) :
    kept ((cacheHandler lib).answer fault op world).2 := by
  by_cases reaches : fault.reaches = true
  · have state : ((cacheHandler lib).answer fault op world).2 = ((cacheHandler lib).exec op world).2 :=
      Handler.answer_reaches (h := cacheHandler lib) op world reaches
    rw [state]
    exact after reaches
  · have state : ((cacheHandler lib).answer fault op world).2 = world :=
      Handler.answer_lost (h := cacheHandler lib) world fallible (by simpa using reaches)
    rw [state]
    exact before

theorem commit_keeps {α : Type} {world : World} {result : Except Error (α × Db)} (kept : Db → Prop)
    (before : kept world.db) (after : ∀ value db', result = .ok (value, db') → kept db') :
    kept (world.commit result).2.db := by
  cases outcome : result with
  | error failure => exact before
  | ok value => exact after value.1 value.2 (by rw [outcome])

theorem present_insert {world : World} {input : MailboxMessage} {messageId : Int}
    (here : present world.db messageId = true)
    (other : ∀ row ∈ world.db.mailboxMessages.rows, row.data.mailboxId = input.mailboxId →
      world.db.chooseLocalUid input.mailboxId input.localUid = .ok row.data.localUid →
      row.data.messageId ≠ messageId) :
    present (world.perform lib (.insertMailboxMessage input)).2.db messageId = true := by
  refine commit_keeps (fun db => present db messageId = true) here fun value db' ok => ?_
  obtain ⟨row, position⟩ := value
  obtain ⟨put, ⟨modseq, data⟩, chosen, assigned⟩ := Db.insertMailboxMessage_ok ok
  obtain ⟨old, member, same⟩ := present_iff.mp here
  refine present_iff.mpr ⟨old, (put.rows old).mpr (.inr ⟨member, ?_⟩), same⟩
  rintro ⟨mailbox, uid⟩
  have mailboxId : row.data.mailboxId = input.mailboxId := by rw [data]
  refine other old member (mailbox.trans mailboxId) ?_ same
  rw [uid, Db.chooseLocalUid]
  split
  · rename_i zero
    exact assigned zero
  · rename_i nonzero
    rw [chosen nonzero]

theorem present_delete {world : World} {mailboxId localUid messageId : Int}
    (here : present world.db messageId = true)
    (other : ∀ row ∈ world.db.mailboxMessages.rows, Db.isLiveAt mailboxId localUid row = true →
      row.data.messageId ≠ messageId) :
    present (world.perform lib (.deleteMailboxMessage mailboxId localUid)).2.db messageId = true := by
  refine commit_keeps (fun db => present db messageId = true) here fun value db' ok => ?_
  obtain ⟨old, member, same⟩ := present_iff.mp here
  rcases Db.deleteMailboxMessage_ok ok with ⟨-, rfl, -⟩ | ⟨_, _, _, _, drop⟩
  · exact here
  · refine present_iff.mpr ⟨old, (drop.rows old).mpr ⟨member, ?_⟩, same⟩
    rw [Bool.eq_false_iff]
    exact fun live => other old member live same

theorem present_keeps {pid : Nat} {task : MessageTask} {op : Op} {fault : Fault Error} {q : Progress}
    {older : List (Transition (messageSystem lib))} {c c' : Config (messageSystem lib)}
    (allowed : q.Allows op) (cautious : careful accountId firstId earlier older ⟨c, .call pid task op fault, c'⟩ = true)
    {messageId : Int} (here : present c.state.db messageId = true)
    (accounted : Accounted firstId earlier messageId) :
    present ((cacheHandler lib).answer fault op c.state).2.db messageId = true := by
  have frame (untouched : .mailboxMessages ∉ op.writes) :
      present ((cacheHandler lib).answer fault op c.state).2.db messageId = true := by
    rw [present_frame untouched]
    exact here
  have other {id : Int} (free : ¬ Accounted firstId earlier id) : id ≠ messageId :=
    fun same => free (same ▸ accounted)
  cases op with
  | insertMailboxMessage input =>
      refine answer_keeps (fun world => present world.db messageId = true) rfl here fun reaches => ?_
      exact present_insert here fun row member mailbox uid => other (of_decide_eq_true cautious reaches row member mailbox uid)
  | deleteMailboxMessage mailboxId localUid =>
      refine answer_keeps (fun world => present world.db messageId = true) rfl here fun reaches => ?_
      exact present_delete here fun row member live => other (of_decide_eq_true cautious reaches row member live)
  | deleteMailbox _ _ | setMailboxMessageUpstreamUid _ _ _ | updateMailboxMessageFlags _ _ _
  | copyMailboxMessage _ _ _ =>
      cases q with
      | deleting =>
          rcases allowed with ⟨_, _, eq⟩ | quiet
          · cases eq
          · simp [Quiet, Op.writes] at quiet
      | ingesting phase =>
          have quiet := allowed.2
          simp [Quiet, Op.writes] at quiet
  | _ => exact frame (by simp [Op.writes])

def charge (bytes : Int) (quota : Row Quota) : Row Quota :=
  ⟨quota.id, { quota.data with usedBytes := quota.data.usedBytes + bytes }⟩

theorem getAccountQuota_adjusted {db db' : Db} {adjusted bytes : Int} {result : Unit}
    (ok : db.adjustAccountQuotaUsage adjusted bytes = .ok (result, db')) (accountId : Int) :
    db'.getAccountQuota accountId =
      if accountId = adjusted then (db.getAccountQuota accountId).map (charge bytes)
      else db.getAccountQuota accountId := by
  unfold Db.adjustAccountQuotaUsage at ok
  split at ok
  · cases ok
  · split at ok
    · rename_i quotas success
      cases ok
      obtain ⟨rows, -⟩ := Table.modify_eq_some success
      have own (row : Row Quota) : (Table.modified (fun row => row.data.accountId == some adjusted)
          (fun quota => { quota with usedBytes := quota.usedBytes + bytes }) row).data.accountId =
          row.data.accountId := by
        unfold Table.modified
        split <;> rfl
      have found : Db.getAccountQuota { db with quotas } accountId =
          (db.getAccountQuota accountId).map (Table.modified (fun row => row.data.accountId == some adjusted)
            fun quota => { quota with usedBytes := quota.usedBytes + bytes }) := by
        simp only [Db.getAccountQuota, Table.find, rows, List.find?_map]
        congr 2
        funext row
        simp [own]
      rw [found]
      cases quota : db.getAccountQuota accountId with
      | none => simp
      | some row =>
          have account : row.data.accountId = some accountId := by
            simpa using (Table.mem_of_find quota).2
          by_cases same : accountId = adjusted
          · simp [same, Table.modified, charge, account]
          · simp [same, Table.modified, account]
    · cases ok

theorem quota_frame {op : Op} (untouched : .quotas ∉ op.writes) (fault : Fault Error) (world : World)
    (accountId : Int) : ((cacheHandler lib).answer fault op world).2.db.getAccountQuota accountId =
      world.db.getAccountQuota accountId := by
  have same := World.answer_frame lib fault op world .quotas untouched
  change ((cacheHandler lib).answer fault op world).2.db.quotas = world.db.quotas at same
  rw [Db.getAccountQuota, same]
  rfl

theorem quota_keeps {op : Op} (fault : Fault Error) (world : World)
    (elsewhere : ∀ bytes, op = .adjustAccountQuotaUsage accountId bytes → fault.reaches = false) :
    ((cacheHandler lib).answer fault op world).2.db.getAccountQuota accountId =
      world.db.getAccountQuota accountId := by
  cases op with
  | adjustAccountQuotaUsage adjusted bytes =>
      refine answer_keeps (fun after => after.db.getAccountQuota accountId = world.db.getAccountQuota accountId)
        rfl rfl fun reaches => ?_
      have ne : accountId ≠ adjusted := by
        rintro rfl
        rw [elsewhere bytes rfl] at reaches
        cases reaches
      refine commit_keeps (fun db => db.getAccountQuota accountId = world.db.getAccountQuota accountId) rfl
        fun value db' ok => ?_
      rw [getAccountQuota_adjusted ok, if_neg ne]
  | _ => exact quota_frame (by simp [Op.writes]) fault world accountId

theorem nextId_frame {op : Op} (untouched : .messages ∉ op.writes) (fault : Fault Error) (world : World) :
    ((cacheHandler lib).answer fault op world).2.db.messages.nextId = world.db.messages.nextId :=
  congrArg Table.nextId (World.answer_frame lib fault op world .messages untouched)

theorem nextId_keeps (op : Op) (fault : Fault Error) (world : World) :
    world.db.messages.nextId ≤ ((cacheHandler lib).answer fault op world).2.db.messages.nextId := by
  cases op with
  | upsertMessage input =>
      refine answer_keeps (fun after => world.db.messages.nextId ≤ after.db.messages.nextId) rfl le_rfl
        fun reaches => ?_
      refine commit_keeps (fun db => world.db.messages.nextId ≤ db.messages.nextId) le_rfl fun row db' ok => ?_
      obtain ⟨messages, rfl, -, -, next⟩ := Db.upsertMessage_ok ok
      simp only [next]
      omega
  | _ => exact le_of_eq (nextId_frame (by simp [Op.writes]) fault world).symm

/-! ## The usage over a run -/

/-- The usage of the account is within its quota, and it is the bytes of the messages that the account
was charged for and that have not been deleted. -/
def QuotaKept (accountId : Int) (charged : List (Int × Int)) (db : Db) : Prop :=
  ∀ quota, db.getAccountQuota accountId = some quota →
    quota.data.usedBytes ≤ quota.data.maxBytes ∧ quota.data.usedBytes = presentBytes db charged

/-- What an ingestion under way may rely on. -/
structure PhaseHolds (accountId firstId : Int) (older : List (Transition (messageSystem lib))) (world : World)
    (pid : Nat) (phase : Phase) : Prop where
  recorded : ∀ id, phase.message = some id → firstId ≤ id
  placed : phase.placed = true → ∃ id, phase.message = some id ∧ present world.db id = true
  seen : phase.accountId = accountId → ∀ answer, phase.seen = some answer → undisturbed accountId pid older = true →
    world.db.getAccountQuota accountId = answer

structure UsageHolds (accountId firstId : Int) (earlier : List (Int × Int))
    (trace : List (Transition (messageSystem lib))) (c : Config (messageSystem lib)) : Prop where
  kept : ∀ quota, c.state.db.getAccountQuota accountId = some quota →
    quota.data.usedBytes ≤ quota.data.maxBytes ∧
      quota.data.usedBytes = ((ingested accountId trace ++ earlier).map (·.2)).sum
  present : ∀ entry ∈ ingested accountId trace ++ earlier, present c.state.db entry.1 = true
  recorded : ∀ entry ∈ ingested accountId trace, firstId ≤ entry.1
  first : firstId ≤ c.state.db.messages.nextId
  phases : ∀ pid phase, progress quotaProtocol begin trace pid = some (.ingesting phase) →
    PhaseHolds accountId firstId trace c.state pid phase

theorem UsageHolds.quotaKept {trace : List (Transition (messageSystem lib))} {c : Config (messageSystem lib)}
    (holds : UsageHolds accountId firstId earlier trace c) :
    QuotaKept accountId (ingested accountId trace ++ earlier) c.state.db := by
  intro quota found
  obtain ⟨bound, total⟩ := holds.kept quota found
  refine ⟨bound, total.trans ?_⟩
  rw [presentBytes, List.filter_eq_self.mpr holds.present]

theorem UsageHolds.idle {older : List (Transition (messageSystem lib))} {c c' : Config (messageSystem lib)}
    {event : Event (messageSystem lib)} (holds : UsageHolds accountId firstId earlier older c)
    (same : c'.state.db = c.state.db)
    (silent : match event with
      | .call _ _ _ _ => False
      | _ => True)
    (begun : ∀ pid phase, progress quotaProtocol begin (⟨c, event, c'⟩ :: older) pid = some (.ingesting phase) →
      phase.message = none ∧ phase.placed = false ∧ phase.seen = none ∨
        progress quotaProtocol begin older pid = some (.ingesting phase)) :
    UsageHolds accountId firstId earlier (⟨c, event, c'⟩ :: older) c' := by
  have nothing : ingested accountId (⟨c, event, c'⟩ :: older) = ingested accountId older := by
    cases event with
    | call pid task op fault => exact silent.elim
    | _ => rfl
  have still (pid : Nat) :
      undisturbed accountId pid (⟨c, event, c'⟩ :: older) = undisturbed accountId pid older := by
    cases event with
    | call pid task op fault => exact silent.elim
    | _ => rfl
  constructor
  · rw [same, nothing]
    exact holds.kept
  · rw [same, nothing]
    exact holds.present
  · rw [nothing]
    exact holds.recorded
  · rw [same]
    exact holds.first
  · intro pid phase reached
    rcases begun pid phase reached with ⟨unrecorded, unplaced, unseen⟩ | before
    · exact ⟨by simp [unrecorded], by simp [unplaced], by simp [unseen]⟩
    · obtain ⟨recorded, placed, seen⟩ := holds.phases pid phase before
      refine ⟨recorded, ?_, ?_⟩
      · rw [same]
        exact placed
      · rw [same]
        exact fun own answer eq clear => seen own answer eq ((still pid).symm.trans clear)

section
variable {older : List (Transition (messageSystem lib))} {c c' : Config (messageSystem lib)} {pid : Nat}
  {task : MessageTask} {op : Op} {fault : Fault Error} {phase : Phase}

theorem undisturbed_call {other : Nat}
    (clear : undisturbed accountId other (⟨c, .call pid task op fault, c'⟩ :: older) = true) :
    (other = pid ∧ ∃ account, op = .getAccountQuota account) ∨
      (undisturbed accountId other older = true ∧
        ∀ bytes, op = .adjustAccountQuotaUsage accountId bytes → fault.reaches = false) := by
  rw [undisturbed, Bool.or_eq_true, Bool.and_eq_true, Bool.not_eq_true'] at clear
  rcases clear with checked | ⟨elsewhere, clear⟩
  · cases op with
    | getAccountQuota account => exact .inl ⟨(beq_iff_eq.mp checked).symm, account, rfl⟩
    | _ => cases checked
  · refine .inr ⟨clear, fun bytes eq => ?_⟩
    subst eq
    simpa [adjusts] using elsewhere

theorem PhaseHolds.other {other : Nat} {q : Progress} (holds : PhaseHolds accountId firstId older c.state other phase)
    (ne : other ≠ pid) (allowed : q.Allows op)
    (cautious : careful accountId firstId earlier older ⟨c, .call pid task op fault, c'⟩ = true) :
    PhaseHolds accountId firstId (⟨c, .call pid task op fault, c'⟩ :: older)
      ((cacheHandler lib).answer fault op c.state).2 other phase := by
  refine ⟨holds.recorded, fun placed => ?_, fun own answer seen clear => ?_⟩
  · obtain ⟨id, message, here⟩ := holds.placed placed
    exact ⟨id, message, present_keeps allowed cautious here (.inr (holds.recorded id message))⟩
  · rcases undisturbed_call clear with ⟨same, -⟩ | ⟨clear, lost⟩
    · exact absurd same ne
    · rw [quota_keeps fault c.state lost]
      exact holds.seen own answer seen clear

theorem PhaseHolds.own (holds : PhaseHolds accountId firstId older c.state pid phase)
    (first : firstId ≤ c.state.db.messages.nextId) (allowed : phase.Allows op)
    (cautious : careful accountId firstId earlier older ⟨c, .call pid task op fault, c'⟩ = true) :
    PhaseHolds accountId firstId (⟨c, .call pid task op fault, c'⟩ :: older)
      ((cacheHandler lib).answer fault op c.state).2 pid
      (phase.next op ((cacheHandler lib).answer fault op c.state).1) := by
  have stays (id : Int) (message : phase.message = some id) (here : present c.state.db id = true) :
      present ((cacheHandler lib).answer fault op c.state).2.db id = true :=
    present_keeps (q := .ingesting phase) allowed cautious here (.inr (holds.recorded id message))
  have unchanged : PhaseHolds accountId firstId (⟨c, .call pid task op fault, c'⟩ :: older)
      ((cacheHandler lib).answer fault op c.state).2 pid phase := by
    refine ⟨holds.recorded, fun placed => ?_, fun own answer seen clear => ?_⟩
    · obtain ⟨id, message, here⟩ := holds.placed placed
      exact ⟨id, message, stays id message here⟩
    · rcases undisturbed_call clear with ⟨-, account, rfl⟩ | ⟨clear, lost⟩
      · rw [allowed.2.2] at seen
        cases seen
      · rw [quota_keeps fault c.state lost]
        exact holds.seen own answer seen clear
  obtain ⟨recorded, placed, seen⟩ := unchanged
  cases answered : ((cacheHandler lib).answer fault op c.state).1 with
  | error failure =>
      have same : phase.next op (.error failure) = phase := by
        cases op <;> rfl
      rw [same]
      exact ⟨recorded, placed, seen⟩
  | ok value =>
      have performed : (cacheHandler lib).answer fault op c.state = c.state.perform lib op :=
        Handler.answer_ok (h := cacheHandler lib) answered
      cases op with
      | getAccountQuota account =>
          refine ⟨recorded, placed, fun own answer eq _ => ?_⟩
          obtain ⟨-, asked, -⟩ := allowed
          change phase.accountId = accountId at own
          rw [performed] at answered ⊢
          cases answered
          cases eq
          change c.state.db.getAccountQuota accountId = c.state.db.getAccountQuota account
          rw [asked, own]
      | upsertMessage input =>
          have fresh : value.id = c.state.db.messages.nextId := by
            rw [performed] at answered
            cases result : c.state.db.upsertMessage input with
            | error failure =>
                rw [World.perform, World.commit_of_error result] at answered
                cases answered
            | ok stored =>
                rw [World.perform, World.commit_of_ok result] at answered
                cases answered
                obtain ⟨_, -, row, -⟩ := Db.upsertMessage_ok result
                rw [row]
          refine ⟨fun id message => ?_, fun there => ?_, seen⟩
          · cases message
            rw [fresh]
            exact first
          · obtain ⟨id, message, -⟩ := placed there
            rw [allowed.2] at message
            cases message
      | insertMailboxMessage input =>
          have message : phase.message = some input.messageId := allowed.2
          refine ⟨recorded, fun _ => ⟨input.messageId, message, ?_⟩, seen⟩
          rw [performed] at answered ⊢
          cases result : c.state.db.insertMailboxMessage input with
          | error failure =>
              rw [World.perform, World.commit_of_error result] at answered
              cases answered
          | ok stored =>
              obtain ⟨⟨row, position⟩, db'⟩ := stored
              rw [World.perform, World.commit_of_ok result]
              obtain ⟨put, ⟨modseq, data⟩, -⟩ := Db.insertMailboxMessage_ok result
              exact present_iff.mpr ⟨row, (put.rows row).mpr (.inl rfl), by rw [data]⟩
      | adjustAccountQuotaUsage adjusted bytes => exact ⟨recorded, placed, seen⟩
      | _ => exact ⟨recorded, placed, seen⟩

theorem completed_call {next : Except Error op.Ret → Action MessageOutcome}
    (follows : (next ((cacheHandler lib).answer fault op c.state).1).Follows quotaProtocol Ended
      (.ingesting (phase.next op ((cacheHandler lib).answer fault op c.state).1)))
    {target : Target} {raw : Bytes} {parsed : ParsedMessage} (account : phase.accountId = target.accountId)
    (bytes : phase.bytes = messageBytes raw parsed)
    (after : c'.procs pid =
      some (.ingest target raw parsed, next ((cacheHandler lib).answer fault op c.state).1)) :
    let phase' := phase.next op ((cacheHandler lib).answer fault op c.state).1
    let t : Transition (messageSystem lib) := ⟨c, .call pid (.ingest target raw parsed) op fault, c'⟩
    (phase'.charged = false ∧ completed accountId t = none) ∨
      (phase'.charged = true ∧ ∃ id, phase'.message = some id ∧
        completed accountId t = if phase.accountId = accountId then some (id, phase.bytes) else none) := by
  intro phase' t
  cases rest : next ((cacheHandler lib).answer fault op c.state).1 with
  | call op' next' =>
      rw [rest] at follows
      refine .inl ⟨follows.1.1, ?_⟩
      simp only [t, completed, after, rest]
  | throw failure =>
      rw [rest] at follows
      refine .inl ⟨follows phase' rfl, ?_⟩
      simp only [t, completed, after, rest]
  | ret outcome =>
      rw [rest] at follows
      have ended := follows phase' rfl
      cases outcome with
      | deleted count => exact ended.elim
      | ingested message =>
          refine .inr ⟨ended.1, message.messageId, ended.2, ?_⟩
          simp only [t, completed, after, rest, account, bytes]

theorem ingested_cons (t : Transition (messageSystem lib)) :
    ingested accountId (t :: older) = (completed accountId t).toList ++ ingested accountId older := by
  unfold ingested
  cases same : completed accountId t with
  | none => simp [same]
  | some entry => simp [same]

theorem UsageHolds.accounted (holds : UsageHolds accountId firstId earlier older c) {entry : Int × Int}
    (member : entry ∈ ingested accountId older ++ earlier) : Accounted firstId earlier entry.1 := by
  rcases List.mem_append.mp member with new | old
  · exact .inr (holds.recorded entry new)
  · exact .inl (List.mem_map_of_mem old)

theorem UsageHolds.uncharged {q : Progress} (holds : UsageHolds accountId firstId earlier older c)
    (allowed : q.Allows op)
    (cautious : careful accountId firstId earlier older ⟨c, .call pid task op fault, c'⟩ = true)
    (state : c'.state = ((cacheHandler lib).answer fault op c.state).2)
    (nothing : completed accountId ⟨c, .call pid task op fault, c'⟩ = none)
    (same : c'.state.db.getAccountQuota accountId = c.state.db.getAccountQuota accountId)
    (phases : ∀ other phase, progress quotaProtocol begin (⟨c, .call pid task op fault, c'⟩ :: older) other =
      some (.ingesting phase) →
      PhaseHolds accountId firstId (⟨c, .call pid task op fault, c'⟩ :: older) c'.state other phase) :
    UsageHolds accountId firstId earlier (⟨c, .call pid task op fault, c'⟩ :: older) c' := by
  have entries : ingested accountId (⟨c, .call pid task op fault, c'⟩ :: older) = ingested accountId older := by
    rw [ingested_cons, nothing]
    rfl
  refine ⟨?_, ?_, ?_, ?_, phases⟩
  · rw [same, entries]
    exact holds.kept
  · rw [entries, state]
    exact fun entry member => present_keeps allowed cautious (holds.present entry member) (holds.accounted member)
  · rw [entries]
    exact holds.recorded
  · rw [state]
    exact holds.first.trans (nextId_keeps op fault c.state)

theorem UsageHolds.charged {bytes id : Int} (holds : UsageHolds accountId firstId earlier older c)
    (cautious : careful accountId firstId earlier older
      ⟨c, .call pid task (.adjustAccountQuotaUsage accountId bytes) fault, c'⟩ = true)
    (allowed : phase.Allows (.adjustAccountQuotaUsage accountId bytes))
    (phaseHolds : PhaseHolds accountId firstId older c.state pid phase)
    (state : c'.state = ((cacheHandler lib).answer fault (.adjustAccountQuotaUsage accountId bytes) c.state).2)
    (answered : ((cacheHandler lib).answer fault (.adjustAccountQuotaUsage accountId bytes) c.state).1 = .ok ())
    (message : phase.message = some id)
    (done : completed accountId ⟨c, .call pid task (.adjustAccountQuotaUsage accountId bytes) fault, c'⟩ =
      some (id, bytes))
    (phases : ∀ other phase, progress quotaProtocol begin
        (⟨c, .call pid task (.adjustAccountQuotaUsage accountId bytes) fault, c'⟩ :: older) other =
        some (.ingesting phase) →
      PhaseHolds accountId firstId
        (⟨c, .call pid task (.adjustAccountQuotaUsage accountId bytes) fault, c'⟩ :: older) c'.state other phase) :
    UsageHolds accountId firstId earlier
      (⟨c, .call pid task (.adjustAccountQuotaUsage accountId bytes) fault, c'⟩ :: older) c' := by
  have entries : ingested accountId
      (⟨c, .call pid task (.adjustAccountQuotaUsage accountId bytes) fault, c'⟩ :: older) =
      (id, bytes) :: ingested accountId older := by
    rw [ingested_cons, done]
    rfl
  have untouched : .mailboxMessages ∉ (Op.adjustAccountQuotaUsage accountId bytes).writes := by
    simp [Op.writes]
  obtain ⟨-, own, charged, placed, answer, seen, fits⟩ := allowed
  obtain ⟨id', message', here⟩ := phaseHolds.placed placed
  rw [message] at message'
  cases message'
  have reaches : fault.reaches = true := Handler.answer_ok_reaches (h := cacheHandler lib) rfl answered
  obtain ⟨-, clear⟩ := of_decide_eq_true cautious rfl reaches
  have current := phaseHolds.seen own.symm answer seen clear
  refine ⟨?_, ?_, ?_, ?_, phases⟩
  · intro quota found
    rw [state, Handler.answer_ok (h := cacheHandler lib) answered, cacheHandler_exec, World.perform] at found
    rw [Handler.answer_ok (h := cacheHandler lib) answered, cacheHandler_exec, World.perform] at answered
    cases result : c.state.db.adjustAccountQuotaUsage accountId bytes with
    | error failure =>
        rw [World.commit_of_error result] at answered
        cases answered
    | ok adjusted =>
        rw [World.commit_of_ok result] at found
        simp only [getAccountQuota_adjusted result, if_true, Option.map_eq_some_iff] at found
        obtain ⟨before, before_eq, rfl⟩ := found
        obtain ⟨-, total⟩ := holds.kept before before_eq
        have room := fits before (by rw [← current, before_eq])
        rw [← charged] at room
        refine ⟨room, ?_⟩
        rw [entries, List.cons_append, List.map_cons, List.sum_cons, ← total]
        exact Int.add_comm _ _
  · rw [entries, state]
    intro entry member
    rw [present_frame untouched]
    rcases List.mem_cons.mp member with rfl | member
    · exact here
    · exact holds.present entry member
  · rw [entries]
    intro entry member
    rcases List.mem_cons.mp member with rfl | member
    · exact phaseHolds.recorded id message
    · exact holds.recorded entry member
  · rw [state]
    exact holds.first.trans (nextId_keeps _ fault c.state)

theorem charged_call {answer : Except Error op.Ret} (allowed : phase.Allows op)
    (charged : (phase.next op answer).charged = true) :
    op = .adjustAccountQuotaUsage phase.accountId phase.bytes ∧ (∃ value, answer = .ok value) ∧
      (phase.next op answer).message = phase.message := by
  have pending := allowed.1
  cases answer with
  | error failure =>
      have same : phase.next op (.error failure) = phase := by
        cases op <;> rfl
      rw [same, pending] at charged
      cases charged
  | ok value =>
      cases op with
      | adjustAccountQuotaUsage adjusted bytes =>
          obtain ⟨-, rfl, rfl, -⟩ := allowed
          exact ⟨rfl, ⟨value, rfl⟩, rfl⟩
      | _ =>
          change phase.charged = true at charged
          rw [pending] at charged
          cases charged

theorem quota_of_uncharged (cautious : careful accountId firstId earlier older ⟨c, .call pid task op fault, c'⟩ = true)
    (uncharged : (phase.next op ((cacheHandler lib).answer fault op c.state).1).charged = false) :
    ((cacheHandler lib).answer fault op c.state).2.db.getAccountQuota accountId =
      c.state.db.getAccountQuota accountId := by
  by_cases adjusts : ∃ bytes, op = .adjustAccountQuotaUsage accountId bytes ∧ fault.reaches = true
  · obtain ⟨bytes, rfl, reaches⟩ := adjusts
    obtain ⟨rfl, -⟩ := of_decide_eq_true cautious rfl reaches
    rw [Handler.answer_none, cacheHandler_exec, World.perform] at uncharged ⊢
    cases result : c.state.db.adjustAccountQuotaUsage accountId bytes with
    | error failure => rfl
    | ok adjusted =>
        rw [World.commit_of_ok result] at uncharged
        cases uncharged
  · refine quota_keeps fault c.state fun bytes eq => ?_
    by_contra reaches
    exact adjusts ⟨bytes, eq, by simpa using reaches⟩

/-- What a task fixes of the phases of its ingestion. -/
def Belongs : MessageTask → Progress → Prop
  | .ingest target raw parsed, q => ∃ phase, q = .ingesting phase ∧ phase.accountId = target.accountId ∧
      phase.bytes = messageBytes raw parsed
  | .delete _ _, q => q = .deleting

theorem belongs_next (task : MessageTask) (q : Progress) (op : Op) (answer : Except Error op.Ret)
    (belongs : Belongs task q) : Belongs task (q.next op answer) := by
  cases task with
  | delete mailboxId localUid =>
      cases belongs
      rfl
  | ingest target raw parsed =>
      obtain ⟨phase, rfl, account, bytes⟩ := belongs
      have kept : (phase.next op answer).accountId = phase.accountId ∧
          (phase.next op answer).bytes = phase.bytes := by
        cases answer with
        | error failure => cases op <;> exact ⟨rfl, rfl⟩
        | ok value => cases op <;> exact ⟨rfl, rfl⟩
      exact ⟨_, rfl, kept.1.trans account, kept.2.trans bytes⟩

theorem belongs_begin (task : MessageTask) : Belongs task (begin task) := by
  cases task with
  | delete mailboxId localUid => rfl
  | ingest target raw parsed => exact ⟨_, rfl, rfl, rfl⟩

end

theorem UsageHolds.call {world : World} {older : List (Transition (messageSystem lib))}
    {c : Config (messageSystem lib)} {pid : Nat} {task : MessageTask} {op : Op} {fault : Fault Error}
    {next : Except Error op.Ret → Action MessageOutcome} (run : Run ((messageSystem lib).idle world) older c)
    (holds : UsageHolds accountId firstId earlier older c) (here : c.procs pid = some (task, .call op next))
    {c' : Config (messageSystem lib)} (state : c'.state = ((cacheHandler lib).answer fault op c.state).2)
    (procs : c'.procs = Function.update c.procs pid
      (some (task, next ((cacheHandler lib).answer fault op c.state).1)))
    (cautious : careful accountId firstId earlier older ⟨c, .call pid task op fault, c'⟩ = true) :
    UsageHolds accountId firstId earlier (⟨c, .call pid task op fault, c'⟩ :: older) c' := by
  have follows := run.follows (quotaProtocol_sound lib) (fun _ task => code_follows lib task) pid
  rw [here] at follows
  obtain ⟨q, reached, allowed, follows⟩ := follows
  change q.Allows op at allowed
  obtain ⟨q', reached', belongs⟩ := run.progress_task (π := quotaProtocol) belongs_begin belongs_next here
  cases reached.symm.trans reached'
  have moved : progress quotaProtocol begin (⟨c, .call pid task op fault, c'⟩ :: older) pid =
      some (q.next op ((cacheHandler lib).answer fault op c.state).1) := by
    simp only [progress, if_true, reached, Option.map_some]
    rfl
  have others {other : Nat} {phase : Phase} (ne : other ≠ pid)
      (there : progress quotaProtocol begin (⟨c, .call pid task op fault, c'⟩ :: older) other =
        some (.ingesting phase)) :
      PhaseHolds accountId firstId (⟨c, .call pid task op fault, c'⟩ :: older) c'.state other phase := by
    have idle : (.call pid task op fault : Event (messageSystem lib)).actor ≠ some other :=
      fun eq => ne (Option.some.inj eq).symm
    rw [progress_other idle] at there
    rw [state]
    exact (holds.phases other phase there).other ne allowed cautious
  have continued := follows _ ((quotaProtocol_sound lib).possible fault op c.state)
  cases task with
  | delete mailboxId localUid =>
      cases belongs
      have unadjusted (bytes : Int) (eq : op = .adjustAccountQuotaUsage accountId bytes) : fault.reaches = false := by
        subst eq
        rcases allowed with ⟨_, _, eq⟩ | quiet
        · cases eq
        · simp [Quiet, Op.writes] at quiet
      refine holds.uncharged allowed cautious state rfl ?_ fun other phase there => ?_
      · rw [state]
        exact quota_keeps fault c.state unadjusted
      · by_cases ne : other = pid
        · subst ne
          rw [moved] at there
          cases there
        · exact others ne there
  | ingest target raw parsed =>
      obtain ⟨phase, rfl, account, bytes⟩ := belongs
      have own := holds.phases pid phase reached
      have phases (other : Nat) (phase' : Phase)
          (there : progress quotaProtocol begin
            (⟨c, .call pid (.ingest target raw parsed) op fault, c'⟩ :: older) other = some (.ingesting phase')) :
          PhaseHolds accountId firstId (⟨c, .call pid (.ingest target raw parsed) op fault, c'⟩ :: older)
            c'.state other phase' := by
        by_cases ne : other = pid
        · subst ne
          rw [moved] at there
          cases there
          rw [state]
          exact own.own holds.first allowed cautious
        · exact others ne there
      have after : c'.procs pid = some (.ingest target raw parsed,
          next ((cacheHandler lib).answer fault op c.state).1) := by
        rw [procs, Function.update_self]
      rcases completed_call continued account bytes after with ⟨uncharged, nothing⟩ | ⟨charged, id, message, done⟩
      · refine holds.uncharged allowed cautious state nothing ?_ phases
        rw [state]
        exact quota_of_uncharged cautious uncharged
      · obtain ⟨rfl, ⟨_, answered⟩, same⟩ := charged_call allowed charged
        by_cases own' : phase.accountId = accountId
        · subst own'
          rw [if_pos rfl] at done
          exact holds.charged cautious allowed own state answered (same ▸ message) done phases
        · rw [if_neg own'] at done
          refine holds.uncharged allowed cautious state done ?_ phases
          rw [state]
          refine quota_keeps fault c.state fun bytes' eq => ?_
          cases eq
          exact absurd rfl own'

end

/-- In every run from a state in which the usage is right, and whose steps are all careful, the usage
stays within the quota and is the bytes of the messages that have been ingested and not deleted. -/
theorem quota_kept (lib : Libraries) (accountId : Int) (world : World) (earlier : List (Int × Int))
    (there : ∀ entry ∈ earlier, present world.db entry.1 = true) (right : QuotaKept accountId earlier world.db)
    {trace : List (Transition (messageSystem lib))} {c : Config (messageSystem lib)}
    (run : Run ((messageSystem lib).idle world) trace c)
    (cautious : Always (fun older t => careful accountId world.db.messages.nextId earlier older t = true) trace) :
    QuotaKept accountId (ingested accountId trace ++ earlier) c.state.db := by
  have holds : UsageHolds accountId world.db.messages.nextId earlier trace c := by
    have initially : UsageHolds accountId world.db.messages.nextId earlier [] ((messageSystem lib).idle world) := by
      refine ⟨fun quota found => ?_, there, nofun, le_rfl, fun pid phase reached => ?_⟩
      · obtain ⟨bound, total⟩ := right quota found
        refine ⟨bound, total.trans ?_⟩
        rw [presentBytes, List.filter_eq_self.mpr there]
        rfl
      · cases reached
    refine run.invariant initially ?_ cautious
    intro older c event c' run step cautious holds
    cases step with
    | call fault here => exact holds.call run here rfl rfl cautious
    | @spawn pid task free =>
        refine holds.idle rfl trivial fun other phase reached => ?_
        by_cases same : pid = other
        · simp only [progress, same, if_true, Option.some.injEq] at reached
          cases task with
          | delete mailboxId localUid => cases reached
          | ingest target raw parsed =>
              cases reached
              exact .inl ⟨rfl, rfl, rfl⟩
        · simp only [progress, same, if_false] at reached
          exact .inr reached
    | @returned pid _ _ here | @failed pid _ _ here | @crash pid _ _ here =>
        refine holds.idle rfl trivial fun other phase reached => ?_
        by_cases same : pid = other
        · simp [progress, same] at reached
        · simp only [progress, same, if_false] at reached
          exact .inr reached
    | disturb change => exact holds.idle rfl trivial fun other phase reached => .inr reached
  exact holds.quotaKept

/-! ## Overlapping ingestions and deletions -/

def hiTarget : Target where
  accountId := 1
  mailboxId := 1
  mailboxName := "INBOX"
  localUid := 0
  upstreamUid := none
  internalDate := none
  flags := []
  indexed := false

/-- A mailbox and a quota, of which nothing is used. -/
def quotaWorld (rows : List MailboxMessage) (maxBytes : Int) : World :=
  Sample.world { Sample.db [Sample.mailbox "INBOX" (some 7)] rows with
    quotas := .ofList [⟨some 1, maxBytes, 0⟩] } (Sample.emptyServer (some 7))

/-- The ingestion of 23 bytes, which takes 13 calls. -/
def hiTask : MessageTask :=
  .ingest hiTarget Sample.hiMessage (Sample.parsedText Sample.hiMessage "hi")

abbrev emptyStart : Config (messageSystem Sample.libraries) :=
  (messageSystem Sample.libraries).idle (quotaWorld [] 40)

/-- The mailbox has a message that nothing was charged for. -/
abbrev unchargedStart : Config (messageSystem Sample.libraries) :=
  (messageSystem Sample.libraries).idle (quotaWorld [Sample.row 1 1 none []] 60)

/-- Two ingestions, and a deletion of the message that was there before. -/
def ingestTwice : List (Label (messageSystem Sample.libraries)) :=
  whole 1 hiTask 13 ++ whole 2 hiTask 13 ++ whole 3 (MessageTask.delete 1 1) 5

/-- Two ingestions that both check the quota before one of them adjusts it. -/
def twoIngestions : List (Label (messageSystem Sample.libraries)) :=
  Label.spawn 1 hiTask :: Label.spawn 2 hiTask :: List.replicate 12 (Label.step 1 .none) ++
    List.replicate 13 (Label.step 2 .none) ++ [Label.step 1 .none]

def ingestionAndDeletion : List (Label (messageSystem Sample.libraries)) :=
  whole 1 hiTask 13 ++ [Label.spawn 2 (MessageTask.delete 1 1), Label.step 2 .none]

/-- The used and the allowed bytes of the account, and the bytes of the messages that are left. -/
def usage (trace : List (Transition (messageSystem Sample.libraries)))
    (c : Config (messageSystem Sample.libraries)) : Option (Int × Int) × Int :=
  ((c.state.db.getAccountQuota 1).map fun quota => (quota.data.usedBytes, quota.data.maxBytes),
    presentBytes c.state.db (ingested 1 trace))

theorem quotaWorld_right (rows : List MailboxMessage) {maxBytes : Int} (allowed : 0 ≤ maxBytes) :
    QuotaKept 1 [] (quotaWorld rows maxBytes).db := by
  intro quota found
  have used : (quotaWorld rows maxBytes).db.getAccountQuota 1 = some ⟨1, ⟨some 1, maxBytes, 0⟩⟩ := rfl
  cases used.symm.trans found
  exact ⟨allowed, rfl⟩

/-- Two ingestions one after the other are careful, and so is the deletion of a message that was not charged
for. -/
theorem quota_kept_twoIngestions : ∃ trace c, Run unchargedStart trace c ∧
    usage trace c = (some (46, 60), 46) ∧ QuotaKept 1 (ingested 1 trace ++ []) c.state.db := by
  have evaluated : (schedule [] unchargedStart ingestTwice).map (fun run => (usage run.1 run.2,
      decide (Always (fun older t =>
        careful 1 unchargedStart.state.db.messages.nextId [] older t = true) run.1))) =
      some ((some (46, 60), 46), true) := by
    decide +kernel
  obtain ⟨⟨trace, c⟩, followed, result⟩ := Option.map_eq_some_iff.mp evaluated
  simp only [Prod.mk.injEq, decide_eq_true_eq] at result
  have run := schedule_run .start followed
  exact ⟨trace, c, run, result.1, quota_kept Sample.libraries 1 _ [] nofun
    (quotaWorld_right _ (by decide)) run result.2⟩

/-- Two overlapping ingestions use more than the quota allows, and a deletion gives nothing back. -/
theorem quota_broken : QuotaKept 1 [] emptyStart.state.db ∧
    (∃ trace c, Run emptyStart trace c ∧ (usage trace c).1 = some (46, 40)) ∧
    ∃ trace c, Run emptyStart trace c ∧ usage trace c = (some (23, 40), 0) := by
  have exceeded : (schedule [] emptyStart twoIngestions).map (fun run => (usage run.1 run.2).1) =
      some (some (46, 40)) := by
    decide +kernel
  have unreturned : (schedule [] emptyStart ingestionAndDeletion).map (fun run => usage run.1 run.2) =
      some (some (23, 40), 0) := by
    decide +kernel
  obtain ⟨⟨trace, c⟩, followed, result⟩ := Option.map_eq_some_iff.mp exceeded
  obtain ⟨⟨trace', c'⟩, followed', result'⟩ := Option.map_eq_some_iff.mp unreturned
  exact ⟨quotaWorld_right [] (by decide), ⟨trace, c, schedule_run .start followed, result⟩,
    trace', c', schedule_run .start followed', result'⟩

end ImapCache.Ingest
