import ImapCache.Lib.Rows
import ImapCache.Lib.System
import ImapCache.Model.Sample
import ImapCache.Model.Session
import ImapCache.Proof.Footprints
import ImapCache.Proof.MailboxRows

/-!
# Names of mailboxes

Any number of CREATE, DELETE, RENAME, SUBSCRIBE and UNSUBSCRIBE commands and of syncs run at once. All
that write a name write its lowercase form beside it, so that a name addresses at most one mailbox of
an account, in whatever case it is given.
-/

namespace ImapCache.MailboxNames
open Lib Prog System

inductive NamingTask where
  | create (session : Session.ImapSession) (tag : String) (args : List String)
  | delete (session : Session.ImapSession) (tag : String) (args : List String)
  | rename (session : Session.ImapSession) (tag : String) (args : List String)
  | subscribe (session : Session.ImapSession) (tag : String) (args : List String)
  | unsubscribe (session : Session.ImapSession) (tag : String) (args : List String)
  | syncAccount (accountId : Int)
  | syncMailbox (accountId : Int) (mailboxName : String)

structure Deployment where
  lib : Libraries
  services : Session.AppServices
  lockManager : Bool

def Deployment.request (deployment : Deployment) (pid : Nat) (session : Session.ImapSession)
    (tag name : String) (args : List String) : Session.Request :=
  ⟨deployment.lib, deployment.services, pid, session, tag, name, args, none⟩

def NamingTask.code (deployment : Deployment) (pid : Nat) : NamingTask → Action Unit
  | create session tag args =>
      (Session.create (deployment.request pid session tag "CREATE" args)).bind fun _ => .ret ()
  | delete session tag args =>
      (Session.delete (deployment.request pid session tag "DELETE" args)).bind fun _ => .ret ()
  | rename session tag args =>
      (Session.rename (deployment.request pid session tag "RENAME" args)).bind fun _ => .ret ()
  | subscribe session tag args =>
      (Session.subscribe (deployment.request pid session tag "SUBSCRIBE" args)).bind fun _ => .ret ()
  | unsubscribe session tag args =>
      (Session.subscribe (deployment.request pid session tag "UNSUBSCRIBE" args)).bind fun _ => .ret ()
  | syncAccount accountId =>
      (Sync.syncAccount deployment.lib deployment.lockManager accountId pid).bind fun _ => .ret ()
  | syncMailbox accountId mailboxName =>
      (Sync.syncMailbox deployment.lib accountId mailboxName pid).bind fun _ => .ret ()

def namingSystem (deployment : Deployment) : System cacheSignature World where
  handler := cacheHandler deployment.lib
  Task := NamingTask
  Out := Unit
  code := NamingTask.code deployment
  Env := Environment
  disturb := Environment.disturb

variable {deployment : Deployment}

def CanonicalName (mailbox : Mailbox) : Prop := mailbox.canonicalName = toAsciiLowercase mailbox.name

def Canonical (db : Db) : Prop := ∀ row ∈ db.mailboxes.rows, CanonicalName row.data

/-! ## What writes names -/

def NamingOp : Op → Prop
  | .upsertMailbox input => CanonicalName input
  | .createMailbox input => CanonicalName input
  | _ => True

theorem namingOp_of_syncing (op : Op) (syncing : op.syncing = true) : NamingOp op := by
  cases op with
  | upsertMailbox input =>
      have synced : input = Sync.syncedMailbox input.accountId input.name := beq_iff_eq.mp syncing
      exact congrArg Mailbox.canonicalName synced
  | createMailbox input => cases syncing
  | _ => trivial

theorem canonicalMailboxName_eq (name : String) : Session.canonicalMailboxName name = toAsciiLowercase name := by
  unfold Session.canonicalMailboxName
  split
  · rename_i same
    exact (beq_iff_eq.mp same).symm
  · rfl

theorem onMailbox_uses {request : Session.Request} {body : Int → String → Action Session.Response}
    (uses : ∀ accountId name, (body accountId name).Uses NamingOp) :
    (Session.onMailbox request body).Uses NamingOp := by
  unfold Session.onMailbox Session.Request.withAccount
  split
  · split
    · trivial
    · split
      · trivial
      · exact uses _ _
  · trivial

theorem create_uses (request : Session.Request) : (Session.create request).Uses NamingOp := by
  refine onMailbox_uses fun accountId name => Uses.bind ?_ fun created => ?_
  · refine (Uses.ask (canonicalMailboxName_eq name)).bind fun created => ?_
    exact (Uses.forEach fun _ _ => Uses.tell trivial).bind fun _ => trivial
  · split <;> trivial

theorem delete_uses (request : Session.Request) : (Session.delete request).Uses NamingOp := by
  refine onMailbox_uses fun accountId name => Uses.bind ?_ fun rows => ?_
  · exact (Uses.ask trivial).bind fun rows => (Uses.onlyIf fun _ => Uses.tell trivial).bind fun _ => trivial
  · split <;> trivial

theorem subscribe_uses (request : Session.Request) : (Session.subscribe request).Uses NamingOp := by
  refine onMailbox_uses fun accountId name => Uses.bind ?_ fun updated => ?_
  · exact (Uses.ask trivial).bind fun updated => (Uses.forEach fun _ _ => Uses.tell trivial).bind fun _ => trivial
  · split <;> trivial

theorem rename_uses (request : Session.Request) : (Session.rename request).Uses NamingOp := by
  unfold Session.rename Session.Request.withAccount
  split
  · split
    · trivial
    · split
      · split
        · refine Uses.bind ?_ fun renamed => ?_
          · refine (Uses.ask trivial).bind fun taken => ?_
            split
            · trivial
            · exact (Uses.ask trivial).bind fun renamed => (Uses.forEach fun _ _ => Uses.tell trivial).bind fun _ => trivial
          · split <;> trivial
        · trivial
      · trivial
  · trivial

theorem code_uses (pid : Nat) (task : NamingTask) : (task.code deployment pid).Uses NamingOp := by
  cases task with
  | create session tag args => exact (create_uses _).bind fun _ => trivial
  | delete session tag args => exact (delete_uses _).bind fun _ => trivial
  | rename session tag args => exact (rename_uses _).bind fun _ => trivial
  | subscribe session tag args => exact (subscribe_uses _).bind fun _ => trivial
  | unsubscribe session tag args => exact (subscribe_uses _).bind fun _ => trivial
  | syncAccount accountId =>
      exact ((Sync.syncAccount_uses ..).mono namingOp_of_syncing).bind fun _ => trivial
  | syncMailbox accountId mailboxName =>
      exact ((Sync.syncMailbox_uses ..).mono namingOp_of_syncing).bind fun _ => trivial

/-! ## Runs -/

theorem canonical_of_effect {op : Op} (naming : NamingOp op) {before after : Option (Row Mailbox)}
    (effect : MailboxEffect op before after) (canonical : ∀ row, before = some row → CanonicalName row.data)
    {row : Row Mailbox} (there : after = some row) : CanonicalName row.data := by
  cases effect with
  | same => exact canonical row there
  | created insert =>
      cases there
      rcases insert with rfl | rfl
      · exact naming
      · exact naming
  | overwritten upsert account name =>
      cases there
      subst upsert
      exact naming
  | removed delete named => cases there
  | subscribed subscribe named =>
      have same := canonical _ rfl
      cases there
      exact same
  | renamed rename named =>
      cases there
      rfl
  | selected update =>
      have same := canonical _ rfl
      cases there
      exact same
  | counted refresh =>
      have same := canonical _ rfl
      cases there
      exact same
  | sequenced advance higher =>
      have same := canonical _ rfl
      cases there
      exact same

theorem canonical_step {c c' : Config (namingSystem deployment)} {event : Event (namingSystem deployment)}
    (step : Step c event c') (naming : ∀ pid task op fault, event = .call pid task op fault → NamingOp op)
    (canonical : Canonical c.state.db) : Canonical c'.state.db := by
  cases step with
  | @call pid task op next fault here =>
      intro row member
      have there : ((cacheHandler deployment.lib).answer fault op c.state).2.db.mailbox row.id = some row :=
        Db.mailbox_some.mpr ⟨member, rfl⟩
      refine canonical_of_effect (naming pid task op fault rfl)
        (World.answer_mailbox deployment.lib fault op c.state row.id).1 (fun old found => ?_) there
      exact canonical old (Db.mailbox_some.mp found).1
  | spawn _ => exact canonical
  | returned _ => exact canonical
  | failed _ => exact canonical
  | crash _ => exact canonical
  | disturb change => cases change <;> exact canonical

theorem run_canonical {start : World} (canonical : Canonical start.db)
    {trace : List (Transition (namingSystem deployment))} {c : Config (namingSystem deployment)}
    (run : Run ((namingSystem deployment).idle start) trace c) : Canonical c.state.db := by
  induction run with
  | start => exact canonical
  | step run step ih =>
      refine canonical_step step (fun pid task op fault same => ?_) ih
      subst same
      exact run.uses (fun pid task => code_uses pid task) step

/-! ## What a name addresses -/

/-- The mailboxes of an account that the statements find under a name. -/
def addressed (db : Db) (accountId : Int) (mailboxName : String) : List (Row Mailbox) :=
  db.mailboxes.rows.filter (Db.namedMailbox accountId mailboxName)

section
variable {db db' : Db} {accountId : Int} {mailboxName : String}

theorem namedMailbox_iff {row : Row Mailbox} (canonical : CanonicalName row.data) :
    Db.namedMailbox accountId mailboxName row = true ↔
      row.data.accountId = accountId ∧ row.data.canonicalName = toAsciiLowercase mailboxName := by
  simp only [Db.namedMailbox, Bool.and_eq_true, Bool.or_eq_true, beq_iff_eq]
  refine and_congr_right fun _ => ⟨?_, Or.inr⟩
  rintro (same | same)
  · rw [canonical, same]
  · exact same

theorem addressed_unique (canonical : Canonical db) {a b : Row Mailbox} (ha : a ∈ addressed db accountId mailboxName)
    (hb : b ∈ addressed db accountId mailboxName) : a = b := by
  obtain ⟨memberA, namedA⟩ := List.mem_filter.mp ha
  obtain ⟨memberB, namedB⟩ := List.mem_filter.mp hb
  obtain ⟨accountA, nameA⟩ := (namedMailbox_iff (canonical a memberA)).mp namedA
  obtain ⟨accountB, nameB⟩ := (namedMailbox_iff (canonical b memberB)).mp namedB
  refine Table.eq_of_clash memberA memberB (admits_false fun admits => ?_)
  exact (mailboxKeys_admits _ _).mp admits (accountA.trans accountB.symm) (nameA.trans nameB.symm)

theorem addressed_length (canonical : Canonical db) : (addressed db accountId mailboxName).length ≤ 1 := by
  match same : addressed db accountId mailboxName with
  | [] => exact Nat.zero_le 1
  | [_] => exact le_rfl
  | a :: b :: rest =>
      have distinct : (addressed db accountId mailboxName).Nodup := (Table.nodup db.mailboxes).filter _
      have first : a ∈ addressed db accountId mailboxName := by simp [same]
      have second : b ∈ addressed db accountId mailboxName := by simp [same]
      have eq := addressed_unique canonical first second
      rw [same] at distinct
      exact absurd (eq ▸ List.mem_cons_self ..) (List.nodup_cons.mp distinct).1

theorem addressed_congr (canonical : Canonical db) {variant : String}
    (same : toAsciiLowercase variant = toAsciiLowercase mailboxName) :
    addressed db accountId variant = addressed db accountId mailboxName := by
  refine List.filter_congr fun row member => ?_
  rw [Bool.eq_iff_iff, namedMailbox_iff (canonical row member), namedMailbox_iff (canonical row member), same]

/-- What the four methods do under a name, and that they do it to one mailbox at most. -/
structure AddressesOne (db : Db) (accountId : Int) (mailboxName : String) : Prop where
  atMostOne : (addressed db accountId mailboxName).length ≤ 1
  find : db.findMailbox accountId mailboxName = (addressed db accountId mailboxName).head?
  delete : (db.deleteMailbox accountId mailboxName).1 = (addressed db accountId mailboxName).length ∧
    ∀ row, row ∈ (db.deleteMailbox accountId mailboxName).2.mailboxes.rows ↔
      row ∈ db.mailboxes.rows ∧ row ∉ addressed db accountId mailboxName
  rename : ∀ newName result db', db.renameMailbox accountId mailboxName newName = .ok (result, db') →
    result.map (·.id) = (addressed db accountId mailboxName).head?.map (·.id) ∧
      ∀ row ∈ db.mailboxes.rows, row ∉ addressed db accountId mailboxName → row ∈ db'.mailboxes.rows
  subscribe : ∀ subscribed result db', db.setMailboxSubscribed accountId mailboxName subscribed = .ok (result, db') →
    result.map (·.id) = (addressed db accountId mailboxName).head?.map (·.id) ∧
      ∀ row ∈ db.mailboxes.rows, row ∉ addressed db accountId mailboxName → row ∈ db'.mailboxes.rows
  variants : ∀ variant, toAsciiLowercase variant = toAsciiLowercase mailboxName →
    addressed db accountId variant = addressed db accountId mailboxName

/-- An update of the mailboxes of a name returns the one that it addresses, and changes no other. -/
theorem updateNamedMailbox_addressed {change : Mailbox → Mailbox} {result : Option (Row Mailbox)}
    (ok : db.updateNamedMailbox accountId mailboxName change = .ok (result, db')) :
    result.map (·.id) = (addressed db accountId mailboxName).head?.map (·.id) ∧
      ∀ row ∈ db.mailboxes.rows, row ∉ addressed db accountId mailboxName → row ∈ db'.mailboxes.rows := by
  unfold Db.updateNamedMailbox at ok
  split at ok
  · cases ok
  · rename_i mailboxes changed
    cases ok
    have first : (addressed db accountId mailboxName).head? = db.mailboxes.find (Db.namedMailbox accountId mailboxName) :=
      List.head?_filter
    refine ⟨?_, fun row member apart => ?_⟩
    · rw [first]
      cases found : db.mailboxes.find (Db.namedMailbox accountId mailboxName) with
      | none => rfl
      | some old =>
          obtain ⟨member, named⟩ := Table.mem_of_find found
          have there : mailboxes.find (·.id == old.id) = some (Table.modified (Db.namedMailbox accountId mailboxName) change old) :=
            Table.find_id.mpr ⟨(Table.mem_modify changed _).mpr ⟨old, member, rfl⟩, Table.modified_id ..⟩
          rw [Option.bind_some, there, Option.map_some, Option.map_some, Table.modified_id]
    · refine (Table.mem_modify changed _).mpr ⟨row, member, ?_⟩
      have unnamed : Db.namedMailbox accountId mailboxName row = false := by
        rw [Bool.eq_false_iff]
        exact fun named => apart (List.mem_filter.mpr ⟨member, named⟩)
      simp [Table.modified, unnamed]

theorem addressesOne (canonical : Canonical db) : AddressesOne db accountId mailboxName := by
  have short : (addressed db accountId mailboxName).length ≤ 1 := addressed_length canonical
  refine ⟨short, ?_, ⟨rfl, fun row => ?_⟩, fun newName result db' ok => updateNamedMailbox_addressed ok,
    fun subscribed result db' ok => updateNamedMailbox_addressed ok, fun variant same => addressed_congr canonical same⟩
  · have sorted : ∀ rows : List (Row Mailbox), rows.length ≤ 1 →
        (rows.insertionSort fun a b => b.id ≤ a.id).head? = rows.head? := by
      rintro (- | ⟨row, - | ⟨other, rest⟩⟩) few
      · rfl
      · rfl
      · simp at few
    exact sorted (addressed db accountId mailboxName) short
  · simp only [Db.deleteMailbox, Table.mem_remove, addressed, List.mem_filter, not_and, Bool.not_eq_true]
    exact and_congr_right fun member => ⟨fun unnamed _ => unnamed, fun apart => apart member⟩

end

/-- In every run every mailbox is stored with its canonical name, and every name addresses at most one
mailbox of an account, the same for every case of the name. -/
theorem names_canonical (deployment : Deployment) (start : World) (canonical : Canonical start.db)
    (trace : List (Transition (namingSystem deployment))) (c : Config (namingSystem deployment))
    (run : Run ((namingSystem deployment).idle start) trace c) :
    (∀ row ∈ c.state.db.mailboxes.rows, CanonicalName row.data) ∧
      ∀ accountId mailboxName, AddressesOne c.state.db accountId mailboxName :=
  have kept := run_canonical canonical run
  ⟨kept, fun _ _ => addressesOne kept⟩

/-! ## A run on a small deployment -/

def sampleDeployment : Deployment := ⟨Sample.libraries, ⟨.static "a" "b", ⟨5, 60000000000⟩, true, true, true⟩, false⟩

def inboxOnly : World :=
  Sample.world (Sample.db [Sample.mailbox "INBOX" (some 7)] []) (Sample.emptyServer (some 7))

def client : Session.ImapSession := ⟨.authenticated, some ⟨1, some 1, "a"⟩, 1, none, true, none, true, false⟩

/-- A mailbox is created and renamed; RENAME and SUBSCRIBE find it whatever the case. -/
theorem names_canonical_after_rename : ∃ trace c,
    Run ((namingSystem sampleDeployment).idle inboxOnly) trace c ∧
      c.state.db.mailboxes.rows.map (fun row => (row.data.name, row.data.canonicalName)) =
        [("INBOX", "inbox"), ("Play", "play")] ∧
      (∀ row ∈ c.state.db.mailboxes.rows, CanonicalName row.data) ∧
      ∀ accountId mailboxName, AddressesOne c.state.db accountId mailboxName := by
  have evaluated : (schedule [] ((namingSystem sampleDeployment).idle inboxOnly)
      (whole 0 (NamingTask.create client "a" ["Work"]) 2 ++
        whole 0 (NamingTask.rename client "b" ["WORK", "Play"]) 3)).map
        (fun run => run.2.state.db.mailboxes.rows.map fun row => (row.data.name, row.data.canonicalName)) =
        some [("INBOX", "inbox"), ("Play", "play")] := by
    decide +kernel
  obtain ⟨⟨trace, c⟩, followed, names⟩ := Option.map_eq_some_iff.mp evaluated
  have run := schedule_run .start followed
  have canonical : Canonical inboxOnly.db := by
    unfold Canonical CanonicalName
    decide +kernel
  exact ⟨trace, c, run, names, names_canonical sampleDeployment inboxOnly canonical trace c run⟩

end ImapCache.MailboxNames
