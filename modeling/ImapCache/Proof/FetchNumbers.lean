import ImapCache.Model.Connection
import ImapCache.Model.Sample
import ImapCache.Proof.FetchItems
import ImapCache.Proof.MailboxCounts
import ImapCache.Proof.MailboxOrder
import ImapCache.Proof.MoveReplay

/-!
# The numbers of untagged FETCH responses

FETCH, UID FETCH, STORE and UID STORE announce messages under numbers, on a path for metadata and
on one for raw bytes. A number is right if it is the position of the message in the UID order of
the mailbox.
-/

namespace ImapCache.FetchNumbers
open CommandStream (utf8_append)
open FetchItems (sequenceViews uidViews setViews)
open Lib Prog Sorting Commands RawFetch Protocol MailboxCounts

/-! ## Responses -/

/-- What a response carries of a message. -/
inductive Carried where
  | metadata (view : MailboxMessageView) (items : List String)
  | raw (view : MailboxMessageView) (items : RawItems) (loaded : Bytes)
  | flags (message : Row MailboxMessage) (stored : List String)

def Carried.localUid : Carried → Int
  | metadata view _ => view.localUid
  | raw view _ _ => view.localUid
  | flags message _ => message.data.localUid

def Carried.response (lib : Libraries) (number : Int) : Carried → Bytes
  | metadata view items => Mutations.utf8 (Responses.formatFetchResponse lib number view items ++ "\r\n")
  | raw view items loaded => rawResponse lib number view items loaded
  | flags _ stored =>
      Mutations.utf8 ("* " ++ toString number ++ " FETCH (FLAGS (" ++ Responses.join stored ++ "))" ++ "\r\n")

theorem response_starts (lib : Libraries) (number : Int) (carried : Carried) :
    ∃ rest, carried.response lib number =
      Mutations.utf8 ("* " ++ toString number ++ " FETCH (") ++ rest := by
  cases carried with
  | metadata view items =>
      refine ⟨[32].intercalate ((FetchItems.shown lib view items none []).map FetchItems.Data.bytes) ++
        (Mutations.utf8 ")" ++ Mutations.utf8 "\r\n"), ?_⟩
      rw [Carried.response, utf8_append, FetchItems.formatFetchResponse_renders lib number view items [],
        FetchItems.render, List.append_assoc, List.append_assoc]
  | raw view items loaded =>
      obtain ⟨stop, rendered⟩ := FetchItems.rawResponse_renders lib number view [] items loaded
      refine ⟨[32].intercalate ((FetchItems.shown lib view [] (some items) loaded).map FetchItems.Data.bytes) ++
        Mutations.utf8 stop, ?_⟩
      rw [Carried.response, rendered, FetchItems.render, List.append_assoc]
  | flags message stored =>
      have split : " FETCH (FLAGS (" = " FETCH (" ++ "FLAGS (" := rfl
      refine ⟨Mutations.utf8 ("FLAGS (" ++ Responses.join stored ++ "))" ++ "\r\n"), ?_⟩
      rw [Carried.response, split, ← utf8_append]
      simp only [String.append_assoc]

/-- The number is the position of the message among those of the mailbox. -/
def Placed (world : World) (mailboxId number localUid : Int) : Prop :=
  0 < number ∧ (uidOrder world mailboxId)[(number - 1).toNat]? = some localUid

/-- The UID of the message counts the messages up to it. -/
def Counts (world : World) (mailboxId localUid : Int) : Prop :=
  ((uidOrder world mailboxId).filter fun other => other ≤ localUid).length = localUid

theorem placed_iff_count {world : World} {mailboxId localUid : Int}
    (member : localUid ∈ uidOrder world mailboxId) (number : Int) : Placed world mailboxId number localUid ↔
      ((uidOrder world mailboxId).filter fun other => other ≤ localUid).length = number := by
  unfold Placed
  rw [getElem?_ascending_iff (uidOrder_ascending world mailboxId) member]
  have positive : 0 < ((uidOrder world mailboxId).filter fun other => other ≤ localUid).length :=
    List.length_pos_of_mem (List.mem_filter.mpr ⟨member, by simp⟩)
  omega

theorem placed_uid_iff {world : World} {mailboxId localUid : Int}
    (member : localUid ∈ uidOrder world mailboxId) :
    Placed world mailboxId localUid localUid ↔ Counts world mailboxId localUid :=
  placed_iff_count member localUid

/-! ## The messages of a set -/

variable {lib : Libraries} {allowed : Fault Error → Prop} {world : World} {mailboxId : Int}

theorem views_uids (createdAt : Int → Int) (joined : Joined world.db mailboxId) :
    (world.db.listMailboxMessageViews createdAt mailboxId).map (·.localUid) = uidOrder world mailboxId := by
  have complete : ∀ rows : List (Row MailboxMessage),
      (∀ row ∈ rows, ∃ message, world.db.message row.data.messageId = some message) →
      (rows.filterMap fun row => (world.db.message row.data.messageId).map
        (Db.messageView createdAt row)).map (·.localUid) = rows.map (·.data.localUid) := by
    intro rows
    induction rows with
    | nil => exact fun _ => rfl
    | cons row rows ih =>
        intro stored
        obtain ⟨message, found⟩ := stored row List.mem_cons_self
        rw [List.filterMap_cons_some (by rw [found]; rfl), List.map_cons, List.map_cons,
          ih fun row member => stored row (List.mem_cons_of_mem _ member)]
        rfl
  exact complete _ fun row member => joined row (Db.mem_listMailboxMessages.mp member)

theorem sequenceViews_placed (joined : Joined world.db mailboxId) {createdAt : Int → Int} {set : String}
    {target : Int × MailboxMessageView}
    (member : target ∈ sequenceViews (world.db.listMailboxMessageViews createdAt mailboxId) set) :
    Placed world mailboxId target.1 target.2.localUid := by
  obtain ⟨sequence, named, isTarget⟩ := List.mem_filterMap.mp member
  obtain ⟨view, here, rfl⟩ := Option.map_eq_some_iff.mp isTarget
  refine ⟨parseNumberSet_positive named, ?_⟩
  rw [← views_uids createdAt joined, List.getElem?_map, here]
  rfl

theorem setViews_placed_iff (joined : Joined world.db mailboxId) (createdAt : Int → Int) (set : String)
    (isUid : Bool) :
    (∀ target ∈ setViews (world.db.listMailboxMessageViews createdAt mailboxId) set isUid,
        Placed world mailboxId target.1 target.2.localUid) ↔
      (isUid = true → ∀ view ∈ uidViews (world.db.listMailboxMessageViews createdAt mailboxId) set,
        Counts world mailboxId view.localUid) := by
  unfold setViews
  cases isUid with
  | false =>
      refine iff_of_true (fun target member => sequenceViews_placed joined member) ?_
      intro never
      cases never
  | true =>
      rw [if_pos rfl, List.forall_mem_map, forall_prop_of_true rfl]
      refine forall₂_congr fun view member => placed_uid_iff ?_
      rw [← views_uids createdAt joined]
      exact List.mem_map_of_mem (List.mem_of_mem_filter member)

theorem sequenceTargets_placed {set : String} {target : Nat × Row MailboxMessage}
    (member : target ∈ MoveReplay.sequenceTargets (world.db.listMailboxMessages mailboxId) set) :
    Placed world mailboxId target.1 target.2.data.localUid := by
  obtain ⟨positive, here⟩ := MoveReplay.sequenceTargets_placed member
  refine ⟨by omega, ?_⟩
  rw [uidOrder, List.getElem?_map, show ((target.1 : Int) - 1).toNat = target.1 - 1 by omega, here]
  rfl

def rank (rows : List (Row MailboxMessage)) (message : Row MailboxMessage) : Nat :=
  (rows.filter fun other => other.data.localUid ≤ message.data.localUid).length

theorem placed_iff_rank {message : Row MailboxMessage}
    (member : message ∈ world.db.listMailboxMessages mailboxId) {number : Nat} :
    Placed world mailboxId number message.data.localUid ↔
      number = rank (world.db.listMailboxMessages mailboxId) message := by
  have same : ((uidOrder world mailboxId).filter fun other => other ≤ message.data.localUid).length =
      rank (world.db.listMailboxMessages mailboxId) message := by
    unfold uidOrder rank
    rw [List.filter_map, List.length_map]
    rfl
  rw [placed_iff_count (List.mem_map_of_mem member), same, Nat.cast_inj, eq_comm]

def rankedTargets (rows : List (Row MailboxMessage)) (set : String) : List (Nat × Row MailboxMessage) :=
  (MoveReplay.uidSetTargets rows set).map fun message => (rank rows message, message)

theorem rankedTargets_placed {set : String} {target : Nat × Row MailboxMessage}
    (member : target ∈ rankedTargets (world.db.listMailboxMessages mailboxId) set) :
    Placed world mailboxId target.1 target.2.data.localUid := by
  obtain ⟨message, isTarget, rfl⟩ := List.mem_map.mp member
  exact (placed_iff_rank (List.mem_of_mem_filter isTarget)).mpr rfl

/-! ## The commands -/

/-- A command that announces messages, on the path for metadata or on the one for raw bytes. -/
inductive Announcing where
  | fetch (args : List String)
  | uidFetch (args : List String)
  | store (args : List String)
  | uidStore (args : List String)
  | raw (command : ParsedCommand)

def replied (reply : Action Reply) : Action (Option Bytes) :=
  reply.bind fun reply => .ret (some (Session.writeLines reply.lines))

/-- The bytes that are written for the command; there are none if the path for raw bytes leaves the
command to the other. -/
def Announcing.code (context : Context) : Announcing → Action (Option Bytes)
  | fetch args => replied (Session.fetch context args)
  | uidFetch args => replied (withUidMailbox context fun _ mailbox => Session.uidFetch context args mailbox)
  | store args => replied (Commands.store context args)
  | uidStore args => replied (Commands.uidStore context args)
  | raw command => writeRawFetchResponse context command

def Announcing.uidSet : Announcing → Option String
  | uidFetch args => args[1]?
  | raw command => if eqIgnoreAsciiCase command.name "UID" then command.args[1]? else none
  | _ => none

/-- The messages of a UID FETCH have UIDs that count the messages up to them. -/
def Announcing.Gapless (lib : Libraries) (world : World) (mailboxId : Int) (command : Announcing) : Prop :=
  ∀ set, command.uidSet = some set →
    ∀ view ∈ uidViews (world.db.listMailboxMessageViews lib.createdAt mailboxId) set,
      Counts world mailboxId view.localUid

/-! ## Responses to a command -/

theorem argsFrom_ok {args items : List String} {start : Nat} (taken : argsFrom args start = .ok items) :
    items = args.drop start := by
  unfold argsFrom at taken
  split at taken <;> cases taken
  rfl

/-- The responses to a FETCH; `args` are its set and the items. -/
def viewResponses (views : List MailboxMessageView) (isUid : Bool) (args : List String) :
    List (Int × Carried) :=
  match args with
  | [] => []
  | set :: items => (setViews views set isUid).map fun target =>
      (target.1, .metadata target.2 (parseFetchItems items))

/-- The responses to a FETCH with a raw item, for which `loaded` are the bytes. -/
def rawResponses (views : List MailboxMessageView) (isUid : Bool) (loaded : List Bytes) (args : List String) :
    List (Int × Carried) :=
  match args with
  | [] => []
  | set :: args =>
      match splitRawItem (parseFetchItems args) with
      | .ok (some items) => ((setViews views set isUid).zip loaded).map fun message =>
          (message.1.1, .raw message.1.2 items message.2)
      | _ => []

/-- The responses to a STORE of targets, none of them if it is silent. -/
def stored (request : StoreRequest) (targets : List (Nat × Row MailboxMessage)) : List (Int × Carried) :=
  if request.silent then []
  else targets.map fun target => (target.1, .flags target.2 (storedFlags request target.2))

theorem stored_concat (request : StoreRequest) (done : List (Nat × Row MailboxMessage))
    (target : Nat × Row MailboxMessage) :
    stored request (done ++ [target]) = stored request done ++
      if request.silent then [] else [((target.1 : Int), .flags target.2 (storedFlags request target.2))] := by
  unfold stored
  split <;> simp

/-- The responses to a STORE, whose set selects targets. -/
def storeResponses (isReadOnly : Bool) (args : List String)
    (targets : String → List (Nat × Row MailboxMessage)) : List (Int × Carried) :=
  match isReadOnly, parseStoreRequest args with
  | false, .ok request => stored request (targets request.set)
  | _, _ => []

theorem storeResponses_request {isReadOnly : Bool} {args : List String} {request : StoreRequest}
    {targets : String → List (Nat × Row MailboxMessage)} (writable : isReadOnly = false)
    (isRequest : parseStoreRequest args = .ok request) :
    storeResponses isReadOnly args targets = stored request (targets request.set) := by
  unfold storeResponses
  rw [writable, isRequest]

/-- Whether a command is taken for one with UIDs, and the words from its set on. -/
def setOnward (command : ParsedCommand) : Bool × List String :=
  let isUid := eqIgnoreAsciiCase command.name "UID"
  (isUid, command.args.drop (if isUid then 1 else 0))

/-- The responses to a command: the messages that its set selects in `world`, what they carry of these, and
under which numbers. -/
def Announcing.responses (context : Context) (world : World) (mailboxId : Int) (loaded : List Bytes)
    (command : Announcing) : List (Int × Carried) :=
  let views := world.db.listMailboxMessageViews context.lib.createdAt mailboxId
  let rows := world.db.listMailboxMessages mailboxId
  match command with
  | fetch args => viewResponses views false args
  | uidFetch args => viewResponses views true (args.drop 1)
  | store args => storeResponses context.session.isReadOnly args (MoveReplay.sequenceTargets rows)
  | uidStore args => storeResponses context.session.isReadOnly args (rankedTargets rows)
  | raw command => rawResponses views (setOnward command).1 loaded (setOnward command).2

/-- The bytes that a command has loaded for its messages; only the path for raw bytes loads any. -/
def Announcing.Loads (context : Context) (accountId : Int) (name : String) (mailboxId : Int)
    (loaded : List Bytes) (world world' : World) : Announcing → Prop
  | raw command => ∃ set args items, (setOnward command).2 = set :: args ∧
      splitRawItem (parseFetchItems args) = .ok (some items) ∧
      FetchItems.RawCommand.Loaded ⟨context, accountId, name, mailboxId, items⟩
        (setViews (world.db.listMailboxMessageViews context.lib.createdAt mailboxId) set (setOnward command).1)
        loaded world world'
  | _ => loaded = []

theorem viewResponses_placed_iff (joined : Joined world.db mailboxId) (createdAt : Int → Int) (isUid : Bool)
    (set : String) (items : List String) :
    (∀ response ∈ viewResponses (world.db.listMailboxMessageViews createdAt mailboxId) isUid (set :: items),
        Placed world mailboxId response.1 response.2.localUid) ↔
      (isUid = true → ∀ view ∈ uidViews (world.db.listMailboxMessageViews createdAt mailboxId) set,
        Counts world mailboxId view.localUid) := by
  rw [← setViews_placed_iff joined createdAt set isUid]
  exact List.forall_mem_map

theorem rawResponses_placed_iff (joined : Joined world.db mailboxId) (createdAt : Int → Int) (isUid : Bool)
    {set : String} {args : List String} {items : RawItems} {loaded : List Bytes}
    (split : splitRawItem (parseFetchItems args) = .ok (some items))
    (complete : loaded.length =
      (setViews (world.db.listMailboxMessageViews createdAt mailboxId) set isUid).length) :
    (∀ response ∈ rawResponses (world.db.listMailboxMessageViews createdAt mailboxId) isUid loaded
        (set :: args), Placed world mailboxId response.1 response.2.localUid) ↔
      (isUid = true → ∀ view ∈ uidViews (world.db.listMailboxMessageViews createdAt mailboxId) set,
        Counts world mailboxId view.localUid) := by
  rw [← setViews_placed_iff joined createdAt set isUid]
  unfold rawResponses
  dsimp only
  rw [split]
  dsimp only
  generalize setViews (world.db.listMailboxMessageViews createdAt mailboxId) set isUid = targets at complete ⊢
  have firsts : (targets.zip loaded).map (·.1) = targets := List.map_fst_zip (by omega)
  conv_rhs => rw [← firsts]
  rw [List.forall_mem_map, List.forall_mem_map]
  rfl

theorem storeResponses_placed {isReadOnly : Bool} {args : List String}
    {targets : String → List (Nat × Row MailboxMessage)}
    (placed : ∀ set, ∀ target ∈ targets set, Placed world mailboxId target.1 target.2.data.localUid) :
    ∀ response ∈ storeResponses isReadOnly args targets,
      Placed world mailboxId response.1 response.2.localUid := by
  unfold storeResponses
  split
  · rename_i request _
    unfold stored
    split
    · exact fun response never => absurd never List.not_mem_nil
    · exact List.forall_mem_map.mpr (placed request.set)
  · exact fun response never => absurd never List.not_mem_nil

theorem responses_placed_iff {context : Context} {accountId : Int} {name : String} {loaded : List Bytes}
    {world' : World} {command : Announcing} (joined : Joined world.db mailboxId)
    (loads : command.Loads context accountId name mailboxId loaded world world') :
    (∀ response ∈ command.responses context world mailboxId loaded,
        Placed world mailboxId response.1 response.2.localUid) ↔
      command.Gapless context.lib world mailboxId := by
  have noSet : ∀ {responses : List (Int × Carried)}, command.uidSet = none →
      (∀ response ∈ responses, Placed world mailboxId response.1 response.2.localUid) →
      ((∀ response ∈ responses, Placed world mailboxId response.1 response.2.localUid) ↔
        command.Gapless context.lib world mailboxId) := by
    intro responses none placed
    refine iff_of_true placed fun set isSet => ?_
    rw [none] at isSet
    cases isSet
  cases command with
  | fetch args =>
      refine noSet rfl ?_
      cases args with
      | nil => exact fun response never => absurd never List.not_mem_nil
      | cons set items =>
          refine (viewResponses_placed_iff joined context.lib.createdAt false set items).mpr ?_
          intro never
          cases never
  | uidFetch args =>
      match args with
      | [] => exact noSet rfl fun response never => absurd never List.not_mem_nil
      | [_] => exact noSet rfl fun response never => absurd never List.not_mem_nil
      | _ :: set :: items =>
          refine (viewResponses_placed_iff joined context.lib.createdAt true set items).trans ?_
          simp [Announcing.Gapless, Announcing.uidSet]
  | store args => exact noSet rfl (storeResponses_placed fun set target => sequenceTargets_placed)
  | uidStore args => exact noSet rfl (storeResponses_placed fun set target => rankedTargets_placed)
  | raw command =>
      obtain ⟨set, args, items, isArgs, split, isLoaded⟩ := loads
      unfold Announcing.responses
      dsimp only
      rw [isArgs]
      refine (rawResponses_placed_iff joined context.lib.createdAt _ split isLoaded.length).trans ?_
      unfold Announcing.Gapless Announcing.uidSet
      unfold setOnward at isArgs ⊢
      dsimp only at isArgs ⊢
      cases isUid : eqIgnoreAsciiCase command.name "UID" with
      | false => simp
      | true =>
          rw [isUid, if_pos rfl] at isArgs
          have named : command.args[1]? = some set := by
            rw [← List.head?_drop, isArgs, List.head?_cons]
          simp [named]

/-! ## What is written -/

def completions (context : Context) : List String :=
  [ok context.tag "FETCH completed", ok context.tag "UID FETCH completed",
    storeText context "STORE", storeText context "UID STORE",
    bad context.tag "FETCH requires a message set", bad context.tag "UID FETCH requires a UID set",
    no context.tag "READ-ONLY" "STORE is not permitted in a read-only mailbox",
    no context.tag "READ-ONLY" "UID STORE is not permitted in a read-only mailbox"]

/-- What is written for a command are its responses and at most one line after them. -/
def Announcing.Written (context : Context) (accountId : Int) (name : String) (mailboxId : Int) (world : World)
    (command : Announcing) (written : Bytes) (world' : World) : Prop :=
  ∃ (loaded : List Bytes) (completion : List String),
    command.Loads context accountId name mailboxId loaded world world' ∧
    (completion = [] ∨ ∃ line ∈ completions context, completion = [line]) ∧
    written = (command.responses context world mailboxId loaded).flatMap
        (fun response => response.2.response context.lib response.1) ++ Session.writeLines completion

theorem writeLines_append (lines lines' : List String) :
    Session.writeLines (lines ++ lines') = Session.writeLines lines ++ Session.writeLines lines' :=
  List.flatMap_append

theorem writeLines_fetchLines (targets : List (Int × MailboxMessageView)) (items : List String) :
    Session.writeLines (Session.fetchLines lib targets items) =
      (targets.map fun target => (target.1, Carried.metadata target.2 items)).flatMap
        fun response => response.2.response lib response.1 := by
  unfold Session.writeLines Session.fetchLines
  rw [List.flatMap_map, List.flatMap_map]
  rfl

section Command
variable {context : Context} {accountId : Int} {name : String} {mailbox : Row Mailbox} {world' : World}

theorem written_lines {command : Announcing} (lines : List String) {line : String}
    (loads : command.Loads context accountId name mailboxId [] world world')
    (isLines : Session.writeLines lines = (command.responses context world mailboxId []).flatMap
      fun response => response.2.response context.lib response.1)
    (ends : line ∈ completions context) :
    command.Written context accountId name mailboxId world (Session.writeLines (lines ++ [line])) world' := by
  refine ⟨[], [line], loads, Or.inr ⟨line, ends, rfl⟩, ?_⟩
  rw [writeLines_append, isLines]

variable (account : context.session.accountId = some accountId)
  (selected : context.session.selectedMailboxName = some name)
  (found : world.db.findMailbox accountId name = some mailbox)
include account selected found

theorem fetch_writes (args : List String) :
    (Session.fetch context args).Ensures (cacheHandler context.lib) allowed
      (fun reply => (Announcing.fetch args).Written context accountId name mailbox.id world
        (Session.writeLines reply.lines)) (fun _ _ => True) world := by
  unfold Session.fetch
  rw [account, selected]
  refine ensures_bind.mpr (ensures_read rfl ?_)
  rw [found]
  cases args with
  | nil => exact written_lines [] rfl rfl (by simp [completions])
  | cons set args =>
      refine ensures_bind.mpr (ensures_orPanic fun items isItems => ?_)
      obtain rfl := argsFrom_ok isItems
      refine ensures_bind.mpr ((FetchItems.resolveSequenceViews_read mailbox.id set world).mono ?_
        fun _ _ => id)
      rintro views world' ⟨rfl, rfl⟩
      exact written_lines _ rfl (writeLines_fetchLines _ _) (by simp [completions])

theorem uidFetch_writes (args : List String) :
    (withUidMailbox context fun _ mailbox => Session.uidFetch context args mailbox).Ensures
      (cacheHandler context.lib) allowed (fun reply => (Announcing.uidFetch args).Written context accountId name
        mailbox.id world (Session.writeLines reply.lines)) (fun _ _ => True) world := by
  unfold withUidMailbox
  rw [account, selected]
  refine ensures_bind.mpr (ensures_read rfl ?_)
  rw [found]
  dsimp only
  unfold Session.uidFetch
  match args with
  | [] => exact written_lines [] rfl rfl (by simp [completions])
  | [_] => exact written_lines [] rfl rfl (by simp [completions])
  | _ :: set :: args =>
      refine ensures_bind.mpr (ensures_orPanic fun items isItems => ?_)
      obtain rfl := argsFrom_ok isItems
      refine ensures_bind.mpr ((FetchItems.resolveUidViews_read mailbox.id set world).mono ?_
        fun _ _ => id)
      rintro views world' ⟨rfl, rfl⟩
      exact written_lines _ rfl (writeLines_fetchLines _ _) (by simp [completions])

end Command

/-! ## STORE -/

/-- The lines of the loops of STORE and UID STORE are the responses. -/
def Lines (lib : Libraries) (request : StoreRequest) (targets : List (Nat × Row MailboxMessage))
    (lines : List String) : Prop :=
  Session.writeLines lines =
    (stored request targets).flatMap fun response => response.2.response lib response.1

theorem lines_nil (request : StoreRequest) : Lines lib request [] [] := by
  simp [Lines, stored, Session.writeLines]

theorem Lines.next {request : StoreRequest} {done : List (Nat × Row MailboxMessage)} {lines : List String}
    (before : Lines lib request done lines) (target : Nat × Row MailboxMessage) :
    Lines lib request (done ++ [target]) (if request.silent then lines
      else lines ++ [fetchFlagsLine target.1 (storedFlags request target.2)]) := by
  unfold Lines at *
  rw [stored_concat, List.flatMap_append, ← before]
  split
  · simp
  · rw [writeLines_append]
    rfl

theorem storeTarget_lines (context : Context) (accountId mailboxId : Int) (request : StoreRequest)
    {done : List (Nat × Row MailboxMessage)} {lines : List String}
    (before : Lines context.lib request done lines) (target : Nat × Row MailboxMessage) :
    (storeTarget context accountId mailboxId request lines target).Returns
      (Lines context.lib request (done ++ [target])) := by
  unfold storeTarget
  refine (returns_any _).bind fun _ _ => (returns_any _).bind fun _ _ => ?_
  exact before.next target

theorem storeTargets_lines (context : Context) (accountId mailboxId : Int) (request : StoreRequest)
    (targets : List (Nat × Row MailboxMessage)) :
    (targets.foldlM (storeTarget context accountId mailboxId request) []).Returns
      (Lines context.lib request targets) :=
  returns_foldlM (Lines context.lib request) (lines_nil request) fun _ target _ before =>
    storeTarget_lines context accountId mailboxId request before target

theorem sequenceNumberForLocalUid_placed {localUid : Int} (member : localUid ∈ uidOrder world mailboxId) :
    (sequenceNumberForLocalUid mailboxId localUid).Ensures (cacheHandler lib) allowed
      (fun sequence world' => world' = world ∧
        ∃ number : Nat, sequence = some number ∧ Placed world mailboxId number localUid)
      (fun _ _ => True) world := by
  refine ensures_bind.mpr (ensures_read rfl ⟨rfl, ?_⟩)
  obtain ⟨row, isRow, rfl⟩ := List.mem_map.mp member
  cases first : (world.db.listMailboxMessages mailboxId).findIdx? (·.data.localUid == row.data.localUid) with
  | none =>
      have other := List.findIdx?_eq_none_iff.mp first row isRow
      simp at other
  | some i =>
      obtain ⟨inside, same, -⟩ := List.findIdx?_eq_some_iff_getElem.mp first
      refine ⟨i + 1, rfl, by omega, ?_⟩
      rw [show ((↑(i + 1) : Int) - 1).toNat = i by omega, uidOrder, List.getElem?_map,
        List.getElem?_eq_getElem inside]
      simpa using same

def UidStoring (lib : Libraries) (world : World) (mailboxId : Int) (request : StoreRequest)
    (done : List (Row MailboxMessage)) (lines : List String) (world' : World) : Prop :=
  (∀ id, uidOrder world' id = uidOrder world id) ∧
    Lines lib request (done.map fun message => (rank (world.db.listMailboxMessages mailboxId) message, message))
      lines

theorem uidStoreTarget_storing (request : StoreRequest) {done : List (Row MailboxMessage)}
    {lines : List String} {world' : World} (before : UidStoring lib world mailboxId request done lines world')
    {message : Row MailboxMessage} (member : message ∈ world.db.listMailboxMessages mailboxId) :
    (uidStoreTarget mailboxId request lines message).Ensures (cacheHandler lib) allowed
      (UidStoring lib world mailboxId request (done ++ [message])) (fun _ _ => True) world' := by
  obtain ⟨order, isLines⟩ := before
  have next := isLines.next (rank (world.db.listMailboxMessages mailboxId) message, message)
  refine ensures_bind.mpr ((Repository.updateMailboxMessageFlags_order mailboxId message.data.localUid _
    world').mono ?_ fun _ _ => id)
  intro _ world₁ same
  have order₁ : ∀ id, uidOrder world₁ id = uidOrder world id := fun id => (same id).trans (order id)
  cases silent : request.silent with
  | true =>
      rw [silent, if_pos rfl] at next
      refine ⟨order₁, ?_⟩
      rwa [List.map_append]
  | false =>
      have here : message.data.localUid ∈ uidOrder world₁ mailboxId := by
        rw [order₁]
        exact List.mem_map_of_mem member
      refine ensures_bind.mpr ((sequenceNumberForLocalUid_placed here).mono ?_ fun _ _ => id)
      rintro sequence world₂ ⟨rfl, number, rfl, isPlaced⟩
      -- The rows may have other flags by now, but they stand in the same order.
      have number' : number = rank (world.db.listMailboxMessages mailboxId) message := by
        rw [← placed_iff_rank member]
        unfold Placed at isPlaced ⊢
        rwa [order₁] at isPlaced
      rw [silent, if_neg Bool.false_ne_true] at next
      refine ⟨order₁, ?_⟩
      rw [List.map_append, number']
      exact next

section Command
variable {context : Context} {accountId : Int} {name : String} {mailbox : Row Mailbox}
  (account : context.session.accountId = some accountId)
  (selected : context.session.selectedMailboxName = some name)
  (found : world.db.findMailbox accountId name = some mailbox)
include account selected found

theorem store_writes (args : List String) :
    (Commands.store context args).Ensures (cacheHandler context.lib) allowed
      (fun reply => (Announcing.store args).Written context accountId name mailbox.id world
        (Session.writeLines reply.lines)) (fun _ _ => True) world := by
  unfold Commands.store
  rw [account, selected]
  refine ensures_bind.mpr (ensures_read rfl ?_)
  rw [found]
  dsimp only
  cases readOnly : context.session.isReadOnly with
  | true =>
      rw [if_pos rfl]
      refine written_lines [] rfl ?_ (by simp [completions])
      simp [Announcing.responses, storeResponses, readOnly, Session.writeLines]
  | false =>
      rw [if_neg Bool.false_ne_true]
      refine ensures_bind.mpr (ensures_ofExcept (fun request isRequest => ?_) fun _ _ => trivial)
      refine ensures_bind.mpr ((MoveReplay.resolveSequenceTargets_read mailbox.id request.set world).mono ?_
        fun _ _ => id)
      rintro targets world' ⟨isTargets, rfl⟩
      refine ensures_bind.mpr (((storeTargets_lines context accountId mailbox.id request targets).ensures
        world').mono ?_ fun _ _ => id)
      intro lines _ isLines
      refine ensures_bind.mpr (((returns_any _).ensures _).mono ?_ fun _ _ => id)
      intro _ _ _
      refine written_lines _ rfl ?_ (by simp [completions])
      rw [Announcing.responses, storeResponses_request readOnly isRequest, ← isTargets]
      exact isLines

theorem uidStore_writes (args : List String) :
    (Commands.uidStore context args).Ensures (cacheHandler context.lib) allowed
      (fun reply => (Announcing.uidStore args).Written context accountId name mailbox.id world
        (Session.writeLines reply.lines)) (fun _ _ => True) world := by
  unfold Commands.uidStore withUidMailbox
  rw [account, selected]
  refine ensures_bind.mpr (ensures_read rfl ?_)
  rw [found]
  dsimp only
  cases readOnly : context.session.isReadOnly with
  | true =>
      rw [if_pos rfl]
      refine written_lines [] rfl ?_ (by simp [completions])
      simp [Announcing.responses, storeResponses, readOnly, Session.writeLines]
  | false =>
      rw [if_neg Bool.false_ne_true]
      refine ensures_bind.mpr (ensures_ofExcept (fun request isRequest => ?_) fun _ _ => trivial)
      refine ensures_bind.mpr ((MoveReplay.resolveUidTargets_read mailbox.id request.set world).mono ?_
        fun _ _ => id)
      rintro targets world' ⟨rfl, rfl⟩
      refine ensures_bind.mpr ((ensures_foldlM
        (fun done _ => UidStoring context.lib world' mailbox.id request done) ?_ ?_).mono ?_ fun _ _ => id)
      · exact ⟨fun _ => rfl, lines_nil request⟩
      · intro done message rest lines world₁ split before
        refine uidStoreTarget_storing request before ?_
        have listed : message ∈ MoveReplay.uidSetTargets (world'.db.listMailboxMessages mailbox.id)
            request.set := by
          rw [split]
          simp
        exact List.mem_of_mem_filter listed
      · rintro lines world₁ ⟨-, isLines⟩
        refine ensures_bind.mpr (((returns_any _).ensures _).mono ?_ fun _ _ => id)
        intro _ _ _
        refine ensures_bind.mpr (((returns_any _).ensures _).mono ?_ fun _ _ => id)
        intro _ _ _
        refine written_lines _ rfl ?_ (by simp [completions])
        rw [Announcing.responses, storeResponses_request readOnly isRequest]
        exact isLines

/-! ## The path for raw bytes -/

theorem raw_writes (command : ParsedCommand) :
    (writeRawFetchResponse context command).Ensures (cacheHandler context.lib) allowed
      (fun result world' => ∀ written, result = some written →
        (Announcing.raw command).Written context accountId name mailbox.id world written world')
      (fun _ _ => True) world := by
  unfold writeRawFetchResponse
  rw [account, selected]
  refine ensures_bind.mpr (ensures_read rfl ?_)
  rw [found]
  dsimp only
  split
  · intro written none
    cases none
  · rename_i set isSet
    refine ensures_bind.mpr (ensures_orPanic fun args isArgs => ?_)
    obtain rfl := argsFrom_ok isArgs
    refine (FetchItems.answerRawFetch_writes context accountId name mailbox.id _ set _ world).mono ?_
      fun _ _ => id
    rintro result world' written' written same
    obtain ⟨items, loaded, split, isLoaded, rfl⟩ := written' written same
    have onward : (setOnward command).2 =
        set :: command.args.drop ((if eqIgnoreAsciiCase command.name "UID" then 1 else 0) + 1) := by
      obtain ⟨inside, isSet⟩ := List.getElem?_eq_some_iff.mp isSet
      rw [← isSet]
      exact List.drop_eq_getElem_cons inside
    refine ⟨loaded, [], ⟨set, _, items, onward, split, isLoaded⟩, Or.inl rfl, ?_⟩
    unfold Announcing.responses rawResponses
    dsimp only
    rw [onward]
    dsimp only
    rw [split]
    dsimp only
    rw [List.flatMap_map]
    simp [Session.writeLines, FetchItems.RawCommand.responses, Carried.response, setOnward]

end Command

/-- What is written for a command are its responses, and their numbers are the positions of the messages
whose data they carry exactly if the command is not a UID FETCH of a message with a gap before its UID. -/
theorem fetch_numbers_placed_iff (command : Announcing) (context : Context) (accountId : Int) (name : String)
    (mailbox : Row Mailbox) (world world' : World) (faults : List (Fault Error)) (written : Bytes)
    (account : context.session.accountId = some accountId)
    (selected : context.session.selectedMailboxName = some name)
    (found : world.db.findMailbox accountId name = some mailbox)
    (joined : Joined world.db mailbox.id)
    (answered : (command.code context).run (cacheHandler context.lib) faults world =
      (.ok (some written), world')) :
    ∃ (loaded : List Bytes) (completion : List String),
      command.Loads context accountId name mailbox.id loaded world world' ∧
      (completion = [] ∨ ∃ line ∈ completions context, completion = [line]) ∧
      written = (command.responses context world mailbox.id loaded).flatMap
          (fun response => response.2.response context.lib response.1) ++ Session.writeLines completion ∧
      (∀ response ∈ command.responses context world mailbox.id loaded, ∃ rest,
        response.2.response context.lib response.1 =
          Mutations.utf8 ("* " ++ toString response.1 ++ " FETCH (") ++ rest) ∧
      ((∀ response ∈ command.responses context world mailbox.id loaded,
          Placed world mailbox.id response.1 response.2.localUid) ↔
        command.Gapless context.lib world mailbox.id) := by
  have inReply : ∀ {reply : Action Reply} {post : Bytes → World → Prop},
      reply.Ensures (cacheHandler context.lib) (anyFault Error)
        (fun reply => post (Session.writeLines reply.lines)) (fun _ _ => True) world →
      (replied reply).Ensures (cacheHandler context.lib) (anyFault Error)
        (fun result world' => ∀ written, result = some written → post written world')
        (fun _ _ => True) world := by
    intro reply post writes
    refine ensures_bind.mpr (writes.mono ?_ fun _ _ => id)
    intro reply _ holds written same
    cases same
    exact holds
  have ensures : (command.code context).Ensures (cacheHandler context.lib) (anyFault Error)
      (fun result world' => ∀ written, result = some written →
        command.Written context accountId name mailbox.id world written world') (fun _ _ => True) world := by
    cases command with
    | fetch args => exact inReply (fetch_writes account selected found args)
    | uidFetch args => exact inReply (uidFetch_writes account selected found args)
    | store args => exact inReply (store_writes account selected found args)
    | uidStore args => exact inReply (uidStore_writes account selected found args)
    | raw command => exact raw_writes account selected found command
  have ended := (ensures.run faults (fun _ _ => trivial) trivial).1 (some written) (by rw [answered])
  rw [answered] at ended
  obtain ⟨loaded, completion, loads, ends, isWritten⟩ := ended written rfl
  exact ⟨loaded, completion, loads, ends, isWritten, fun response _ => response_starts _ _ _,
    responses_placed_iff joined loads⟩

def gapped : World :=
  Sample.world (Sample.db [Sample.mailbox "INBOX" none] [Sample.row 1 1 none [], Sample.row 1 5 none ["\\Seen"]])
    (Sample.emptyServer none)

theorem first_message_placed :
    ∃ written world', ((Announcing.uidFetch ["FETCH", "1", "FLAGS"]).code ExpungeReplay.inboxContext).run
        (cacheHandler Sample.libraries) [] gapped = (.ok (some written), world') ∧
      ∃ (loaded : List Bytes) (completion : List String),
        written = ((Announcing.uidFetch ["FETCH", "1", "FLAGS"]).responses ExpungeReplay.inboxContext gapped 1
          loaded).flatMap (fun response => response.2.response Sample.libraries response.1) ++
            Session.writeLines completion ∧
        ∀ response ∈ (Announcing.uidFetch ["FETCH", "1", "FLAGS"]).responses ExpungeReplay.inboxContext gapped 1
          loaded, Placed gapped 1 response.1 response.2.localUid := by
  have answers : (((Announcing.uidFetch ["FETCH", "1", "FLAGS"]).code ExpungeReplay.inboxContext).run
      (cacheHandler Sample.libraries) [] gapped).1.toOption.map (·.isSome) = some true := by decide +kernel
  have named : (gapped.db.findMailbox 1 "INBOX").map (·.id) = some 1 := by decide +kernel
  obtain ⟨mailbox, found, here⟩ := Option.map_eq_some_iff.mp named
  have joined : Joined gapped.db mailbox.id := by
    have stored : ∀ row ∈ gapped.db.liveMessages 1, (gapped.db.message row.data.messageId).isSome = true := by
      decide +kernel
    rw [here]
    exact fun row member => Option.isSome_iff_exists.mp (stored row member)
  have gapless : (Announcing.uidFetch ["FETCH", "1", "FLAGS"]).Gapless Sample.libraries gapped mailbox.id := by
    have counts : ∀ view ∈ uidViews (gapped.db.listMailboxMessageViews Sample.libraries.createdAt 1) "1",
        ((uidOrder gapped 1).filter fun other => other ≤ view.localUid).length = view.localUid := by
      decide +kernel
    intro set isSet
    cases isSet
    rw [here]
    exact counts
  cases answered : ((Announcing.uidFetch ["FETCH", "1", "FLAGS"]).code ExpungeReplay.inboxContext).run
      (cacheHandler Sample.libraries) [] gapped with
  | mk outcome world' =>
      rw [answered] at answers
      cases outcome with
      | error failure => cases answers
      | ok result =>
          cases result with
          | none => cases answers
          | some written =>
              obtain ⟨loaded, completion, -, -, isWritten, -, right⟩ :=
                fetch_numbers_placed_iff (.uidFetch ["FETCH", "1", "FLAGS"]) ExpungeReplay.inboxContext 1 "INBOX"
                  mailbox gapped world' [] written rfl rfl found joined answered
              have placed := right.mpr gapless
              rw [here] at placed isWritten
              exact ⟨written, world', rfl, loaded, completion, isWritten, placed⟩

/-- `UID FETCH 5 FLAGS` announces the second message of the INBOX under the number 5. -/
theorem uid_fetch_announces_uid :
    (((Announcing.uidFetch ["FETCH", "5", "FLAGS"]).code ExpungeReplay.inboxContext).run
      (cacheHandler Sample.libraries) [] gapped).1.toOption =
      some (some (Mutations.utf8 "* 5 FETCH (FLAGS (\\Seen))\r\nA1 OK UID FETCH completed\r\n")) ∧
    uidOrder gapped 1 = [1, 5] ∧ ¬Placed gapped 1 5 5 := by
  refine ⟨by decide +kernel, by decide +kernel, ?_⟩
  rintro ⟨-, here⟩
  have order : uidOrder gapped 1 = [1, 5] := by decide +kernel
  rw [order] at here
  cases here

end ImapCache.FetchNumbers
