import ImapCache.Model.Connection
import ImapCache.Model.Sample
import ImapCache.Proof.RowSearch

/-!
# Which commands are answered as raw FETCH

Before the dispatcher, a command named FETCH or UID is tried as a FETCH of raw bytes. The subcommand of
UID is not looked at: whatever its words are, they are read as FETCH items, and a mailbox name or a
search string that reads as a raw item makes the command a FETCH.
-/

namespace ImapCache.RawFetchDispatch
open Lib Prog Protocol RawFetch Session

def isFetch (command : ParsedCommand) : Bool :=
  toAsciiUppercase command.name == "FETCH" ||
    toAsciiUppercase command.name == "UID" &&
      command.args.head?.any fun subcommand => toAsciiUppercase subcommand == "FETCH"

/-- A UID command of a session with a mailbox, with a word after its second argument that is read as
an item for raw bytes (or cannot be read without a panic). -/
structure TakenForFetch (server : Server) (session : ImapSession) (world : World)
    (command : ParsedCommand) : Prop where
  uid : toAsciiUppercase command.name = "UID"
  repository : server.services.repository = true
  mailbox : ∃ accountId name row, session.accountId = some accountId ∧
    session.selectedMailboxName = some name ∧ world.db.findMailbox accountId name = some row
  item : ∃ item ∈ parseFetchItems (command.args.drop 2), parseRawFetchRequest item ≠ .ok none

/-! ## Items -/

unseal splitRawItem in
theorem splitRawItem_nil : splitRawItem [] = .ok none := rfl

unseal splitRawItem in
theorem splitRawItem_cons (item : String) (items : List String) :
    splitRawItem (item :: items) = (do
      match ← parseRawFetchRequest item with
      | some request => pure (some ⟨[], request, items⟩)
      | none =>
          let found ← splitRawItem items
          pure (found.map fun found => { found with before := item :: found.before })) := rfl

theorem splitRawItem_eq_none_iff (items : List String) :
    splitRawItem items = .ok none ↔ ∀ item ∈ items, parseRawFetchRequest item = .ok none := by
  induction items with
  | nil => simp [splitRawItem_nil]
  | cons item items ih =>
      rw [splitRawItem_cons, List.forall_mem_cons, ← ih]
      cases parseRawFetchRequest item with
      | error reason => simp [Bind.bind, Except.bind]
      | ok request =>
          cases request with
          | some request => simp [Bind.bind, Except.bind, Pure.pure, Except.pure]
          | none =>
              cases splitRawItem items with
              | error reason => simp [Bind.bind, Except.bind]
              | ok found => simp [Bind.bind, Except.bind, Pure.pure, Except.pure]

theorem splitRawItem_no_words : splitRawItem (parseFetchItems []) = .ok none := by
  rw [splitRawItem_eq_none_iff]
  decide +kernel

/-! ## The fast path -/

variable {server : Server} {session : ImapSession} {world : World}

theorem eval_orPanic_error {α : Type} (lib : Libraries) (reason : Panic) (world : World) :
    (orPanic (.error reason) : Action α).eval (cacheHandler lib) world =
      (.error (.io "the process panicked"), world) := rfl

theorem eval_some_ne_none {α : Type} (lib : Libraries) (p : Action α) :
    ((p.bind fun value => .ret (some value)).eval (cacheHandler lib) world).1 ≠ .ok none := by
  rw [eval_bind]
  cases p.eval (cacheHandler lib) world with
  | mk outcome world' =>
      cases outcome with
      | ok value => simp [eval]
      | error failure => simp

/-- A FETCH whose items have a raw one is answered or fails, but never left to the dispatcher. -/
theorem answerRawFetch_none_iff (context : Commands.Context) (accountId : Int) (name : String)
    (mailboxId : Int) (isUid : Bool) (set : String) (args : List String) (world : World) :
    (answerRawFetch context accountId name mailboxId isUid set args).eval (cacheHandler context.lib)
        world = (.ok none, world) ↔
      splitRawItem (parseFetchItems args) = .ok none := by
  unfold answerRawFetch
  rw [Prog.bind_eq, eval_bind]
  cases split : splitRawItem (parseFetchItems args) with
  | error reason =>
      rw [eval_orPanic_error]
      simp
  | ok found =>
      cases found with
      | none => exact ⟨fun _ => rfl, fun _ => rfl⟩
      | some items =>
          simp only [reduceCtorEq, iff_false, Except.ok.injEq]
          change ((resolveViews isUid mailboxId set).bind fun targets =>
            (fetchRawTargets context accountId name mailboxId items targets).bind fun written =>
              .ret (some written)).eval _ world ≠ _
          rw [← Prog.bind_assoc]
          intro left
          exact eval_some_ne_none context.lib _ (congrArg Prod.fst left)

def HasMailbox (session : Commands.Session) (world : World) : Prop :=
  ∃ accountId name row, session.accountId = some accountId ∧
    session.selectedMailboxName = some name ∧ world.db.findMailbox accountId name = some row

theorem writeRawFetchResponse_none_iff (context : Commands.Context) (command : ParsedCommand)
    (uid : toAsciiUppercase command.name = "UID") :
    (writeRawFetchResponse context command).eval (cacheHandler context.lib) world =
        (.ok none, world) ↔
      (HasMailbox context.session world →
        splitRawItem (parseFetchItems (command.args.drop 2)) = .ok none) := by
  have isUid : eqIgnoreAsciiCase command.name "UID" = true := by
    rw [← Search.eqIgnoreAsciiCase_toAsciiUppercase, uid]
    decide
  unfold writeRawFetchResponse HasMailbox
  cases account : context.session.accountId with
  | none => simp [eval]
  | some accountId =>
      cases selected : context.session.selectedMailboxName with
      | none => simp [eval]
      | some name =>
          change (Prog.bind (await (.findMailbox accountId name)) _).eval _ world = _ ↔ _
          have answer : (await (.findMailbox accountId name)).eval (cacheHandler context.lib) world =
              (.ok (world.db.findMailbox accountId name), world) := rfl
          rw [eval_bind, answer]
          dsimp only
          cases found : world.db.findMailbox accountId name with
          | none => simp [eval, found]
          | some row =>
              simp only [isUid, ↓reduceIte]
              rw [forall_prop_of_true ⟨accountId, name, row, rfl, rfl, found⟩]
              cases words : command.args[1]? with
              | none =>
                  have empty : command.args.drop 2 = [] := by
                    rw [List.getElem?_eq_none_iff] at words
                    exact List.drop_eq_nil_of_le (by omega)
                  rw [empty]
                  exact ⟨fun _ => splitRawItem_no_words, fun _ => rfl⟩
              | some set =>
                  have enough : 2 ≤ command.args.length := by
                    have := (List.getElem?_eq_some_iff.mp words).1
                    omega
                  have args : argsFrom command.args (1 + 1) = .ok (command.args.drop 2) := by
                    unfold argsFrom
                    rw [if_pos enough]
                  dsimp only
                  rw [args]
                  exact answerRawFetch_none_iff context accountId name row.id true set _ world

theorem serveRawFetch_none_iff (server : Server) (session : ImapSession) (world : World)
    (input : Input) (other : isFetch input.command = false) :
    (serveRawFetch server session input).eval (cacheHandler server.lib) world = (.ok none, world) ↔
      ¬TakenForFetch server session world input.command := by
  have notFetch : (input.name == "FETCH") = false := by
    unfold isFetch at other
    rw [Bool.or_eq_false_iff] at other
    exact other.1
  unfold serveRawFetch
  rw [notFetch, Bool.false_or]
  by_cases taken : (input.name == "UID" && server.services.repository) = true
  · rw [if_pos taken]
    rw [Bool.and_eq_true, beq_iff_eq] at taken
    refine (writeRawFetchResponse_none_iff ⟨server.lib, _, _, _, session.view, _⟩ input.command
      taken.1).trans ?_
    rw [splitRawItem_eq_none_iff]
    constructor
    · rintro plain ⟨-, -, mailbox, item, member, raw⟩
      exact raw (plain mailbox item member)
    · intro free mailbox item member
      by_contra raw
      exact free ⟨taken.1, taken.2, mailbox, item, member, raw⟩
  · rw [if_neg taken]
    constructor
    · rintro - ⟨uid, repository, -, -⟩
      refine taken ?_
      rw [Bool.and_eq_true, beq_iff_eq]
      exact ⟨uid, repository⟩
    · intro _
      rfl

theorem serveCommand_dispatched (connection : Connection) (input : Input)
    (plain : input.name ∉ ["STARTTLS", "AUTHENTICATE", "IDLE"])
    (left : (serveRawFetch server connection.session input).eval (cacheHandler server.lib) world =
      (.ok none, world)) :
    (serveCommand server connection input).eval (cacheHandler server.lib) world =
      ((respond server connection.session input.command input.literal).bind fun response =>
        .ret (connection.serve response.lines response.session)).eval (cacheHandler server.lib)
          world := by
  simp only [List.mem_cons, List.not_mem_nil, or_false, not_or] at plain
  unfold serveCommand
  rw [if_neg plain.1, if_neg plain.2.1, if_neg plain.2.2]
  change (Prog.bind _ _).eval _ world = _
  rw [eval_bind, left]
  rfl

/-- The fast path leaves a command that is no FETCH to the dispatcher exactly if it is not taken for a
FETCH. -/
theorem non_fetch_commands_dispatched_iff (server : Server) (connection : Connection) (world : World)
    (input : Input) (other : isFetch input.command = false) :
    ((serveRawFetch server connection.session input).eval (cacheHandler server.lib) world =
        (.ok none, world) ↔
      ¬TakenForFetch server connection.session world input.command) ∧
    (¬TakenForFetch server connection.session world input.command →
      input.name ∉ ["STARTTLS", "AUTHENTICATE", "IDLE"] →
      (serveCommand server connection input).eval (cacheHandler server.lib) world =
        ((respond server connection.session input.command input.literal).bind fun response =>
          .ret (connection.serve response.lines response.session)).eval (cacheHandler server.lib)
            world) := by
  have left := serveRawFetch_none_iff server connection.session world input other
  refine ⟨left, ?_⟩
  intro free plain
  exact serveCommand_dispatched connection input plain (left.mpr free)

/-- A session that has selected INBOX, with one message, beside a mailbox of the given name. -/
def withTarget (name : String) : World :=
  Sample.world (Sample.db [Sample.mailbox "INBOX" (some 7), Sample.mailbox name (some 7)]
    [Sample.row 1 1 (some 1) []]) (Sample.emptyServer (some 7))

def sampleServer : Server := ⟨Sample.libraries, ⟨.denyAll, ⟨5, 60000000000⟩, true, true, true⟩, 0⟩

def sampleConnection : Connection :=
  ⟨⟨.selectedMailbox "INBOX" false, some ⟨1, some 1, "a"⟩, 1, none, true, some ⟨1, 1, 1⟩,
      true, false⟩, true, true⟩

def copyTo (name : String) : Input := ⟨⟨"A1", "UID", ["COPY", "1", name]⟩, none, none, false, []⟩

theorem copy_to_archive_dispatched :
    (serveCommand sampleServer sampleConnection (copyTo "Archive")).eval
        (cacheHandler Sample.libraries) (withTarget "Archive") =
      ((respond sampleServer sampleConnection.session (copyTo "Archive").command none).bind
        fun response => .ret (sampleConnection.serve response.lines response.session)).eval
          (cacheHandler Sample.libraries) (withTarget "Archive") := by
  have free : ¬TakenForFetch sampleServer sampleConnection.session (withTarget "Archive")
      (copyTo "Archive").command := by
    rintro ⟨-, -, -, item, member, raw⟩
    have items : ∀ item ∈ parseFetchItems ((copyTo "Archive").command.args.drop 2),
        parseRawFetchRequest item = .ok none := by decide +kernel
    exact raw (items item member)
  exact (non_fetch_commands_dispatched_iff sampleServer sampleConnection (withTarget "Archive")
    (copyTo "Archive") (by decide +kernel)).2 free (by decide +kernel)

/-- UID COPY to a mailbox named RFC822 sends the message instead of copying it. -/
theorem copy_to_rfc822_fetches :
    isFetch (copyTo "RFC822").command = false ∧
      ((serveCommand sampleServer sampleConnection (copyTo "RFC822")).eval
        (cacheHandler Sample.libraries) (withTarget "RFC822")).1.toOption.map (·.written) =
      some (Mutations.utf8
        "* 1 FETCH (RFC822 \x7b19\x7d\r\nSubject: hi\r\n\r\nbody)\r\nA1 OK FETCH completed\r\n") := by
  decide +kernel

end ImapCache.RawFetchDispatch
