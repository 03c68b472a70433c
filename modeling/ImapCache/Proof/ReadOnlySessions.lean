import ImapCache.Proof.AccountIsolation
import ImapCache.Proof.FlagAlgebra

/-!
# Read-only sessions

A session that has selected its mailbox with EXAMINE removes no message, except with a whole mailbox, and
changes none, except that a FETCH of raw bytes marks it as seen. It may still append and copy.
-/

namespace ImapCache
open Lib

/-- The row has got other flags, by a FETCH that marks it as seen. -/
def Marked (row row' : Row MailboxMessage) : Prop :=
  ∃ flags modseq, RawFetch.hasSeen flags = true ∧ row' = ⟨row.id, { row.data with flags, modseq }⟩

/-- Every message is still there, as it was or marked as seen, or its mailbox is gone. -/
def KeepsMessages (db db' : Db) : Prop :=
  ∀ row ∈ db.mailboxMessages.rows, row.data.isExpunged = false →
    row ∈ db'.mailboxMessages.rows ∨ (∃ row' ∈ db'.mailboxMessages.rows, Marked row row') ∨
      db'.mailbox row.data.mailboxId = none

theorem MarksSeen.hasSeen {flags : List String} (marks : MarksSeen flags) : RawFetch.hasSeen flags = true := by
  obtain ⟨before, -, rfl⟩ := marks
  refine (FlagAlgebra.has_replace [] (before ++ ["\\Seen"]) "\\Seen").trans ?_
  exact FlagAlgebra.hasFlag_of_mem (List.mem_append_right _ (List.mem_singleton_self _))

namespace World

theorem keepsMessages_refl (db : Db) : KeepsMessages db db := fun _ member _ => .inl member

theorem perform_keepsMessages (lib : Libraries) (world : World) {op : Op} (harmless : op.Harmless) :
    KeepsMessages world.db (world.perform lib op).2.db := by
  have committed {α : Type} {result : Except Error (α × Db)}
      (keeps : ∀ value db, result = .ok (value, db) → KeepsMessages world.db db) :
      KeepsMessages world.db (world.commit result).2.db := by
    unfold commit
    split
    · exact keeps _ _ rfl
    · exact keepsMessages_refl _
  by_cases untouched : Component.mailboxMessages ∉ op.writes
  · intro row member _
    refine .inl ?_
    rwa [show (world.perform lib op).2.db.mailboxMessages = world.db.mailboxMessages from
      perform_frame lib world op .mailboxMessages untouched]
  · cases op with
    | insertMailboxMessage input =>
        refine committed fun value db h row member live => ?_
        obtain ⟨put, ⟨modseq, data⟩, -, assigned⟩ := Db.insertMailboxMessage_ok h
        refine .inl ((put.rows row).mpr (.inr ⟨member, fun same => ?_⟩))
        have uid : row.data.localUid = value.1.data.localUid := same.2
        rw [data] at same
        have inUse := Db.assignMailboxLocalUid_ok (assigned harmless) row (Db.mem_liveMessages.mpr ⟨member, same.1, live⟩)
        omega
    | setMailboxMessageUpstreamUid mailboxId localUid upstreamUid => exact harmless.elim
    | updateMailboxMessageFlags mailboxId localUid flags =>
        refine committed fun value db h row member live => ?_
        rcases Db.updateMailboxMessageFlags_ok h with ⟨-, keeps, -⟩ | ⟨old, here, isLive, modseq, position, -, put⟩
        · exact .inl ((keeps.rows row).mpr member)
        · by_cases same : row.data.mailboxId = old.data.mailboxId ∧ row.data.localUid = old.data.localUid
          · obtain rfl := Db.mailboxMessage_unique member here same.1 same.2
            exact .inr (.inl ⟨_, (put.rows _).mpr (.inl rfl), flags, modseq, harmless.hasSeen, rfl⟩)
          · exact .inl ((put.rows row).mpr (.inr ⟨member, same⟩))
    | copyMailboxMessage source destination localUid =>
        refine committed fun value db h row member live => ?_
        rcases Db.copyMailboxMessage_ok h with ⟨-, rfl, -⟩ | ⟨original, -, -, copy, position, -, put, -, ⟨modseq, data⟩, free⟩
        · exact .inl member
        · refine .inl ((put.rows row).mpr (.inr ⟨member, fun same => ?_⟩))
          refine free row member ?_ same.2
          rw [same.1, data]
    | deleteMailboxMessage mailboxId localUid => exact harmless.elim
    | deleteMailbox accountId mailboxName =>
        intro row member _
        change row ∈ (world.db.mailboxMessages.remove _).rows ∨ _ ∨ _ = none
        by_cases gone : ((world.db.mailboxes.rows.filter (Db.namedMailbox accountId mailboxName)).any
            (·.id == row.data.mailboxId)) = true
        · refine .inr (.inr ?_)
          obtain ⟨mailbox, here, same⟩ := List.any_eq_true.mp gone
          obtain ⟨here, named⟩ := List.mem_filter.mp here
          cases after : (world.db.deleteMailbox accountId mailboxName).2.mailbox row.data.mailboxId with
          | none => exact after
          | some found =>
              obtain ⟨foundMember, foundSame⟩ := Db.mailbox_some.mp after
              obtain ⟨oldMember, unnamed⟩ := Table.mem_remove.mp foundMember
              rw [Table.eq_of_id oldMember here (foundSame.trans (beq_iff_eq.mp same).symm), named] at unnamed
              cases unnamed
        · exact .inl (Table.mem_remove.mpr ⟨member, Bool.not_eq_true _ ▸ gone⟩)
    | _ => exact absurd (by simp [Op.writes]) untouched

end World

namespace Session
open System

theorem SessionUse.harmless {lib : Libraries} {services : AppServices} {known : Knowledge cacheSignature}
    {session : ImapSession} {input : Option Input} {op : Op} (use : SessionUse lib services known session input op) :
    op.Harmless := by
  cases use with
  | login is offers use => cases use <;> trivial
  | disconnect => trivial

theorem AnonymousUse.harmless {lib : Libraries} {services : AppServices} {known : Knowledge cacheSignature}
    {session : ImapSession} {input : Option Input} {op : Op}
    (use : AnonymousUse lib services known session input op) : op.Harmless := by
  cases use with
  | session use => exact use.harmless
  | idle | panic => trivial

/-- The commands of a client that has selected its mailbox with EXAMINE keep every message of every mailbox,
whatever other clients do in between: STORE, EXPUNGE, MOVE and CLOSE change nothing. -/
theorem read_only_clients_keep_messages (server : Server) (repository : server.services.repository = true)
    (start : World) {trace : List (Transition (sessionSystem server))} {c : Config (sessionSystem server)}
    (run : Run (idle (sessionSystem server) start) trace c) {history : List Exchange}
    {connection : Connection} (client : Client trace history connection)
    {name : String} (examined : connection.session.state = .selectedMailbox name true)
    {t : Transition (sessionSystem server)} (member : t ∈ trace) {pid : Nat} {input : Option Input} {op : Op} {fault : Fault Error}
    (event : t.event = .call pid ⟨connection, input⟩ op fault) :
    KeepsMessages t.before.state.db t.after.state.db := by
  have readOnly : connection.session.view.isReadOnly = true := by
    simp [ImapSession.view, Commands.Session.isReadOnly, examined]
  have harmless : op.Harmless := by
    cases own : connection.session.accountId with
    | none => exact (anonymous_use run repository client own member event).harmless
    | some account =>
        rcases client_call_within run repository client own member event with ⟨-, harmless⟩ | use
        · exact harmless readOnly
        · exact use.harmless
  rw [call_state run member event]
  rcases (cacheHandler server.lib).answer_state fault op t.before.state with same | same <;> rw [same]
  · exact World.keepsMessages_refl _
  · exact World.perform_keepsMessages server.lib _ harmless

/-- The first user in a mailbox that EXAMINE has selected. -/
def firstReader : Connection :=
  { firstUser with session := { firstUser.session with
      state := .selectedMailbox "Work" true, selectedMailboxSnapshot := some ⟨1, 1, 0⟩ } }

def firstReaderIn : Served :=
  ⟨writeLines (selectLines (Sample.mailbox "Work" none) ++ [Commands.ok "a" "[READ-ONLY] EXAMINE completed"]),
    firstReader⟩

/-- A login, an EXAMINE and a FETCH that marks a message as seen. -/
def readsWork : List (Label (sessionSystem sharedServer)) :=
  [Label.spawn 0 (command newcomer "LOGIN" ["a@example.com", "pw"])] ++ List.replicate 6 (Label.step 0 .none) ++
    [Label.finish 0, Label.spawn 0 (command firstUser "EXAMINE" ["Work"]), Label.step 0 .none, Label.finish 0,
      Label.spawn 0 (command firstReader "FETCH" ["1", "BODY[]"])] ++ List.replicate 5 (Label.step 0 .none)

theorem read_only_clients_keep_messages_seen : ∃ trace c t pid input op fault, Run shared trace c ∧ t ∈ trace ∧
    t.event = .call pid ⟨firstReader, input⟩ op fault ∧ Component.mailboxMessages ∈ op.writes ∧
    KeepsMessages t.before.state.db t.after.state.db := by
  have evaluated : (schedule [] shared readsWork).map (fun run =>
      decide ((newcomer, firstUserIn) ∈ finished run.1 ∧
        (firstUser, firstReaderIn) ∈ finished run.1) &&
        (callsOf firstReader run.1).any fun op => decide (Component.mailboxMessages ∈ op.writes)) = some true := by
    decide +kernel
  obtain ⟨⟨trace, c⟩, followed, holds⟩ := Option.map_eq_some_iff.mp evaluated
  simp only [Bool.and_eq_true, decide_eq_true_eq, List.any_eq_true] at holds
  obtain ⟨⟨loggedIn, examined⟩, op, called, writes⟩ := holds
  obtain ⟨login, loginMember, loginPid, loginInput, logged⟩ := mem_finished loggedIn
  obtain ⟨select, selectMember, selectPid, selectInput, selected⟩ := mem_finished examined
  obtain ⟨t, member, pid, input, fault, event⟩ := mem_callsOf called
  have entered : Client trace [⟨loginPid, newcomer, loginInput, firstUserIn⟩] firstUser :=
    .served (.accepted (.plaintext false) 1 none) nofun loginMember logged
  have client : Client trace [⟨selectPid, firstUser, selectInput, firstReaderIn⟩,
      ⟨loginPid, newcomer, loginInput, firstUserIn⟩] firstReader := .served entered nofun selectMember selected
  have run := schedule_run .start followed
  exact ⟨trace, c, t, pid, input, op, fault, run, member, event, writes,
    read_only_clients_keep_messages sharedServer rfl _ run client rfl member event⟩

end Session
end ImapCache
