import ImapCache.Model.Session

/-!
# Commands on messages and their sessions

A command on messages answers for the session that it was given. Only CLOSE leaves the selected mailbox.
-/

namespace ImapCache
open Lib Prog

namespace Commands
variable (context : Context)

/-- The command answers for the session that it was given. -/
def Keeps (command : Action Reply) : Prop := command.Returns fun reply => reply.session = context.session

variable {context}

theorem keeps_reply (lines : List String) : Keeps context (context.reply lines) := rfl

theorem keeps_bind {α : Type} (p : Action α) {f : α → Action Reply} (rest : ∀ value, Keeps context (f value)) :
    Keeps context (p.bind f) :=
  (returns_any p).bind fun value _ => rest value

theorem keeps_ask {op : Op} {f : op.Ret → Action Reply} (rest : ∀ value, Keeps context (f value)) :
    Keeps context ((await op).bind f) := keeps_bind _ rest

theorem append_keeps (args : List String) (literal : Option Bytes) : Keeps context (append context args literal) := by
  unfold append
  split
  · split
    · refine keeps_ask fun mailbox => ?_
      split
      · dsimp only
        split
        · exact keeps_reply _
        · split
          · refine keeps_bind _ fun ingested => keeps_bind _ fun _ => keeps_bind _ fun _ => ?_
            exact keeps_reply _
          · exact keeps_reply _
      · exact keeps_reply _
    · exact keeps_reply _
  · exact keeps_reply _

theorem transferMessages_keeps (name : String) (move : Bool) (accountId : Int) (source destination : Row Mailbox)
    (targets : List (Option Nat × Row MailboxMessage)) :
    Keeps context (transferMessages context name move accountId source destination targets) :=
  keeps_bind _ fun _ => keeps_bind _ fun _ => keeps_bind _ fun _ => keeps_reply _

theorem transfer_keeps (move : Bool) (args : List String) : Keeps context (transfer context move args) := by
  unfold transfer
  dsimp only
  split
  · split
    · refine keeps_ask fun source => ?_
      split
      · split
        · split
          · refine keeps_ask fun destination => ?_
            split
            · split
              · exact keeps_reply _
              · exact keeps_bind _ fun targets => transferMessages_keeps ..
            · exact keeps_reply _
          · exact keeps_reply _
        · exact keeps_reply _
      · exact keeps_reply _
    · exact keeps_reply _
  · exact keeps_reply _

theorem withUidMailbox_keeps {body : Int → Row Mailbox → Action Reply}
    (keeps : ∀ accountId mailbox, Keeps context (body accountId mailbox)) :
    Keeps context (withUidMailbox context body) := by
  unfold withUidMailbox
  split
  · split
    · refine keeps_ask fun source => ?_
      split
      · exact keeps _ _
      · exact keeps_reply _
    · exact keeps_reply _
  · exact keeps_reply _

theorem uidTransfer_keeps (move : Bool) (args : List String) : Keeps context (uidTransfer context move args) := by
  refine withUidMailbox_keeps fun accountId source => ?_
  dsimp only
  split
  · exact keeps_reply _
  · split
    · split
      · refine keeps_ask fun destination => ?_
        split
        · exact keeps_bind _ fun targets => transferMessages_keeps ..
        · exact keeps_reply _
      · exact keeps_reply _
    · exact keeps_reply _

theorem expunge_keeps (args : List String) : Keeps context (expunge context args) := by
  unfold expunge
  split
  · split
    · refine keeps_ask fun mailbox => ?_
      split
      · split
        · exact keeps_reply _
        · refine keeps_bind _ fun targets => keeps_bind _ fun lines => keeps_bind _ fun _ => ?_
          exact keeps_reply _
      · exact keeps_reply _
    · exact keeps_reply _
  · exact keeps_reply _

theorem uidExpunge_keeps (args : List String) : Keeps context (uidExpunge context args) := by
  refine withUidMailbox_keeps fun accountId mailbox => ?_
  split
  · exact keeps_reply _
  · split
    · refine keeps_ask fun messages => keeps_bind _ fun uids => keeps_bind _ fun lines => ?_
      exact keeps_bind _ fun _ => keeps_reply _
    · exact keeps_reply _

theorem store_keeps (args : List String) : Keeps context (store context args) := by
  unfold store
  split
  · split
    · refine keeps_ask fun mailbox => ?_
      split
      · split
        · exact keeps_reply _
        · refine keeps_bind _ fun request => keeps_bind _ fun targets => keeps_bind _ fun lines => ?_
          exact keeps_bind _ fun _ => keeps_reply _
      · exact keeps_reply _
    · exact keeps_reply _
  · exact keeps_reply _

theorem uidStore_keeps (args : List String) : Keeps context (uidStore context args) := by
  refine withUidMailbox_keeps fun accountId mailbox => ?_
  split
  · exact keeps_reply _
  · refine keeps_bind _ fun request => keeps_bind _ fun targets => keeps_bind _ fun lines => ?_
    exact keeps_bind _ fun _ => keeps_bind _ fun _ => keeps_reply _

theorem close_leaves : (close context).Returns fun reply => reply.session = context.session ∨
    context.session.selectedMailboxName.isSome = true ∧
      reply.session = { context.session with state := .authenticated, snapshotMailboxId := none } := by
  unfold close
  cases selected : context.session.selectedMailboxName with
  | none => exact .inl rfl
  | some mailbox => exact (returns_any _).bind fun _ _ => .inr ⟨rfl, rfl⟩

end Commands

namespace Session
open Commands (Keeps keeps_reply keeps_bind keeps_ask)
variable {context : Commands.Context}

theorem fetch_keeps (args : List String) : Keeps context (fetch context args) := by
  unfold fetch
  split
  · split
    · refine keeps_ask fun mailbox => ?_
      split
      · split
        · exact keeps_bind _ fun items => keeps_bind _ fun views => keeps_reply _
        · exact keeps_reply _
      · exact keeps_reply _
    · exact keeps_reply _
  · exact keeps_reply _

theorem uidFetch_keeps (args : List String) (mailbox : Row Mailbox) :
    Keeps context (uidFetch context args mailbox) := by
  unfold uidFetch
  split
  · exact keeps_bind _ fun items => keeps_bind _ fun views => keeps_reply _
  · exact keeps_reply _

theorem uidCommand_keeps (subcommand : String) (args : List String) :
    Keeps context (uidCommand context subcommand args) := by
  have searching (accountId : Int)
      (body : Libraries → String → Bool → Search.Searcher → List String → Action (List String)) :
      Keeps context (uidSearching context args accountId body) :=
    keeps_bind _ fun args => keeps_bind _ fun lines => keeps_reply _
  unfold uidCommand
  split
  · exact Commands.withUidMailbox_keeps fun _ mailbox => uidFetch_keeps args mailbox
  · exact Commands.withUidMailbox_keeps fun accountId _ => searching accountId search
  · exact Commands.withUidMailbox_keeps fun accountId _ => searching accountId sort
  · exact Commands.withUidMailbox_keeps fun accountId _ => searching accountId thread
  · exact Commands.uidTransfer_keeps false _
  · exact Commands.uidTransfer_keeps true _
  · exact Commands.uidExpunge_keeps _
  · exact Commands.uidStore_keeps _
  · exact Commands.withUidMailbox_keeps fun _ _ => keeps_reply _

end Session
end ImapCache
