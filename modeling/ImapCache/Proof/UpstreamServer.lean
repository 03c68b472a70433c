import Mathlib.Algebra.GroupWithZero.Nat
import ImapCache.Proof.Frames

/-!
# Facts about the upstream server

Its mailboxes have different names, so a command changes the mailbox it names and no other.
-/

namespace ImapCache

theorem sameMailboxName_refl (name : String) : sameMailboxName name name = true := by
  simp [sameMailboxName]

theorem sameMailboxName_comm (a b : String) : sameMailboxName a b = sameMailboxName b a := by
  simp only [sameMailboxName, Bool.and_comm, BEq.comm (a := a)]

theorem sameMailboxName_trans {a b d : String} (first : sameMailboxName a b = true)
    (second : sameMailboxName b d = true) : sameMailboxName a d = true := by
  simp only [sameMailboxName, Bool.or_eq_true, Bool.and_eq_true, beq_iff_eq] at *
  rcases first with rfl | ⟨inbox, inbox'⟩
  · exact second
  · rcases second with rfl | ⟨-, inbox''⟩
    · exact Or.inr ⟨inbox, inbox'⟩
    · exact Or.inr ⟨inbox, inbox''⟩

theorem sameMailboxName_congr {name other : String} (same : sameMailboxName name other = true)
    (a : String) : sameMailboxName a name = sameMailboxName a other := by
  rw [Bool.eq_iff_iff]
  constructor
  · exact fun h => sameMailboxName_trans h same
  · exact fun h => sameMailboxName_trans h ((sameMailboxName_comm other name).trans same)

namespace UpstreamMailbox

theorem find_uid {mailbox : UpstreamMailbox} {uid : Nat} {message : UpstreamMessage}
    (found : mailbox.find uid = some message) : message.uid = uid := by
  unfold find at found
  simpa using List.find?_some found

theorem find_storeFlags (mailbox : UpstreamMailbox) (uid other : Nat)
    (flags : List String) : (mailbox.storeFlags uid flags).find other =
      (mailbox.find other).map (setFlags uid flags) := by
  unfold find storeFlags
  rw [List.find?_map]
  have uids : (·.uid == other) ∘ setFlags uid flags = (·.uid == other) := by
    funext message
    simp
  rw [uids]

theorem eq_of_uid {mailbox : UpstreamMailbox} {a b : UpstreamMessage} (ha : a ∈ mailbox.messages)
    (hb : b ∈ mailbox.messages) (same : a.uid = b.uid) : a = b :=
  List.inj_on_of_nodup_map mailbox.distinct ha hb same

theorem find_of_mem {mailbox : UpstreamMailbox} {message : UpstreamMessage}
    (member : message ∈ mailbox.messages) : mailbox.find message.uid = some message := by
  cases found : mailbox.find message.uid with
  | none => simpa using List.find?_eq_none.mp found message member
  | some other => rw [eq_of_uid (List.mem_of_find?_eq_some found) member (find_uid found)]

end UpstreamMailbox

/-- The number of messages that an operation may create upstream. -/
def Op.creates : Op → Nat
  | append .. | uidCopyMessage .. => 1
  | _ => 0

theorem Op.creates_le_one (op : Op) : op.creates ≤ 1 := by
  unfold creates
  split <;> omega

namespace Upstream

/-- The mailbox that `update` puts in the place of one of the server's. -/
def updated (name : String) (f : UpstreamMailbox → UpstreamMailbox) (mailbox : UpstreamMailbox) :
    UpstreamMailbox :=
  if sameMailboxName mailbox.name name then f mailbox else mailbox

theorem update_mailboxes (server : Upstream) (name : String) (f : UpstreamMailbox → UpstreamMailbox)
    (keepsName : ∀ mailbox, (f mailbox).name = mailbox.name) :
    (server.update name f keepsName).mailboxes = server.mailboxes.map (updated name f) := rfl

theorem updated_name {name : String} {f : UpstreamMailbox → UpstreamMailbox}
    (keepsName : ∀ mailbox, (f mailbox).name = mailbox.name) (mailbox : UpstreamMailbox) :
    (updated name f mailbox).name = mailbox.name := by
  unfold updated
  split
  · exact keepsName mailbox
  · rfl

theorem find_update (server : Upstream) (name other : String) (f : UpstreamMailbox → UpstreamMailbox)
    (keepsName : ∀ mailbox, (f mailbox).name = mailbox.name) :
    (server.update name f keepsName).find other = (server.find other).map (updated name f) := by
  unfold find
  rw [update_mailboxes, List.find?_map]
  have names : (sameMailboxName ·.name other) ∘ updated name f = (sameMailboxName ·.name other) := by
    funext mailbox
    simp [updated_name keepsName]
  rw [names]

theorem find_name {server : Upstream} {name : String} {mailbox : UpstreamMailbox}
    (found : server.find name = some mailbox) : sameMailboxName mailbox.name name = true := by
  unfold find at found
  simpa using List.find?_some found

theorem find_congr (server : Upstream) {name other : String}
    (same : sameMailboxName name other = true) : server.find name = server.find other := by
  unfold find
  simp only [sameMailboxName_congr same]

theorem find_update_self {server : Upstream} {name : String} {f : UpstreamMailbox → UpstreamMailbox}
    {keepsName : ∀ mailbox, (f mailbox).name = mailbox.name} {mailbox : UpstreamMailbox}
    (found : server.find name = some mailbox) :
    (server.update name f keepsName).find name = some (f mailbox) := by
  simp [find_update, found, updated, find_name found]

theorem find_update_other {server : Upstream} {name other : String}
    {f : UpstreamMailbox → UpstreamMailbox} {keepsName : ∀ mailbox, (f mailbox).name = mailbox.name}
    (different : sameMailboxName name other = false) :
    (server.update name f keepsName).find other = server.find other := by
  rw [find_update]
  cases found : server.find other with
  | none => rfl
  | some mailbox =>
      have apart : sameMailboxName mailbox.name name = false := by
        rw [← Bool.not_eq_true]
        intro same
        rw [sameMailboxName_comm] at same
        rw [sameMailboxName_trans same (find_name found)] at different
        cases different
      simp [updated, apart]

theorem selected_ok {server : Upstream} {session : Option String} {name : String}
    {mailbox : UpstreamMailbox} (selected : server.selected session = .ok (name, mailbox)) :
    session = some name ∧ server.find name = some mailbox := by
  unfold Upstream.selected at selected
  split at selected
  · cases selected
  · split at selected
    · cases selected
    · rename_i found
      cases selected
      exact ⟨rfl, found⟩

theorem answer_uidStoreFlags {lib : Libraries} {world : World} {fault : Lib.Fault Error}
    {connection uid : Nat} {flags : List String} {name : String} {mailbox : UpstreamMailbox}
    (reaches : fault.reaches = true)
    (selected : world.upstream.selected (world.sessions connection) = .ok (name, mailbox)) :
    ((cacheHandler lib).answer fault (.uidStoreFlags connection uid flags) world).2.upstream =
      world.upstream.update name (·.storeFlags uid flags) := by
  rw [Lib.Handler.answer_reaches _ _ reaches, cacheHandler_exec]
  simp only [World.perform, World.withUpstream, uidStoreFlags, selected]

/-! ## Flags -/

def flagsOf (server : Upstream) (name : String) (uid : Nat) : Option (List String) :=
  (server.find name).bind fun mailbox => (mailbox.find uid).map (·.flags)

theorem flagsOf_congr (server : Upstream) {name other : String}
    (same : sameMailboxName name other = true) (uid : Nat) :
    server.flagsOf name uid = server.flagsOf other uid := by
  rw [flagsOf, flagsOf, server.find_congr same]

theorem flagsOf_storeFlags (server : Upstream) (name other : String) (uid k : Nat)
    (flags : List String) :
    (server.update name (·.storeFlags uid flags)).flagsOf other k =
      if sameMailboxName name other = true ∧ k = uid then (server.flagsOf other k).map fun _ => flags
      else server.flagsOf other k := by
  by_cases named : sameMailboxName name other = true
  · rw [flagsOf, flagsOf, ← server.find_congr named,
      ← (server.update name (·.storeFlags uid flags)).find_congr named]
    cases found : server.find name with
    | none => simp [find_update, found]
    | some mailbox =>
        rw [find_update_self found]
        simp only [Option.bind_some, UpstreamMailbox.find_storeFlags, named, true_and]
        cases message : mailbox.find k with
        | none => simp
        | some found' =>
            have uid' := UpstreamMailbox.find_uid message
            by_cases same : k = uid
            · simp [UpstreamMailbox.setFlags, uid', same]
            · simp [UpstreamMailbox.setFlags, uid', same]
  · rw [if_neg (fun both => named both.1), flagsOf, flagsOf,
      find_update_other (by simpa using named)]

/-! ## The number of messages -/

def messageCount (server : Upstream) : Nat := (server.mailboxes.map (·.messages.length)).sum

theorem messageCount_update (server : Upstream) (name : String) (f : UpstreamMailbox → UpstreamMailbox)
    (keepsName : ∀ mailbox, (f mailbox).name = mailbox.name) {bound : Nat}
    (grows : ∀ mailbox, (f mailbox).messages.length ≤ mailbox.messages.length + bound) :
    (server.update name f keepsName).messageCount ≤ server.messageCount + bound := by
  obtain ⟨mailboxes, uidplus, distinct⟩ := server
  simp only [messageCount, update_mailboxes]
  induction mailboxes with
  | nil => simp
  | cons mailbox rest ih =>
      rw [List.map_cons, List.pairwise_cons] at distinct
      by_cases named : sameMailboxName mailbox.name name = true
      · -- no other mailbox has the name
        have others : rest.map (updated name f) = rest := by
          refine (List.map_congr_left fun other member => ?_).trans (List.map_id rest)
          have apart := distinct.1 other.name (List.mem_map_of_mem member)
          have unnamed : sameMailboxName other.name name ≠ true := by
            intro same
            rw [sameMailboxName_comm] at same
            rw [sameMailboxName_trans named same] at apart
            cases apart
          simp [updated, unnamed]
        have first := grows mailbox
        simp only [List.map_cons, List.sum_cons, others, updated, named, if_true]
        omega
      · have same : updated name f mailbox = mailbox := by simp [updated, named]
        have rest := ih distinct.2
        simp only [List.map_cons, List.sum_cons, same]
        omega

theorem messageCount_perform (lib : Libraries) (world : World) (op : Op) :
    (world.perform lib op).2.upstream.messageCount ≤ world.upstream.messageCount + op.creates := by
  by_cases writes : Component.upstream ∈ op.writes
  · cases op with
    | append connection mailbox flags internalDate data =>
        simp only [World.perform, World.withUpstream, append]
        split
        · exact Nat.le_succ _
        · exact messageCount_update _ mailbox (·.deliver flags internalDate data) (fun _ => rfl) fun _ => by
            simp [UpstreamMailbox.deliver, Op.creates]
    | uidCopyMessage connection uid mailbox =>
        simp only [World.perform, World.withUpstream, uidCopyMessage]
        split
        · exact Nat.le_succ _
        · exact Nat.le_succ _
        · split
          · exact Nat.le_succ _
          · rename_i message _
            exact messageCount_update _ mailbox (·.deliver message.flags message.internalDate message.body)
              (fun _ => rfl) fun _ => by simp [UpstreamMailbox.deliver, Op.creates]
    | uidStoreFlags connection uid flags =>
        simp only [World.perform, World.withUpstream, uidStoreFlags]
        split
        · exact le_rfl
        · rename_i name _ _
          exact messageCount_update _ name (·.storeFlags uid flags) (fun _ => rfl) fun _ => by simp [UpstreamMailbox.storeFlags]
    | expungeSelected connection =>
        simp only [World.perform, World.withUpstream, expungeSelected]
        split
        · exact le_rfl
        · rename_i name _ _
          exact messageCount_update _ name (·.expunge) (fun _ => rfl) fun _ => List.length_filter_le _ _
    | _ => simp [Op.writes] at writes
  · have same : (world.perform lib op).2.upstream = world.upstream :=
      World.perform_frame lib world op .upstream writes
    rw [same]
    exact Nat.le_add_right _ _

end Upstream
end ImapCache
