import ImapCache.Model.RawFetch
import ImapCache.Model.Sample
import ImapCache.Proof.ResultSets

/-!
# The messages that a set names

Resolving a set gives the messages of the mailbox whose numbers are within the bounds of a part, unless
the numbers of the set are too many for the vector that is filled with all of them.
-/

namespace ImapCache.SetTargets
open Lib Prog Commands
open SetTexts (MessageNumber NumberSet)

/-! ## Positions -/

/-- The messages of a mailbox with their sequence numbers. -/
def placed {α : Type} (messages : List α) : List (Nat × α) :=
  messages.zipIdx.map fun entry => (entry.2 + 1, entry.1)

theorem mem_placed_iff {α : Type} {messages : List α} {entry : Nat × α} :
    entry ∈ placed messages ↔ 0 < entry.1 ∧ messages[entry.1 - 1]? = some entry.2 := by
  obtain ⟨n, message⟩ := entry
  unfold placed
  rw [List.mem_map]
  constructor
  · rintro ⟨⟨found, i⟩, member, same⟩
    cases same
    exact ⟨Nat.succ_pos i, List.mem_zipIdx_iff_getElem?.mp member⟩
  · rintro ⟨positive, found⟩
    refine ⟨(message, n - 1), List.mem_zipIdx_iff_getElem?.mpr found, ?_⟩
    change (n - 1 + 1, message) = (n, message)
    rw [Nat.sub_add_cancel positive]

theorem placed_ascending {α : Type} (messages : List α) :
    (placed messages).Pairwise fun a b => a.1 < b.1 := by
  rw [placed, List.pairwise_map, List.pairwise_iff_getElem]
  intro i j _ _ before
  simpa using before

/-- The messages at ascending numbers are those of the mailbox whose numbers are among them. -/
theorem filterMap_eq_filter_placed {α : Type} (messages : List α) {numbers : List Int}
    (ascending : numbers.Pairwise (· < ·)) (positive : ∀ n ∈ numbers, 0 < n) :
    (numbers.filterMap fun n => messages[(n - 1).toNat]?.map fun message => (n.toNat, message)) =
      (placed messages).filter fun entry => (entry.1 : Int) ∈ numbers := by
  have left : (numbers.filterMap fun n => messages[(n - 1).toNat]?.map fun message =>
      (n.toNat, message)).Pairwise fun a b => a.1 < b.1 := by
    rw [List.pairwise_filterMap]
    refine ascending.imp_of_mem fun {n m} isN isM below a isA b isB => ?_
    obtain ⟨_, -, rfl⟩ := Option.map_eq_some_iff.mp isA
    obtain ⟨_, -, rfl⟩ := Option.map_eq_some_iff.mp isB
    have := positive n isN
    change n.toNat < m.toNat
    omega
  have right := (placed_ascending messages).filter fun entry => decide ((entry.1 : Int) ∈ numbers)
  have distinct {l : List (Nat × α)} (increasing : l.Pairwise fun a b => a.1 < b.1) : l.Nodup := by
    refine increasing.imp fun {a b} below same => ?_
    rw [same] at below
    exact Nat.lt_irrefl _ below
  refine List.Perm.eq_of_pairwise (fun a b _ _ below above => absurd below (Nat.lt_asymm above)) left right
    ((List.perm_ext_iff_of_nodup (distinct left) (distinct right)).mpr fun entry => ?_)
  rw [List.mem_filterMap, List.mem_filter, mem_placed_iff, decide_eq_true_eq]
  constructor
  · rintro ⟨n, isNumber, found⟩
    obtain ⟨message, located, rfl⟩ := Option.map_eq_some_iff.mp found
    have above := positive n isNumber
    have index : n.toNat - 1 = (n - 1).toNat := by omega
    have value : (n.toNat : Int) = n := by omega
    refine ⟨⟨by dsimp only; omega, ?_⟩, ?_⟩
    · rw [index]
      exact located
    · rw [value]
      exact isNumber
  · rintro ⟨⟨above, located⟩, isNumber⟩
    have index : ((entry.1 : Int) - 1).toNat = entry.1 - 1 := by omega
    exact ⟨entry.1, isNumber, by rw [index, located]; rfl⟩

/-! ## Resolving -/

section
variable (lib : Libraries) (world : World) (mailboxId : Int) (set : NumberSet)

/-- The answer of a program to which every call is answered. -/
def answer {α : Type} (program : Action α) : Except Error α := (program.eval (cacheHandler lib) world).1

theorem answer_iff {α : Type} {op : Op} {value : op.Ret} (listed : world.perform lib op = (.ok value, world))
    {star : op.Ret → Int} {next : op.Ret → List Int → α} {resolved : α}
    (read : next value (parseNumberSet set.text (star value)) = resolved) :
    answer lib world (do
      let messages ← await op
      let numbers ← numberSet set.text (star messages)
      pure (next messages numbers)) = .ok resolved ↔ set.fits (star value) = true := by
  unfold answer
  rw [bind_eq, eval_await_bind listed]
  unfold numberSet
  rw [set.numberSetFits_text]
  cases fits : set.fits (star value) with
  | true => exact iff_of_true (congrArg Except.ok read) rfl
  | false => exact iff_of_false (fun same => by cases same) Bool.false_ne_true

theorem filterMap_parseNumberSet {α : Type} (messages : List α) (star : Int) :
    ((parseNumberSet set.text star).filterMap fun n =>
      messages[(n - 1).toNat]?.map fun message => (n.toNat, message)) =
      (placed messages).filter fun entry => set.has star entry.1 := by
  rw [filterMap_eq_filter_placed messages (parseNumberSet_ascending _ _) fun n => parseNumberSet_positive]
  refine List.filter_congr fun entry _ => ?_
  rw [Bool.eq_iff_iff, decide_eq_true_eq]
  exact set.mem_parseNumberSet_text star entry.1

theorem filter_parseNumberSet {α : Type} (messages : List α) (star : Int) (uid : α → Int) :
    (messages.filter fun message => (parseNumberSet set.text star).contains (uid message)) =
      messages.filter fun message => set.has star (uid message) := by
  refine List.filter_congr fun message _ => ?_
  rw [Bool.eq_iff_iff, List.contains_iff_mem]
  exact set.mem_parseNumberSet_text star (uid message)

end

theorem set_resolution_iff (lib : Libraries) (world : World) (mailboxId : Int) (set : NumberSet) :
    let messages := world.db.listMailboxMessages mailboxId
    let views := world.db.listMailboxMessageViews lib.createdAt mailboxId
    let largest := (messages.map (·.data.localUid)).max?.getD 0
    let largestView := (views.map (·.localUid)).max?.getD 0
    (answer lib world (resolveSequenceTargets mailboxId set.text) =
        .ok ((placed messages).filter fun entry => set.has messages.length entry.1) ↔
      set.fits messages.length = true) ∧
    (answer lib world (RawFetch.resolveSequenceViews mailboxId set.text) =
        .ok (((placed views).filter fun entry => set.has views.length entry.1).map fun entry =>
          ((entry.1 : Int), entry.2)) ↔
      set.fits views.length = true) ∧
    (answer lib world (resolveUidTargets mailboxId set.text) =
        .ok (messages.filter fun message => set.has largest message.data.localUid) ↔
      set.fits largest = true) ∧
    (answer lib world (RawFetch.resolveUidViews mailboxId set.text) =
        .ok (views.filter fun view => set.has largestView view.localUid) ↔
      set.fits largestView = true) := by
  intro messages views largest largestView
  have listed : world.perform lib (.listMailboxMessages mailboxId) = (.ok messages, world) := rfl
  have viewed : world.perform lib (.listMailboxMessageViews mailboxId) = (.ok views, world) := rfl
  refine ⟨?_, ?_, ?_, ?_⟩
  · exact answer_iff lib world set listed (filterMap_parseNumberSet set messages messages.length)
  · refine answer_iff lib world set viewed ?_
    rw [← filterMap_parseNumberSet set views views.length, List.map_filterMap]
    refine List.filterMap_congr fun n isNumber => ?_
    have positive := parseNumberSet_positive isNumber
    have value : (n.toNat : Int) = n := by omega
    rw [Option.map_map]
    refine congrArg (Option.map · _) (funext fun view => ?_)
    rw [Function.comp_apply, value]
  · exact answer_iff lib world set listed (filter_parseNumberSet set messages largest _)
  · exact answer_iff lib world set viewed (filter_parseNumberSet set views largestView _)

def everyNumber : NumberSet where
  parts := [.range (.number ⟨1, by decide, by decide⟩) (.number ⟨9223372036854775807, by decide, by decide⟩)]
  nonempty := List.cons_ne_nil _ _

/-- A mailbox with one message, which the set names. -/
def oneMessage : World :=
  Sample.world (Sample.db [Sample.mailbox "INBOX" (some 7)] [Sample.row 1 1 none []])
    (Sample.emptyServer (some 7))

theorem every_number_panics :
    answer Sample.libraries oneMessage (resolveSequenceTargets 1 everyNumber.text) =
        .error (.io "the process panicked") ∧
      (oneMessage.db.listMailboxMessages 1).length = 1 ∧ everyNumber.has 1 1 = true := by
  decide +kernel

end ImapCache.SetTargets
