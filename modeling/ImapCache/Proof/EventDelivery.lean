import Mathlib.Algebra.GroupWithZero.Nat
import Mathlib.Algebra.BigOperators.Group.List.Basic
import ImapCache.Model.Notifications
import ImapCache.Model.Responses

/-!
# How often an event reaches a session

Once nothing is under way, a session has got an event once from the hub sink, if it is in the
publishing process, and once from its relay, if both processes use the same Redis.
-/

namespace ImapCache.Notifications

/-! ## Deliveries, made and owed -/

def copies (serial : Nat) (publications : List Publication) : Nat :=
  publications.countP (·.serial == serial)

def Receiver.deliveries (receiver : Receiver) (serial : Nat) : Nat :=
  copies serial receiver.received + copies serial receiver.waiting

/-- How often a sink brings an event to the hub of a process. -/
def Sink.reaches (configs : Nat → Config) (process : Nat) : Sink → Nat
  | hub publisher => if publisher = process then 1 else 0
  | redis url => if (configs process).redisUrl = some url then 1 else 0

def reach (configs : Nat → Config) (process : Nat) (sinks : List Sink) : Nat :=
  (sinks.map (·.reaches configs process)).sum

/-- What the publications under way will still bring to a process. -/
def owed (configs : Nat → Config) (process serial : Nat) (publishing : List (Publication × List Sink)) :
    Nat :=
  (publishing.map fun entry =>
    if entry.1.serial = serial then reach configs process entry.2 else 0).sum

/-- What the sinks of its publisher bring to a process in all. -/
def expected (configs : Nat → Config) (log : List (Nat × MutationEvent)) (process serial : Nat) : Nat :=
  match log[serial]? with
  | some (publisher, _) => reach configs process (eventSinks (configs publisher) publisher)
  | none => 0

@[simp] theorem copies_nil (serial : Nat) : copies serial [] = 0 := rfl

@[simp] theorem copies_append (serial : Nat) (a b : List Publication) :
    copies serial (a ++ b) = copies serial a + copies serial b := List.countP_append

theorem copies_cons (serial : Nat) (publication : Publication) (rest : List Publication) :
    copies serial (publication :: rest) = copies serial [publication] + copies serial rest := by
  rw [← copies_append, List.singleton_append]

theorem copies_singleton (serial : Nat) (publication : Publication) :
    copies serial [publication] = if publication.serial = serial then 1 else 0 := by
  simp [copies, List.countP_cons]

@[simp] theorem owed_append (configs : Nat → Config) (process serial : Nat)
    (a b : List (Publication × List Sink)) :
    owed configs process serial (a ++ b) =
      owed configs process serial a + owed configs process serial b := by
  simp [owed]

theorem owed_set (configs : Nat → Config) (process serial : Nat)
    {publishing : List (Publication × List Sink)} {index : Nat} {publication : Publication} {sink : Sink}
    {rest : List Sink} (found : publishing[index]? = some (publication, sink :: rest)) :
    owed configs process serial (publishing.set index (publication, rest)) +
        (if publication.serial = serial then sink.reaches configs process else 0) =
      owed configs process serial publishing := by
  induction publishing generalizing index with
  | nil => cases found
  | cons entry entries ih =>
      cases index with
      | zero =>
          simp only [List.getElem?_cons_zero, Option.some.injEq] at found
          subst found
          simp only [List.set_cons_zero, owed, reach, List.map_cons, List.sum_cons]
          split <;> omega
      | succ index =>
          have tail := ih (by simpa using found)
          simp only [List.set_cons_succ, owed, List.map_cons, List.sum_cons] at tail ⊢
          omega

theorem deliveries_send {receiver : Receiver} (room : receiver.waiting.length < hubCapacity)
    (publication : Publication) (serial : Nat) :
    (receiver.send publication).deliveries serial =
      receiver.deliveries serial + if publication.serial = serial then 1 else 0 := by
  simp only [Receiver.send, Receiver.deliveries, room, if_true, copies_append, copies_singleton]
  omega

/-! ## The balance -/

/-- What has reached each session since it subscribed, what waits for its relay and what is still owed
add up to what its process should get. -/
structure Balanced (configs : Nat → Config) (net : Network) : Prop where
  balance : ∀ receiver ∈ net.receivers, ∀ serial, receiver.since ≤ serial →
    receiver.deliveries serial + copies serial (net.channel receiver.process) +
      owed configs receiver.process serial net.publishing =
        expected configs net.log receiver.process serial
  published : ∀ entry ∈ net.publishing, entry.1.serial < net.log.length
  relayed : ∀ process, ∀ publication ∈ net.channel process, publication.serial < net.log.length

/-- No session is so far behind that it would lose an event. -/
def KeepsUp (net : Network) : Prop :=
  ∀ receiver ∈ net.receivers, receiver.waiting.length < hubCapacity

variable {configs : Nat → Config} {net net' : Network}

theorem receiver_of_hubPublish (keepsUp : KeepsUp net) {process : Nat} {publication : Publication}
    {receiver' : Receiver} (member : receiver' ∈ (net.hubPublish process publication).receivers) :
    ∃ receiver ∈ net.receivers, receiver'.process = receiver.process ∧
      receiver'.since = receiver.since ∧ ∀ serial, receiver'.deliveries serial =
        receiver.deliveries serial +
          if receiver.process = process ∧ publication.serial = serial then 1 else 0 := by
  obtain ⟨receiver, here, rfl⟩ := List.mem_map.mp member
  refine ⟨receiver, here, ?_⟩
  split
  · rename_i same
    refine ⟨rfl, rfl, fun serial => ?_⟩
    rw [deliveries_send (keepsUp receiver here)]
    simp [same]
  · rename_i other
    exact ⟨rfl, rfl, fun serial => by simp [other]⟩

theorem balanced_subscribe (balanced : Balanced configs net) {process : Nat}
    (taken : net.step configs (.subscribe process) = some net') : Balanced configs net' := by
  cases taken
  refine ⟨fun receiver member serial since => ?_, balanced.published, balanced.relayed⟩
  rcases List.mem_append.mp member with old | new
  · exact balanced.balance receiver old serial since
  · -- nothing that is under way was published after the subscription
    rw [List.mem_singleton] at new
    subst new
    change net.log.length ≤ serial at since
    have waiting : copies serial (net.channel process) = 0 := by
      rw [copies, List.countP_eq_zero]
      intro publication inChannel
      have := balanced.relayed process publication inChannel
      simp only [beq_iff_eq]
      omega
    have nothing : owed configs process serial net.publishing = 0 := by
      rw [owed, List.sum_eq_zero]
      intro share member
      obtain ⟨entry, inProgress, rfl⟩ := List.mem_map.mp member
      have := balanced.published entry inProgress
      rw [if_neg (by omega)]
    have future : net.log[serial]? = none := List.getElem?_eq_none since
    simp [Receiver.deliveries, waiting, nothing, expected, future]

theorem balanced_publish (balanced : Balanced configs net) {process : Nat} {event : MutationEvent}
    (taken : net.step configs (.publish process event) = some net') : Balanced configs net' := by
  simp only [Network.step] at taken
  split at taken
  · cases taken
    refine ⟨fun receiver member serial since => ?_, fun entry member => ?_, fun q publication member => ?_⟩
    · have before := balanced.balance receiver member serial since
      simp only [owed_append]
      rcases lt_trichotomy serial net.log.length with earlier | rfl | later
      · have other : ¬ net.log.length = serial := by omega
        simp only [expected, List.getElem?_append_left earlier] at before ⊢
        simpa [owed, other] using before
      · simp only [expected, List.getElem?_eq_none le_rfl] at before
        simp only [expected, List.getElem?_concat_length]
        simp only [owed, List.map_cons, List.map_nil, List.sum_cons, List.sum_nil, if_true] at before ⊢
        omega
      · have other : ¬ net.log.length = serial := by omega
        simp only [expected] at before ⊢
        rw [List.getElem?_eq_none (by simp; omega)]
        rw [List.getElem?_eq_none (by omega)] at before
        simpa [owed, other] using before
    · rw [List.length_append, List.length_singleton]
      rcases List.mem_append.mp member with old | new
      · exact Nat.lt_succ_of_lt (balanced.published entry old)
      · rw [List.mem_singleton] at new
        subst new
        exact Nat.lt_succ_self _
    · rw [List.length_append, List.length_singleton]
      exact Nat.lt_succ_of_lt (balanced.relayed q publication member)
  · cases taken

theorem balanced_relay (keepsUp : KeepsUp net) (balanced : Balanced configs net) {process : Nat}
    (taken : net.step configs (.relay process) = some net') : Balanced configs net' := by
  simp only [Network.step] at taken
  split at taken
  · rename_i publication rest queue
    cases taken
    have remaining : ∀ q serial, copies serial (Function.update net.channel process rest q) +
        (if q = process ∧ publication.serial = serial then 1 else 0) = copies serial (net.channel q) := by
      intro q serial
      by_cases same : q = process
      · subst same
        rw [Function.update_self, queue, copies_cons, copies_singleton]
        simp only [true_and]
        omega
      · simp [same]
    refine ⟨fun receiver' member serial since => ?_, balanced.published, fun q message member => ?_⟩
    · obtain ⟨receiver, here, sameProcess, sameSince, deliveries⟩ :=
        receiver_of_hubPublish (fun receiver here => keepsUp receiver here) member
      have before := balanced.balance receiver here serial (sameSince ▸ since)
      have moved := remaining receiver.process serial
      rw [deliveries serial, sameProcess]
      simp only [Network.hubPublish] at before ⊢
      omega
    · refine balanced.relayed q message ?_
      change message ∈ Function.update net.channel process rest q at member
      by_cases same : q = process
      · subst same
        rw [Function.update_self] at member
        rw [queue]
        exact List.mem_cons_of_mem _ member
      · rwa [Function.update_of_ne same] at member
  · cases taken

theorem balanced_receive (balanced : Balanced configs net) {index : Nat}
    (taken : net.step configs (.receive index) = some net') : Balanced configs net' := by
  simp only [Network.step] at taken
  split at taken
  · rename_i process since publication rest received found
    cases taken
    refine ⟨fun receiver member serial => ?_, balanced.published, balanced.relayed⟩
    rcases List.mem_or_eq_of_mem_set member with old | rfl
    · exact balanced.balance receiver old serial
    · intro from'
      have before := balanced.balance _ (List.mem_of_getElem? found) serial from'
      simp only [Receiver.deliveries, copies_append] at before ⊢
      rw [copies_cons] at before
      omega
  · cases taken

theorem balanced_sink (keepsUp : KeepsUp net) (balanced : Balanced configs net) {index : Nat}
    (taken : net.step configs (.sink index) = some net') : Balanced configs net' := by
  simp only [Network.step] at taken
  split at taken
  · rename_i publication sink rest found
    cases taken
    have current := balanced.published _ (List.mem_of_getElem? found)
    have published : ∀ entry ∈ net.publishing.set index (publication, rest),
        entry.1.serial < net.log.length := by
      intro entry member
      rcases List.mem_or_eq_of_mem_set member with old | rfl
      · exact balanced.published entry old
      · exact current
    cases sink with
    | hub process =>
        refine ⟨fun receiver' member serial since => ?_, published, balanced.relayed⟩
        obtain ⟨receiver, here, sameProcess, sameSince, deliveries⟩ :=
          receiver_of_hubPublish (fun receiver here => keepsUp receiver here) member
        have before := balanced.balance receiver here serial (sameSince ▸ since)
        have served := owed_set configs receiver.process serial found
        rw [deliveries serial, sameProcess]
        simp only [Sink.reaches] at served
        simp only [Network.publishTo, Network.hubPublish] at before ⊢
        split_ifs at served ⊢ <;> omega
    | redis url =>
        refine ⟨fun receiver member serial since => ?_, published, fun q message member => ?_⟩
        · have before := balanced.balance receiver member serial since
          have served := owed_set configs receiver.process serial found
          have moved : copies serial (if (configs receiver.process).redisUrl = some url then
              net.channel receiver.process ++ [publication] else net.channel receiver.process) =
                copies serial (net.channel receiver.process) + if publication.serial = serial then
                  Sink.reaches configs receiver.process (.redis url) else 0 := by
            unfold Sink.reaches
            split_ifs <;> simp_all [copies_singleton]
          simp only [Network.publishTo, Network.redisPublish, moved]
          omega
        · change message ∈ (if (configs q).redisUrl = some url then net.channel q ++ [publication]
            else net.channel q) at member
          split at member
          · rcases List.mem_append.mp member with old | new
            · exact balanced.relayed q message old
            · rw [List.mem_singleton] at new
              subst new
              exact current
          · exact balanced.relayed q message member
  · cases taken

theorem balanced_run {past : List Network} (run : Run configs past net)
    (keepsUp : ∀ earlier ∈ past, KeepsUp earlier) : Balanced configs net := by
  induction run with
  | start =>
      refine ⟨fun receiver member => ?_, fun entry member => ?_, fun q publication member => ?_⟩ <;>
        exact absurd member List.not_mem_nil
  | @step past net net' run action taken ih =>
      have before := ih fun earlier member => keepsUp earlier (List.mem_cons_of_mem _ member)
      have room := keepsUp net (List.mem_cons_self ..)
      cases action with
      | subscribe process => exact balanced_subscribe before taken
      | publish process event => exact balanced_publish before taken
      | sink index => exact balanced_sink room before taken
      | relay process => exact balanced_relay room before taken
      | receive index => exact balanced_receive before taken

/-! ## The number of deliveries -/

/-- Nothing is under way: every sink is served and no relay has a message left. -/
def Settled (net : Network) : Prop :=
  (∀ entry ∈ net.publishing, entry.2 = []) ∧ ∀ process, net.channel process = []

def sharesRedis (configs : Nat → Config) (publisher process : Nat) : Bool :=
  (configs publisher).redisUrl.isSome && (configs process).redisUrl == (configs publisher).redisUrl

theorem owed_settled (settled : Settled net) (process serial : Nat) :
    owed configs process serial net.publishing = 0 := by
  rw [owed, List.sum_eq_zero]
  intro share member
  obtain ⟨entry, inProgress, rfl⟩ := List.mem_map.mp member
  simp [settled.1 entry inProgress, reach]

theorem reach_eventSinks (publisher process : Nat) :
    reach configs process (eventSinks (configs publisher) publisher) =
      (if publisher = process then 1 else 0) + if sharesRedis configs publisher process then 1 else 0 := by
  cases url : (configs publisher).redisUrl with
  | none => simp [reach, eventSinks, Sink.reaches, sharesRedis, url]
  | some url => simp [reach, eventSinks, Sink.reaches, sharesRedis, url]

/-- After every run that keeps its sessions up to date and leaves nothing under way, an event has
reached a session that had subscribed exactly once if and only if the session is in the publishing
process and that process does not use Redis, or it is in another one that uses the same Redis. -/
theorem delivered_once_iff {past : List Network} (run : Run configs past net)
    (keepsUp : ∀ earlier ∈ past, KeepsUp earlier) (settled : Settled net) {serial publisher : Nat}
    {event : MutationEvent} (published : net.log[serial]? = some (publisher, event))
    {receiver : Receiver} (member : receiver ∈ net.receivers) (subscribed : receiver.since ≤ serial) :
    receiver.deliveries serial = 1 ↔
      (publisher = receiver.process ↔ sharesRedis configs publisher receiver.process = false) := by
  have balance := (balanced_run run keepsUp).balance receiver member serial subscribed
  rw [settled.2, copies_nil, owed_settled settled] at balance
  simp only [expected, published, reach_eventSinks, add_zero] at balance
  rw [balance]
  by_cases own : publisher = receiver.process <;>
    cases shares : sharesRedis configs publisher receiver.process <;> simp_all

/-! ## One process with Redis, and two processes with and without it -/

theorem follow_run {past past' : List Network} {actions : List Action} (run : Run configs past net)
    (followed : follow configs past net actions = some (past', net')) : Run configs past' net' := by
  induction actions generalizing past net with
  | nil =>
      cases followed
      exact run
  | cons action actions ih =>
      simp only [follow] at followed
      split at followed
      · cases followed
      · rename_i next taken
        exact ih (run.step action taken) followed

theorem channel_without_redis {past : List Network} (run : Run configs past net) {process : Nat}
    (without : (configs process).redisUrl = none) : net.channel process = [] := by
  induction run with
  | start => rfl
  | @step past net net' run action taken ih =>
      cases action with
      | subscribe q =>
          cases taken
          exact ih
      | publish q event =>
          simp only [Network.step] at taken
          split at taken
          · cases taken
            exact ih
          · cases taken
      | sink index =>
          simp only [Network.step] at taken
          split at taken
          · rename_i publication sink rest found
            cases taken
            cases sink with
            | hub q => exact ih
            | redis url => simpa [Network.publishTo, Network.redisPublish, without] using ih
          · cases taken
      | relay q =>
          simp only [Network.step] at taken
          split at taken
          · rename_i publication rest queue
            cases taken
            have other : process ≠ q := by
              rintro rfl
              rw [ih] at queue
              cases queue
            simpa [Network.hubPublish, Function.update_of_ne other] using ih
          · cases taken
      | receive index =>
          simp only [Network.step] at taken
          split at taken
          · cases taken
            exact ih
          · cases taken

/-- Processes 0 and 1 with the given Redis, and no other. -/
def twoProcesses (redisUrl : Option String) (process : Nat) : Config :=
  if process < 2 then ⟨some "postgres://db", redisUrl⟩ else ⟨none, none⟩

def sampleEvent : MutationEvent := .mailboxChanged (some 1) (some 1) "refresh_mailbox_counts"

/-- A session in each of the two processes, and an event of process 0. -/
def published (relays : List Action) : List Action :=
  [Action.subscribe 0, Action.subscribe 1, Action.publish 0 sampleEvent] ++ relays ++ [Action.receive 0]

/-- What the run is checked for: its sessions keep up, nothing is under way in the two processes,
the event is of process 0, and the sessions with their deliveries. -/
def observed (run : List Network × Network) : Bool × Bool × Option Nat × List (Nat × Nat × Nat) :=
  (run.1.all fun net => net.receivers.all (·.waiting.length < hubCapacity),
    (run.2.publishing.all (·.2.isEmpty) && (run.2.channel 0).isEmpty && (run.2.channel 1).isEmpty),
    run.2.log[0]?.map (·.1),
    run.2.receivers.map fun receiver => (receiver.process, receiver.since, receiver.deliveries 0))

theorem settled_of_observed {redisUrl : Option String} {past : List Network}
    (run : Run (twoProcesses redisUrl) past net)
    (settled : (net.publishing.all (·.2.isEmpty) && (net.channel 0).isEmpty && (net.channel 1).isEmpty) =
      true) : Settled net := by
  simp only [Bool.and_eq_true, List.all_eq_true, List.isEmpty_iff] at settled
  refine ⟨settled.1.1, fun process => ?_⟩
  by_cases zero : process = 0
  · exact zero ▸ settled.1.2
  by_cases one : process = 1
  · exact one ▸ settled.2
  have other : ¬ process < 2 := by omega
  exact channel_without_redis run (by simp [twoProcesses, other])

theorem session_of_observed {process since count : Nat} {sessions : List (Nat × Nat × Nat)}
    (eq : (net.receivers.map fun receiver => (receiver.process, receiver.since, receiver.deliveries 0)) =
      sessions) (listed : (process, since, count) ∈ sessions) :
    ∃ receiver ∈ net.receivers, receiver.process = process ∧ receiver.since = since ∧
      receiver.deliveries 0 = count := by
  subst eq
  obtain ⟨receiver, member, same⟩ := List.mem_map.mp listed
  simp only [Prod.mk.injEq] at same
  exact ⟨receiver, member, same⟩

/-- With Redis, the session of the other process gets the event once. -/
theorem delivered_once_relayed : ∃ past net receiver, Run (twoProcesses (some "redis://cache")) past net ∧
    receiver ∈ net.receivers ∧ receiver.process = 1 ∧ receiver.deliveries 0 = 1 := by
  have evaluated : (follow (twoProcesses (some "redis://cache")) [] .empty
      (published [.sink 0, .sink 0, .relay 1, .relay 0])).map observed =
        some (true, true, some 0, [(0, 0, 2), (1, 0, 1)]) := by
    rfl
  obtain ⟨⟨past, net⟩, followed, result⟩ := Option.map_eq_some_iff.mp evaluated
  simp only [observed, Prod.mk.injEq, List.all_eq_true, decide_eq_true_eq, Option.map_eq_some_iff] at result
  obtain ⟨keepsUp, settled, ⟨⟨publisher, event⟩, published, rfl⟩, sessions⟩ := result
  have run := follow_run .start followed
  obtain ⟨receiver, member, process, since, -⟩ :=
    session_of_observed sessions (List.mem_cons_of_mem _ (List.mem_cons_self ..))
  refine ⟨past, net, receiver, run, member, process, ?_⟩
  refine (delivered_once_iff run keepsUp (settled_of_observed run settled) published member
    (by omega)).mpr ?_
  rw [process]
  decide

/-- With Redis, a session of the publishing process gets the event twice; without, the session of the
other process never gets it. -/
theorem not_delivered_once :
    (∃ past net receiver, Run (twoProcesses (some "redis://cache")) past net ∧ Settled net ∧
      receiver ∈ net.receivers ∧ receiver.process = 0 ∧ receiver.since = 0 ∧
        net.log[0]?.map (·.1) = some 0 ∧ receiver.deliveries 0 = 2) ∧
    ∃ past net receiver, Run (twoProcesses none) past net ∧ Settled net ∧
      receiver ∈ net.receivers ∧ receiver.process = 1 ∧ receiver.since = 0 ∧
        net.log[0]?.map (·.1) = some 0 ∧ receiver.deliveries 0 = 0 := by
  constructor
  · have evaluated : (follow (twoProcesses (some "redis://cache")) [] .empty
        (published [.sink 0, .sink 0, .relay 1, .relay 0])).map observed =
          some (true, true, some 0, [(0, 0, 2), (1, 0, 1)]) := by
      rfl
    obtain ⟨⟨past, net⟩, followed, result⟩ := Option.map_eq_some_iff.mp evaluated
    simp only [observed, Prod.mk.injEq] at result
    obtain ⟨-, settled, log, sessions⟩ := result
    have run := follow_run .start followed
    obtain ⟨receiver, member, process, since, twice⟩ :=
      session_of_observed sessions (List.mem_cons_self ..)
    exact ⟨past, net, receiver, run, settled_of_observed run settled, member, process, since, log, twice⟩
  · have evaluated : (follow (twoProcesses none) [] .empty (published [.sink 0])).map observed =
        some (true, true, some 0, [(0, 0, 1), (1, 0, 0)]) := by
      rfl
    obtain ⟨⟨past, net⟩, followed, result⟩ := Option.map_eq_some_iff.mp evaluated
    simp only [observed, Prod.mk.injEq] at result
    obtain ⟨-, settled, log, sessions⟩ := result
    have run := follow_run .start followed
    obtain ⟨receiver, member, process, since, never⟩ :=
      session_of_observed sessions (List.mem_cons_of_mem _ (List.mem_cons_self ..))
    exact ⟨past, net, receiver, run, settled_of_observed run settled, member, process, since, log, never⟩

end ImapCache.Notifications
