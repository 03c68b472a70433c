import Mathlib.Logic.Function.Basic
import ImapCache.Model.Domain

/-!
# The delivery of events

The hub of each process, the sinks that its repository publishes to and the relay that feeds the hub
from Redis, over any number of processes. Redis hands each message to every subscriber of the channel
once. A publication carries its place in the log of all publications, which the code does not see.
-/

namespace ImapCache.Notifications

/-- What the configuration of a process says about its events. -/
structure Config where
  databaseUrl : Option String
  redisUrl : Option String
deriving DecidableEq, Repr

structure Publication where
  serial : Nat
  event : MutationEvent
deriving DecidableEq, Repr

/-! ## The hub -/

def hubCapacity : Nat := 1024

/-- What a session has got from `subscribe` of the hub of its process: the events that wait for it
and those it has taken. -/
structure Receiver where
  process : Nat
  /-- The length of the log when the session subscribed. -/
  since : Nat
  waiting : List Publication
  received : List Publication
deriving DecidableEq, Repr

/-- A send to a receiver that is too far behind costs it the oldest event. -/
def Receiver.send (publication : Publication) (receiver : Receiver) : Receiver :=
  let kept := if receiver.waiting.length < hubCapacity then receiver.waiting else receiver.waiting.tail
  { receiver with waiting := kept ++ [publication] }

/-! ## Sinks -/

inductive Sink where
  | hub (process : Nat)
  | redis (url : String)
deriving DecidableEq, Repr

/-- The sinks of the composite that `AppServices::new` gives the repository. -/
def eventSinks (config : Config) (process : Nat) : List Sink :=
  .hub process :: config.redisUrl.toList.map .redis

structure Network where
  log : List (Nat × MutationEvent)
  /-- The publications under way, each with the sinks that the composite has still to serve. -/
  publishing : List (Publication × List Sink)
  /-- The messages that wait for the relay of a process. -/
  channel : Nat → List Publication
  receivers : List Receiver

namespace Network

def empty : Network := ⟨[], [], fun _ => [], []⟩

def hubPublish (net : Network) (process : Nat) (publication : Publication) : Network :=
  { net with receivers := net.receivers.map fun receiver =>
      if receiver.process = process then receiver.send publication else receiver }

def redisPublish (configs : Nat → Config) (net : Network) (url : String) (publication : Publication) :
    Network :=
  { net with channel := fun process =>
      if (configs process).redisUrl = some url then net.channel process ++ [publication]
      else net.channel process }

def publishTo (configs : Nat → Config) (net : Network) (publication : Publication) : Sink → Network
  | .hub process => net.hubPublish process publication
  | .redis url => net.redisPublish configs url publication

end Network

/-! ## Steps -/

inductive Action where
  | subscribe (process : Nat)
  /-- The repository of a process publishes an event. -/
  | publish (process : Nat) (event : MutationEvent)
  /-- The composite serves the next sink of a publication. -/
  | sink (index : Nat)
  /-- The relay of a process takes its next message. -/
  | relay (process : Nat)
  /-- A session takes its next event. -/
  | receive (index : Nat)
deriving DecidableEq, Repr

def Network.step (configs : Nat → Config) (net : Network) : Action → Option Network
  | .subscribe process =>
      some { net with receivers := net.receivers ++ [⟨process, net.log.length, [], []⟩] }
  | .publish process event =>
      if (configs process).databaseUrl.isSome then
        some { net with
          log := net.log ++ [(process, event)]
          publishing := net.publishing ++
            [(⟨net.log.length, event⟩, eventSinks (configs process) process)] }
      else none
  | .sink index =>
      match net.publishing[index]? with
      | some (publication, sink :: rest) =>
          some ({ net with publishing := net.publishing.set index (publication, rest) }.publishTo
            configs publication sink)
      | _ => none
  | .relay process =>
      match net.channel process with
      | publication :: rest =>
          some ({ net with channel := Function.update net.channel process rest }.hubPublish process
            publication)
      | [] => none
  | .receive index =>
      match net.receivers[index]? with
      | some ⟨process, since, publication :: rest, received⟩ =>
          let receiver : Receiver := ⟨process, since, rest, received ++ [publication]⟩
          some { net with receivers := net.receivers.set index receiver }
      | _ => none

/-- The networks that a run goes through, the most recent first, and the one it has reached. -/
inductive Run (configs : Nat → Config) : List Network → Network → Prop where
  | start : Run configs [] .empty
  | step {past net net'} (run : Run configs past net) (action : Action)
      (taken : net.step configs action = some net') : Run configs (net :: past) net'

/-- Take the actions one after the other. -/
def follow (configs : Nat → Config) (past : List Network) (net : Network) :
    List Action → Option (List Network × Network)
  | [] => some (past, net)
  | action :: actions =>
      match net.step configs action with
      | none => none
      | some net' => follow configs (net :: past) net' actions

end ImapCache.Notifications
