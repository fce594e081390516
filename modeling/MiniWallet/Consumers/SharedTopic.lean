import MiniWallet.Consumers.ConsumerBase
import MiniWallet.Process.Interleaving

/-!
# Consumer groups on one topic

Kafka hands every message of a topic to every group that has subscribed to it. The groups' consumers
run side by side, and what one of them publishes on the topic again is a new message for all of
them.

* `consume`: the loop of `run()`, for any number of messages.
* `sharedTopic`: any number of consumers of the subscribed groups, on a topic to which one event has
  been published. Only the messages with this event are modelled, and a message is handed to a group
  once.
-/

namespace MiniWallet

open Process Python

/-- A topic and the groups that have subscribed to it. No group subscribes to a dead-letter topic of
its own. -/
structure Subscription where
  topic : String
  groups : List String
  separate : ∀ groupId ∈ groups, BaseConsumer.dlqTopic groupId ≠ topic

namespace SharedTopic

/-- The handling of one message by one group: the group and the offset of the message. -/
abbrev Handling := String × ℕ

/-- What a consumer of a group awaits. -/
inductive Op
  /-- The next message, with its offset. -/
  | poll (groupId : String)
  | await (groupId : String) (o : BaseConsumer.Op)

/-- The value that an operation returns. -/
def Op.Out : Op → Type
  | poll _ => ℕ × ConsumerRecord
  | await _ _ => Unit

/-- A coroutine of a consumer. -/
abbrev Program := Prog Op Op.Out BaseConsumer.Exn

/-- The coroutine of one message, run by a group. -/
def lift {α : Type} (groupId : String) : BaseConsumer.Program α → Program α
  | .pure a => .pure a
  | .raise e => .raise e
  | .call o next => .call (.await groupId o) fun r => lift groupId (next r)

/-- `async for message in consumer`. -/
def poll (groupId : String) : Program (ℕ × ConsumerRecord) := Prog.perform (Op.poll groupId)

/-- The loop of `run()`, for `n` messages. -/
def consume (limit : ℕ) (groupId : String) : ℕ → Program Unit
  | 0 => pure ()
  | n + 1 => do
      let (_, message) ← poll groupId
      lift groupId (BaseConsumer.handleMessage limit groupId message)
      consume limit groupId n

/-- A message on the topic. -/
structure Copy where
  record : ConsumerRecord
  /-- The handling that published it; none for the message that the relay published. -/
  publisher : Option Handling := none

/-- The topic, and the record of what the groups have done. -/
structure Shared where
  /-- The messages on the topic, in the order of their offsets. -/
  copies : List Copy
  /-- The messages that were handed out. -/
  taken : List Handling := []
  /-- The calls of `process`. -/
  invoked : List Handling := []
  /-- The calls of `process` that returned. -/
  succeeded : List Handling := []
  /-- The handlings in which `process` or `commit` raised an exception. -/
  failed : List Handling := []
  /-- The messages that were acknowledged in the group's dead-letter topic. -/
  dead : List Handling := []

/-- The message that a consumer handles, and how far it has got with it. -/
structure Session where
  current : Option (Handling × ConsumerRecord) := none
  invoked : Bool := false
  failed : Bool := false
  sent : Bool := false

/-- An operation can end with the result. A group gets a message only once; everything else can end
in any way. -/
def Ends (s : Shared) : (o : Op) → Except BaseConsumer.Exn o.Out → Prop
  | .poll groupId, .ok (k, message) =>
      (∃ copy, s.copies[k]? = some copy ∧ copy.record = message) ∧ (groupId, k) ∉ s.taken
  | _, _ => True

/-- The session after an operation has ended. -/
def after : (o : Op) → Except BaseConsumer.Exn o.Out → Session → Session
  | .poll groupId, .ok (k, message), _ => { current := some ((groupId, k), message) }
  | .await _ (.process _), .ok _, σ => { σ with invoked := true }
  | .await _ (.process _), .error _, σ => { σ with invoked := true, failed := true }
  | .await _ (.sendAndWait _ _ _), .ok _, σ => { σ with sent := true }
  | .await _ .commit, .error _, σ => { σ with failed := true }
  | _, _, σ => σ

/-- Kafka has acknowledged a message. -/
def publish (topic : String) (handling : Handling) (message : ConsumerRecord) (s : Shared) :
    Shared :=
  if message.topic = topic then
    { s with copies := s.copies ++ [{ record := message, publisher := some handling }] }
  else if message.topic = BaseConsumer.dlqTopic handling.1 then
    { s with dead := handling :: s.dead }
  else s

/-- What an operation does that belongs to the handling of a message. -/
def carryOut (topic : String) (handling : Handling) :
    BaseConsumer.Op → Except BaseConsumer.Exn Unit → Shared → Shared
  | .process _, .ok _, s =>
      { s with invoked := handling :: s.invoked, succeeded := handling :: s.succeeded }
  | .process _, .error _, s =>
      { s with invoked := handling :: s.invoked, failed := handling :: s.failed }
  | .sendAndWait topic' value headers, .ok _, s => publish topic handling ⟨topic', value, headers⟩ s
  | .commit, .error _, s => { s with failed := handling :: s.failed }
  | _, _, s => s

/-- What an operation that has ended does. -/
def effect (topic : String) :
    (o : Op) → Except BaseConsumer.Exn o.Out → Session → Shared → Shared
  | .poll groupId, .ok (k, _), _, s => { s with taken := (groupId, k) :: s.taken }
  | .poll _, .error _, _, s => s
  | .await _ o, r, σ, s =>
      match σ.current with
      | some (handling, _) => carryOut topic handling o r s
      | none => s

end SharedTopic

/-- The consumers of the subscribed groups. -/
def sharedTopic (limit : ℕ) (sub : Subscription) : System SharedTopic.Op SharedTopic.Op.Out
    BaseConsumer.Exn Unit SharedTopic.Shared SharedTopic.Session where
  idle := {}
  enabled := fun _ o r w => SharedTopic.Ends w.shared o r
  after := SharedTopic.after
  effect := SharedTopic.effect sub.topic
  env := fun _ _ => False
  start := fun p => ∃ groupId ∈ sub.groups, ∃ n, p = SharedTopic.consume limit groupId n

/-- An event has been published to the topic once, without headers. -/
def published (sub : Subscription) (value : Option Bytes) : SharedTopic.Shared where
  copies := [{ record := ⟨sub.topic, value, []⟩ }]

end MiniWallet
