import MiniWallet.Server.Operations

/-!
# Publishing events

The only way to write to the outbox: wrap a payload in an envelope with a fresh event identifier.
The row is inserted with the other changes of the caller's transaction.
-/

namespace MiniWallet

open Program

/-- The outbox row for an event. -/
def publishEvent (topic eventType : String) (payload : EventPayload) (actorId : Option UUID) :
    Program OutboxRow := do
  let eventId ← uuid4
  let occurredAt ← now
  -- the primary key is drawn when the row is flushed
  let id ← uuid4
  pure
    { id := id
      topic := topic
      eventType := eventType
      payload :=
        { eventId := eventId.str
          eventType := eventType
          occurredAt := occurredAt
          version := "1"
          actorId := actorId.map UUID.str
          payload := payload } }

end MiniWallet
