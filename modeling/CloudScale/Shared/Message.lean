/-
  The saga's events as the handlers read them, and the outbox and inbox rows around them.

  Where `Events` has the wire format, a `SagaEvent` has the fields that `handle_event` and the
  handlers take out of a message, with their defaults filled in: an item without a `quantity` has
  quantity 0, and `none` stands for an id that is missing or is not a uuid. A uuid drawn by a
  transaction is `drawn`, different for every draw; any other id is a `text`.
-/
import Mathlib.Data.Rat.Defs
import CloudScale.Lib.Table

namespace CloudScale.Shared

open CloudScale.Lib

inductive ServiceName where
  | order
  | inventory
  | payment
  | notification
deriving DecidableEq

/-- An identifier: the `n`-th uuid drawn by transaction `tid` of a service, or a given string. -/
inductive Ident where
  | drawn (svc : ServiceName) (tid n : ℕ)
  | text (s : String)
deriving DecidableEq

inductive EventType where
  | orderCreatedEvent
  | orderCancelledEvent
  | inventoryReservedEvent
  | inventoryReserveFailedEvent
  | inventoryReleasedEvent
  | paymentSuccessEvent
  | paymentFailedEvent
  | other (s : String)
deriving DecidableEq

/-- An entry of `payload["items"]`. -/
structure EventItem where
  productId : Option ℕ
  quantity : Int
  unitPrice : ℚ := 0
  simulateFailure : Bool := false
deriving DecidableEq

/-- `payload`. -/
structure Payload where
  orderId : Option Ident
  items : List EventItem := []
  reason : Option String := none
  simulateFailure : Bool := false
  transactionId : Option Ident := none
deriving DecidableEq

structure SagaEvent where
  eventId : Ident
  eventType : EventType
  correlationId : Ident
  payload : Payload
deriving DecidableEq

inductive Topic where
  | orderEvents
  | inventoryEvents
  | paymentEvents
deriving DecidableEq

/-- A row of an outbox table, and a record on a topic. -/
structure OutboxRow where
  topic : Topic
  key : Option Ident
  event : SagaEvent
deriving DecidableEq

def OutboxRow.eventId (r : OutboxRow) : Ident := r.event.eventId

/-- `write_outbox`. -/
def writeOutbox (topic : Topic) (event : SagaEvent) (key : Option Ident) : OutboxRow :=
  { topic, key, event }

structure InboxMessage where
  eventId : Ident
  eventType : EventType
  sourceTopic : String
deriving DecidableEq

/-- `record_inbox`. -/
def recordInbox (e : SagaEvent) (sourceTopic : String) : InboxMessage :=
  { eventId := e.eventId, eventType := e.eventType, sourceTopic }

/-- Both tables have a unique `event_id`. -/
abbrev OutboxRows := Table Ident OutboxRow OutboxRow.eventId

abbrev InboxRows := Table Ident InboxMessage InboxMessage.eventId

/-- `inbox_already_processed`. -/
def inboxAlreadyProcessed (inbox : InboxRows) (id : Ident) : Bool := (inbox.get id).isSome

/-- The exceptions that leave a transaction. -/
inductive Exc where
  | uuidError
  | timeoutError (message : String)
  | validationException (message : String)
  | notImplementedError (message : String)
deriving DecidableEq

/-- How a consumer's transaction ends when no exception is raised: the event was in the inbox, its
    type is not handled, or the handler ran and leaves its writes. -/
inductive Outcome (W : Type) where
  | skipped
  | ignored
  | handled (w : W)

theorem inboxAlreadyProcessed_iff {inbox : InboxRows} {id : Ident} :
    inboxAlreadyProcessed inbox id = true ↔ id ∈ inbox.rows.map (·.eventId) := by
  unfold inboxAlreadyProcessed
  rw [← not_iff_not, ← Table.get_eq_none_iff]
  simp

end CloudScale.Shared
