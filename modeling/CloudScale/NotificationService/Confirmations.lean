/-
  The notification service (`notification/app/consumers.py`): order confirmations on
  `PaymentSuccessEvent`.

  A confirmation is dispatched before the transaction commits and stays dispatched whatever becomes
  of the transaction: `send_order_confirmation` is a query with an outside effect, and the outside
  world is the list of the confirmations dispatched so far.
-/
import CloudScale.Lib.Server
import CloudScale.Shared.Message

namespace CloudScale.NotificationService

open CloudScale.Lib CloudScale.Shared

structure NotificationDb where
  inbox : InboxRows

def NotificationDb.empty : NotificationDb := { inbox := .empty }

structure Confirmation where
  orderId : Option Ident
  transactionId : Option Ident
  correlationId : Ident
deriving DecidableEq

inductive NotificationQuery where
  | inbox (id : Ident)
  | dispatch (c : Confirmation)

def NotificationAnswer : NotificationQuery → Type
  | .inbox _ => Bool
  | .dispatch _ => Unit

def NotificationDb.answer (db : NotificationDb) : (q : NotificationQuery) → NotificationAnswer q
  | .inbox id => inboxAlreadyProcessed db.inbox id
  | .dispatch _ => ()

def dispatched : NotificationQuery → List Confirmation → List Confirmation
  | .dispatch c, sent => sent ++ [c]
  | .inbox _, sent => sent

abbrev NotificationTxn (R : Type) := Txn NotificationQuery NotificationAnswer Exc R

/-- `inbox_already_processed`. -/
def inInbox (id : Ident) : NotificationTxn Bool := Txn.query (NotificationQuery.inbox id)

/-- `send_order_confirmation`. -/
def sendOrderConfirmation (payload : Payload) (correlationId : Ident) : NotificationTxn Unit :=
  Txn.query (NotificationQuery.dispatch
    { orderId := payload.orderId, transactionId := payload.transactionId, correlationId })

/-- `handle_event`; its writes are one inbox row. -/
def handleEvent (_ : ℕ) (e : SagaEvent) : NotificationTxn (Outcome InboxMessage) := do
  if ← inInbox e.eventId then return .skipped
  if e.eventType = .paymentSuccessEvent then
    sendOrderConfirmation e.payload e.correlationId
    return .handled (recordInbox e "notification-consumer")
  else return .ignored

/-- `session.commit()`; `none` when a constraint is violated. -/
def commit : Outcome InboxMessage → NotificationDb → Option NotificationDb
  | .handled m, db => (db.inbox.extend [m]).map fun inbox => { inbox }
  | _, db => some db

def service : Service NotificationDb (List Confirmation) SagaEvent Unit NotificationQuery
    NotificationAnswer Exc (Outcome InboxMessage) where
  prog := handleEvent
  answer _ _ db q := db.answer q
  effect := dispatched
  commit := commit

abbrev NotificationServer := Server NotificationDb (List Confirmation) SagaEvent NotificationQuery
  NotificationAnswer Exc (Outcome InboxMessage)

/-- A confirmation dispatched for an event is that of a successful payment. -/
def Confirms (e : SagaEvent) : NotificationQuery → Prop
  | .inbox _ => True
  | .dispatch c => e.eventType = .paymentSuccessEvent ∧ c.orderId = e.payload.orderId

theorem program_confirms (tid : ℕ) (e : SagaEvent) : (handleEvent tid e).Asks (Confirms e) := by
  refine ⟨trivial, fun seen => ?_⟩
  cases seen with
  | true => trivial
  | false =>
    show Txn.Asks _ (if e.eventType = .paymentSuccessEvent then _ else _)
    split
    · next htype => exact ⟨⟨htype, rfl⟩, fun _ => trivial⟩
    · trivial

end CloudScale.NotificationService
