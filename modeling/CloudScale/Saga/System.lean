/-
  The checkout saga: the order, inventory, payment and notification services and the topics between
  them.

  Each service is a server with its own database. `published` is the log of all topics: a row of an
  outbox is published any number of times, in any order, and a published row is delivered to a
  subscribed service any number of times, in any order. So every run with at-least-once delivery is
  a run of `step`, whatever order its topics keep; `InOrder` says when a delivery keeps the order of
  an order's events within their topic.
-/
import CloudScale.InventoryService.Stock
import CloudScale.NotificationService.Confirmations
import CloudScale.OrderService.Accounts
import CloudScale.PaymentService.Payments

namespace CloudScale.Saga

open CloudScale.Lib CloudScale.Shared
open OrderService (OrderServer OrderDb OrderEnv OrderRequest Checkout)
open InventoryService (InventoryServer InventoryDb InventoryEnv InventoryRequest RestockRequest
  BatchReserveItem Stock)
open PaymentService (PaymentServer PaymentDb)
open NotificationService (NotificationServer NotificationDb)

structure System where
  order : OrderServer
  inventory : InventoryServer
  payment : PaymentServer
  notification : NotificationServer
  published : List OutboxRow

/-- No orders and no messages, and the given stock. -/
def System.init (stock : Stock) : System :=
  { order := .init .empty (), inventory := .init { stock, outbox := .empty, inbox := .empty } ()
    payment := .init .empty (), notification := .init .empty [], published := [] }

/-- The topics of a service's `init_kafka`. -/
def subscribed : ServiceName → List Topic
  | .order => [.inventoryEvents, .paymentEvents]
  | .inventory => [.orderEvents, .paymentEvents]
  | .payment => [.inventoryEvents]
  | .notification => [.paymentEvents]

/-- The event types a service's `handle_event` handles. -/
def handledTypes : ServiceName → List EventType
  | .order => [.inventoryReservedEvent, .inventoryReserveFailedEvent, .paymentSuccessEvent,
      .paymentFailedEvent]
  | .inventory => [.orderCreatedEvent, .paymentFailedEvent, .orderCancelledEvent]
  | .payment => [.inventoryReservedEvent]
  | .notification => [.paymentSuccessEvent]

/-- The outbox of a service; the notification service has none. -/
def System.outboxOf (s : System) : ServiceName → List OutboxRow
  | .order => s.order.db.outbox.rows
  | .inventory => s.inventory.db.outbox.rows
  | .payment => s.payment.db.outbox.rows
  | .notification => []

def System.inboxOf (s : System) : ServiceName → InboxRows
  | .order => s.order.db.inbox
  | .inventory => s.inventory.db.inbox
  | .payment => s.payment.db.inbox
  | .notification => s.notification.db.inbox

inductive SystemLabel where
  | checkout (c : Checkout)
  | sweep (cutoff : Int) (limit : ℕ)
  | restock (productId : ℕ) (payload : RestockRequest)
  | reserveBatch (items : List BatchReserveItem)
  | publish (svc : ServiceName) (n : ℕ)
  | deliver (svc : ServiceName) (n : ℕ)
  | order (m : Move OrderEnv)
  | inventory (m : Move InventoryEnv)
  | payment (m : Move Unit)
  | notification (m : Move Unit)

section Step

variable (simulatePayments : Bool)

/-- `handle_event` of a service starts on an event. -/
def System.deliver (s : System) (e : SagaEvent) : ServiceName → System
  | .order => { s with order := OrderService.service.start s.order (.event e) }
  | .inventory => { s with inventory := InventoryService.service.start s.inventory (.event e) }
  | .payment =>
    { s with payment := (PaymentService.service simulatePayments).start s.payment e }
  | .notification => { s with notification := NotificationService.service.start s.notification e }

def step (s : System) : SystemLabel → Option System
  | .checkout c => some { s with order := OrderService.service.start s.order (.checkout c) }
  | .sweep cutoff limit =>
    some { s with order := OrderService.service.start s.order (.sweep cutoff limit) }
  | .restock p payload =>
    some { s with inventory := InventoryService.service.start s.inventory (.restock p payload) }
  | .reserveBatch items =>
    some { s with inventory := InventoryService.service.start s.inventory (.reserveBatch items) }
  | .publish svc n => ((s.outboxOf svc)[n]?).map fun r => { s with published := s.published ++ [r] }
  | .deliver svc n => (s.published[n]?).bind fun r =>
    if r.topic ∈ subscribed svc then some (s.deliver simulatePayments r.event svc) else none
  | .order m => (OrderService.service.move s.order m).map fun order => { s with order }
  | .inventory m =>
    (InventoryService.service.move s.inventory m).map fun inventory => { s with inventory }
  | .payment m => ((PaymentService.service simulatePayments).move s.payment m).map fun payment =>
    { s with payment }
  | .notification m => (NotificationService.service.move s.notification m).map fun notification =>
    { s with notification }

end Step

/-! ## Observations -/

/-- The committed outbox rows of all services. -/
def System.rows (s : System) : List OutboxRow :=
  s.order.db.outbox.rows ++ s.inventory.db.outbox.rows ++ s.payment.db.outbox.rows

theorem mem_rows {s : System} {r : OutboxRow} :
    r ∈ s.rows ↔ r ∈ s.order.db.outbox.rows ∨ r ∈ s.inventory.db.outbox.rows ∨
      r ∈ s.payment.db.outbox.rows := by
  simp [System.rows]

/-- What holds of every row, by the outboxes. -/
theorem forall_rows {s : System} {P : OutboxRow → Prop} :
    (∀ r ∈ s.rows, P r) ↔ (∀ r ∈ s.order.db.outbox.rows, P r) ∧
      (∀ r ∈ s.inventory.db.outbox.rows, P r) ∧ ∀ r ∈ s.payment.db.outbox.rows, P r := by
  simp only [mem_rows, or_imp, forall_and]

/-- The row is an event of type `t` about order `o`. -/
def Concerns (t : EventType) (o : Ident) (r : OutboxRow) : Prop :=
  r.event.eventType = t ∧ r.event.payload.orderId = some o

instance (t : EventType) (o : Ident) (r : OutboxRow) : Decidable (Concerns t o r) :=
  inferInstanceAs (Decidable (_ ∧ _))

/-- All outboxes are drained and all messages are consumed. -/
structure Drained (s : System) : Prop where
  published : ∀ r ∈ s.rows, r ∈ s.published
  consumed : ∀ r ∈ s.published, ∀ svc, r.topic ∈ subscribed svc →
    r.event.eventType ∈ handledTypes svc → inboxAlreadyProcessed (s.inboxOf svc) r.eventId = true

/-- The ids of the events whose handling a service has ended, one way or another. -/
def System.handledBy (s : System) : ServiceName → List Ident
  | .order => s.order.log.filterMap fun e => e.req.event?.map (·.eventId)
  | .inventory => s.inventory.log.filterMap fun e => e.req.event?.map (·.eventId)
  | .payment => s.payment.log.map (·.req.eventId)
  | .notification => s.notification.log.map (·.req.eventId)

/-- Rows are published in the order of their outbox, and a row is delivered to a service after the
    service has handled the earlier ones of its topic and key. -/
def InOrder (s : System) : SystemLabel → Prop
  | .publish svc n => ∀ r ∈ (s.outboxOf svc).take n, r ∈ s.published
  | .deliver svc n =>
    match s.published[n]? with
    | some r => ∀ r' ∈ s.published.take n, r'.topic = r.topic → r'.key = r.key →
        r'.eventId ∈ s.handledBy svc
    | none => True
  | _ => True

instance (s : System) (l : SystemLabel) : Decidable (InOrder s l) := by
  unfold InOrder
  split
  · infer_instance
  · split <;> infer_instance
  · infer_instance

/-! ## Runs of one transaction after the other -/

theorem checkout_a_length : 10 ≤ "checkout-a".length := by decide

/-- A checkout of one line. -/
def checkoutOf (key : String) (hkey : 10 ≤ key.length) (quantity : Int) (hquantity : 0 < quantity)
    (now : Int) : Checkout :=
  { user := .text "user", tenant := "default-tenant", now, redis := false, correlationId := none
    payload :=
      { items := [{ productId := 0, quantity, unitPrice := 1, quantity_pos := hquantity
                    unitPrice_pos := OrderService.OrderItemCreate.one_unitPrice_pos }]
        idempotencyKey := key, items_nonempty := List.cons_ne_nil _ _, key_length := hkey } }

/-- Stock of one product, nothing of it reserved. -/
def oneProduct (available : Int) : Stock :=
  ⟨[{ productId := 0, availableStock := available, reservedStock := 0, version := 1 }],
    List.nodup_singleton _⟩

/-- The oldest transaction of a service asks `n` queries and ends. -/
def runOrder (n : ℕ) : List SystemLabel :=
  List.replicate n (.order (.advance 0 ⟨[], none⟩)) ++ [.order (.finish 0)]

def runInventory (n : ℕ) : List SystemLabel :=
  List.replicate n (.inventory (.advance 0 ⟨true⟩)) ++ [.inventory (.finish 0)]

def runPayment (n : ℕ) : List SystemLabel :=
  List.replicate n (.payment (.advance 0 ())) ++ [.payment (.finish 0)]

def runNotification (n : ℕ) : List SystemLabel :=
  List.replicate n (.notification (.advance 0 ())) ++ [.notification (.finish 0)]

end CloudScale.Saga
