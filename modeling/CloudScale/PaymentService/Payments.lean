/-
  The payment service (`payment/app/models.py`, `payment/app/consumers.py`): simulated charges on
  `InventoryReservedEvent`.

  A transaction asks one query, the inbox; the charge follows from the event alone. `Account` lists
  what a finished transaction leaves, `program_account` proves it. An attempt repeated by
  `retry_with_backoff` is a further transaction for the same event, and an open circuit breaker
  starts none.
-/
import Mathlib.Algebra.Order.Ring.Rat
import CloudScale.Lib.Server
import CloudScale.Shared.Message

namespace CloudScale.PaymentService

open CloudScale.Lib CloudScale.Shared

/-! ## Rows -/

inductive PaymentStatus where
  | completed
  | other (s : String)
deriving DecidableEq

structure Payment where
  id : Ident
  orderId : Ident
  transactionId : Ident
  amount : ℚ
  status : PaymentStatus
deriving DecidableEq

structure PaymentDb where
  payments : Table Ident Payment Payment.id
  outbox : OutboxRows
  inbox : InboxRows

def PaymentDb.empty : PaymentDb := { payments := .empty, outbox := .empty, inbox := .empty }

inductive PaymentQuery where
  | inbox (id : Ident)

def PaymentDb.answer (db : PaymentDb) : PaymentQuery → Bool
  | .inbox id => inboxAlreadyProcessed db.inbox id

structure PaymentWrites where
  payment : Option Payment := none
  outbox : List OutboxRow := []
  inbox : Option InboxMessage := none

/-- `transaction_id` is unique. -/
def transactionsUnique (payments : Table Ident Payment Payment.id) : Bool :=
  decide (payments.rows.map (·.transactionId)).Nodup

/-- `session.commit()`; `none` when a constraint is violated. -/
def PaymentDb.commit (db : PaymentDb) (w : PaymentWrites) : Option PaymentDb := do
  let payments ← db.payments.extend w.payment.toList
  let outbox ← db.outbox.extend w.outbox
  let inbox ← db.inbox.extend w.inbox.toList
  if transactionsUnique payments then some { payments, outbox, inbox } else none

theorem commit_eq_some {db db' : PaymentDb} {w : PaymentWrites} (h : db.commit w = some db') :
    db.payments.extend w.payment.toList = some db'.payments ∧
      db.outbox.extend w.outbox = some db'.outbox ∧
      db.inbox.extend w.inbox.toList = some db'.inbox := by
  simp only [PaymentDb.commit, Option.bind_eq_bind, Option.bind_eq_some_iff,
    Option.ite_none_right_eq_some, Option.some.injEq] at h
  obtain ⟨payments, hp, outbox, hout, inbox, hin, -, rfl⟩ := h
  exact ⟨hp, hout, hin⟩

/-! ## Charging -/

abbrev PaymentTxn (R : Type) := Txn PaymentQuery (fun _ => Bool) Exc R

/-- `inbox_already_processed`. -/
def inInbox (id : Ident) : PaymentTxn Bool := Txn.query (PaymentQuery.inbox id)

def amount (items : List EventItem) : ℚ := (items.map fun i => (i.quantity : ℚ) * i.unitPrice).sum

/-- `should_fail`: explicit flags only. -/
def shouldFail (payload : Payload) : Bool :=
  payload.simulateFailure || payload.items.any (·.simulateFailure)

def paymentEvent (tid : ℕ) (eventType : EventType) (e : SagaEvent)
    (payload : Payload) : OutboxRow :=
  writeOutbox .paymentEvents
    { eventId := .drawn .payment tid 0, eventType, correlationId := e.correlationId, payload }
    e.payload.orderId

def failedEvent (tid : ℕ) (e : SagaEvent) : OutboxRow :=
  paymentEvent tid .paymentFailedEvent e
    { orderId := e.payload.orderId, items := e.payload.items
      reason := some "Card declined. Insufficient funds." }

def transactionId (tid : ℕ) : Ident := .drawn .payment tid 1

def successEvent (tid : ℕ) (e : SagaEvent) : OutboxRow :=
  paymentEvent tid .paymentSuccessEvent e
    { orderId := e.payload.orderId, items := e.payload.items
      transactionId := some (transactionId tid) }

def newPayment (tid : ℕ) (orderId : Ident) (e : SagaEvent) : Payment :=
  { id := .drawn .payment tid 2, orderId, transactionId := transactionId tid
    amount := amount e.payload.items, status := .completed }

def notWired : Exc :=
  .notImplementedError ("Real Stripe payment processing is not yet wired. " ++
    "Set SIMULATE_PAYMENTS=True to use the mock payment flow.")

/-- `_process_payment`. -/
def processPayment (simulatePayments : Bool) (tid : ℕ) (e : SagaEvent) :
    PaymentTxn PaymentWrites :=
  if !simulatePayments then .raise notWired
  else if shouldFail e.payload then return { outbox := [failedEvent tid e] }
  else
    match e.payload.orderId with
    | none => .raise .uuidError
    | some orderId =>
      return { payment := some (newPayment tid orderId e), outbox := [successEvent tid e] }

/-- The writes of a charge together with the inbox row of its event. -/
def PaymentWrites.record (e : SagaEvent) (w : PaymentWrites) : PaymentWrites :=
  { w with inbox := some (Shared.recordInbox e "payment-consumer") }

/-- `_process_event_with_resilience`. -/
def processEvent (simulatePayments : Bool) (tid : ℕ) (e : SagaEvent) :
    PaymentTxn (Outcome PaymentWrites) := do
  if ← inInbox e.eventId then return .skipped
  if e.eventType = .inventoryReservedEvent then
    let w ← processPayment simulatePayments tid e
    return .handled (w.record e)
  else return .ignored

/-! ## The service -/

def commit : Outcome PaymentWrites → PaymentDb → Option PaymentDb
  | .handled w, db => db.commit w
  | _, db => some db

/-- The service under a value of the setting `SIMULATE_PAYMENTS`; its requests are events. -/
def service (simulatePayments : Bool) :
    Service PaymentDb Unit SagaEvent Unit PaymentQuery (fun _ => Bool) Exc
      (Outcome PaymentWrites) where
  prog := processEvent simulatePayments
  answer _ _ db q := db.answer q
  effect _ x := x
  commit := commit

abbrev PaymentServer := Server PaymentDb Unit SagaEvent PaymentQuery (fun _ => Bool) Exc
  (Outcome PaymentWrites)

/-! ## What the transactions write -/

/-- What a finished transaction leaves: a charge with its event, or a refusal. -/
inductive Account (tid : ℕ) (e : SagaEvent) : PaymentWrites → Prop where
  | charged {orderId : Ident} (htype : e.eventType = .inventoryReservedEvent)
      (horder : e.payload.orderId = some orderId) :
      Account tid e (PaymentWrites.record e
        { payment := some (newPayment tid orderId e), outbox := [successEvent tid e] })
  | declined (htype : e.eventType = .inventoryReservedEvent) :
      Account tid e (PaymentWrites.record e { outbox := [failedEvent tid e] })

/-- The writes of an outcome, if it has any, are accounted for. -/
def AccountedOutcome (tid : ℕ) (e : SagaEvent) : Outcome PaymentWrites → Prop
  | .handled w => Account tid e w
  | _ => True

section Programs

variable {σ Ω : Type} {ans : Ω → σ → PaymentQuery → Bool} {rely : σ → σ → Prop}
  {good : σ → PaymentQuery → Ω → Prop} {simulatePayments : Bool} {tid : ℕ} {e : SagaEvent} {s : σ}

theorem processPayment_account (htype : e.eventType = .inventoryReservedEvent) :
    Safe ans rely good (fun _ w => Account tid e (w.record e))
      (processPayment simulatePayments tid e) s := by
  unfold processPayment
  split
  · trivial
  · split
    · exact fun _ _ => .declined htype
    · cases horder : e.payload.orderId with
      | none => trivial
      | some orderId => exact fun _ _ => .charged htype horder

theorem program_account (hrefl : ∀ s, rely s s) :
    Safe ans rely good (fun _ o => AccountedOutcome tid e o)
      (processEvent simulatePayments tid e) s := by
  intro t ω _ _
  cases ans ω t (.inbox e.eventId) with
  | true => exact fun _ _ => trivial
  | false =>
    show Safe ans rely good _ (if e.eventType = .inventoryReservedEvent then _ else _) t
    split
    · next htype =>
      exact (processPayment_account htype).bind (hrefl t) (fun _ u _ => hrefl u)
        fun _ _ hw _ _ => hw
    · exact fun _ _ => trivial

end Programs

theorem payment_guarantees (simulatePayments : Bool) :
    Guarantees (service simulatePayments) (fun _ => PaymentDb.answer) (fun _ _ => True)
      (fun _ _ _ _ => True) (fun tk _ o => AccountedOutcome tk.tid tk.req o) where
  refl _ := trivial
  trans _ _ _ _ _ := trivial
  answer _ _ _ _ := rfl
  start _ _ _ := program_account fun _ => trivial
  commit _ _ _ _ _ _ := trivial

end CloudScale.PaymentService
