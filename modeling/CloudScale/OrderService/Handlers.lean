/-
  The order service's transactions: the four saga handlers behind `_process_event_with_resilience`,
  one iteration of `sweep_stale_sagas` and `create_order` (`order/app/consumers.py`,
  `order/app/service.py`).

  Each is a `Txn` program over `OrderQuery`; `service` puts them on a server. A retry by
  `retry_with_backoff`, a redelivery and the next iteration of the sweeper's loop are further
  transactions for the same request.
-/
import CloudScale.Lib.Rounding
import CloudScale.OrderService.Model

namespace CloudScale.OrderService

open CloudScale.Lib CloudScale.Shared

abbrev OrderTxn (R : Type) := Txn OrderQuery OrderAnswer Exc R

/-! ## Queries -/

/-- `inbox_already_processed`. -/
def inInbox (id : Ident) : OrderTxn Bool := Txn.query (OrderQuery.inbox id)

/-- `select(Order).where(Order.id == id)`. -/
def selectOrder (id : Ident) : OrderTxn (Option Order) := Txn.query (OrderQuery.order id)

def selectStale (cutoff : Int) (limit : ℕ) : OrderTxn (List Order) :=
  Txn.query (OrderQuery.stale cutoff limit)

/-- `redis.get(f"tenant:plan:{tenant_id}")`. -/
def redisPlan (tenant : String) : OrderTxn (Option String) := Txn.query (OrderQuery.plan tenant)

/-- `count_tenant_orders`. -/
def countTenantOrders (tenant : String) : OrderTxn ℕ := Txn.query (OrderQuery.count tenant)

/-- `get_by_idempotency_key`. -/
def getByIdempotencyKey (key tenant : String) : OrderTxn (Option Order) :=
  Txn.query (OrderQuery.byKey key tenant)

/-! ## Saga handlers -/

/-- A handler that only moves the order from one of `allowed` to `next`. -/
def transition (allowed : List OrderStatus) (next : OrderStatus) (payload : Payload) :
    OrderTxn OrderWrites := do
  match payload.orderId with
  | none => .raise .uuidError
  | some orderId =>
    match ← selectOrder orderId with
    | some order =>
      if order.status ∈ allowed then return { updates := [⟨order, next⟩] } else return {}
    | none => return {}

/-- `_handle_inventory_reserved`. -/
def handleInventoryReserved : Payload → OrderTxn OrderWrites :=
  transition [.pending] .stockReserved

/-- `_handle_inventory_reserve_failed`. -/
def handleInventoryReserveFailed : Payload → OrderTxn OrderWrites :=
  transition [.pending, .stockReserved] .cancelledNoStock

/-- `_handle_payment_success`. -/
def handlePaymentSuccess : Payload → OrderTxn OrderWrites :=
  transition [.stockReserved] .confirmed

/-- `items_to_release`. -/
def itemsToRelease (order : Order) : List EventItem :=
  order.items.map fun i => { productId := some i.productId, quantity := i.quantity }

/-- `_handle_payment_failed`. -/
def handlePaymentFailed (tid : ℕ) (correlationId : Ident) (payload : Payload) :
    OrderTxn OrderWrites := do
  match payload.orderId with
  | none => .raise .uuidError
  | some orderId =>
    match ← selectOrder orderId with
    | some order =>
      if order.status ∈ [OrderStatus.pending, .stockReserved] then
        let cancelEvent : SagaEvent :=
          { eventId := .drawn .order tid 0, eventType := .orderCancelledEvent, correlationId,
            payload := { orderId := some orderId, items := itemsToRelease order } }
        return { updates := [⟨order, .cancelled⟩]
                 outbox := [writeOutbox .orderEvents cancelEvent (some orderId)] }
      else return {}
    | none => return {}

/-- The writes of a handler together with the inbox row of its event. -/
def OrderWrites.record (e : SagaEvent) (w : OrderWrites) : OrderWrites :=
  { w with inbox := some (Shared.recordInbox e "order-saga") }

/-- The handler of an event type, if there is one. -/
def handlerOf (tid : ℕ) (e : SagaEvent) : Option (OrderTxn OrderWrites) :=
  match e.eventType with
  | .inventoryReservedEvent => some (handleInventoryReserved e.payload)
  | .inventoryReserveFailedEvent => some (handleInventoryReserveFailed e.payload)
  | .paymentSuccessEvent => some (handlePaymentSuccess e.payload)
  | .paymentFailedEvent => some (handlePaymentFailed tid e.correlationId e.payload)
  | _ => none

/-- `_process_event_with_resilience`. -/
def processEvent (tid : ℕ) (e : SagaEvent) : OrderTxn (Outcome OrderWrites) := do
  if ← inInbox e.eventId then return .skipped
  match handlerOf tid e with
  | none => return .ignored
  | some handler =>
    let w ← handler
    return .handled (w.record e)

/-! ## The timeout sweeper -/

/-- The cancellation event of the `i`-th stale order of a batch. -/
def timeoutEvent (tid : ℕ) (i : ℕ) (order : Order) : OutboxRow :=
  writeOutbox .orderEvents
    { eventId := .drawn .order tid (2 * i), eventType := .orderCancelledEvent
      correlationId := .drawn .order tid (2 * i + 1)
      payload := { orderId := some order.id, items := itemsToRelease order,
                   reason := some "Saga execution timeout" } }
    (some order.id)

/-- One iteration of `sweep_stale_sagas`: one session, one batch. An empty batch ends the loop. -/
def sweepStaleSagas (tid : ℕ) (cutoff : Int) (limit : ℕ) : OrderTxn OrderWrites := do
  let staleOrders ← selectStale cutoff limit
  return { updates := staleOrders.map fun o => ⟨o, .cancelled⟩
           outbox := staleOrders.mapIdx (timeoutEvent tid) }

/-! ## Checkout -/

structure OrderItemCreate where
  productId : ℕ
  quantity : Int
  unitPrice : ℚ
  quantity_pos : 0 < quantity
  unitPrice_pos : 0 < unitPrice

theorem OrderItemCreate.one_unitPrice_pos : (0 : ℚ) < 1 := by decide

/-- A validated checkout request. -/
structure OrderCreate where
  items : List OrderItemCreate
  idempotencyKey : String
  items_nonempty : items ≠ []
  key_length : 10 ≤ idempotencyKey.length

/-- `limits.get(plan_tier, 15)`. -/
def planLimit (tier : String) : ℕ :=
  if tier = "growth" then 200 else if tier = "enterprise" then 20000 else 15

/-- `plan_raw or "free"`. -/
def planTier : Option String → String
  | none => "free"
  | some tier => if tier.isEmpty then "free" else tier

def quotaMessage (tier : String) : String :=
  "Order checkout quota limit of " ++ toString (planLimit tier) ++ " exceeded for plan '" ++ tier ++
    "'. Please upgrade."

/-- The request of a checkout with its context: the user, the tenant, the clock, whether Redis is
    configured and the correlation id of the logging context. -/
structure Checkout where
  user : Ident
  tenant : String
  now : Int
  redis : Bool
  correlationId : Option Ident
  payload : OrderCreate

/-- `decimal.getcontext()`, as it is by default; its largest exponent is beyond every column. -/
def decimalContext : Format where
  base := 10
  precision := 28
  etiny := -1000026
  one_lt_base := Nat.one_lt_succ_succ 8
  precision_pos := Nat.succ_pos 27

/-- `item.quantity * item.unit_price`. -/
def OrderItemCreate.line (i : OrderItemCreate) : ℚ :=
  decimalContext.round ((i.quantity : ℚ) * i.unitPrice)

/-- `sum` of the lines, from a value on. -/
def sumFrom (total : ℚ) (items : List OrderItemCreate) : ℚ :=
  items.foldl (fun total i => decimalContext.round (total + i.line)) total

/-- `total_amount`. -/
def totalAmount (items : List OrderItemCreate) : ℚ := sumFrom 0 items

def newOrder (tid : ℕ) (c : Checkout) : Order :=
  { id := .drawn .order tid 0, userId := c.user, status := .pending
    totalAmount := totalAmount c.payload.items
    idempotencyKey := c.payload.idempotencyKey, createdAt := c.now, tenantId := c.tenant
    items := c.payload.items.map fun i =>
      { productId := i.productId, quantity := i.quantity, unitPrice := i.unitPrice } }

def orderCreatedEvent (tid : ℕ) (c : Checkout) : OutboxRow :=
  writeOutbox .orderEvents
    { eventId := .drawn .order tid 1, eventType := .orderCreatedEvent
      correlationId := c.correlationId.getD (.drawn .order tid 2)
      payload :=
        { orderId := some (newOrder tid c).id
          items := c.payload.items.map fun i =>
            { productId := some i.productId, quantity := i.quantity, unitPrice := i.unitPrice } } }
    (some (newOrder tid c).id)

/-- The new order, returned and with its event. -/
def placed (tid : ℕ) (c : Checkout) : OrderWrites :=
  { returned := some (newOrder tid c), created := some (newOrder tid c)
    outbox := [orderCreatedEvent tid c] }

/-- The part of `create_order` after the quota check. -/
def placeOrder (tid : ℕ) (c : Checkout) : OrderTxn OrderWrites := do
  match ← getByIdempotencyKey c.payload.idempotencyKey c.tenant with
  | some existingOrder => return { returned := some existingOrder }
  | none => return (placed tid c)

/-- `create_order`. -/
def createOrder (tid : ℕ) (c : Checkout) : OrderTxn OrderWrites := do
  if c.redis then
    let tier := planTier (← redisPlan c.tenant)
    let currentCount ← countTenantOrders c.tenant
    if planLimit tier ≤ currentCount then .raise (.validationException (quotaMessage tier))
    else placeOrder tid c
  else placeOrder tid c

/-! ## The service -/

inductive OrderRequest where
  | event (e : SagaEvent)
  | sweep (cutoff : Int) (limit : ℕ)
  | checkout (c : Checkout)

/-- The event a request handles. -/
def OrderRequest.event? : OrderRequest → Option SagaEvent
  | .event e => some e
  | _ => none

/-- `sweep_stale_sagas(cutoff_minutes, batch_size)` at time `now` (in seconds), with the defaults
    of the settings. -/
def sweepRequest (now : Int) (cutoffMinutes : Option Int) (batchSize : Option ℕ) : OrderRequest :=
  .sweep (now - 60 * cutoffMinutes.getD 15) (batchSize.getD 100)

def program (tid : ℕ) : OrderRequest → OrderTxn (Outcome OrderWrites)
  | .event e => processEvent tid e
  | .sweep cutoff limit => do return .handled (← sweepStaleSagas tid cutoff limit)
  | .checkout c => do return .handled (← createOrder tid c)

def commit : Outcome OrderWrites → OrderDb → Option OrderDb
  | .handled w, db => db.commit w
  | _, db => some db

def service : Service OrderDb Unit OrderRequest OrderEnv OrderQuery OrderAnswer Exc
    (Outcome OrderWrites) where
  prog := program
  answer env _ db q := db.answer env q
  effect _ x := x
  commit := commit

/-- The service's answers, in a state that contains its database. -/
def answers {σ : Type} (view : σ → OrderDb) (env : OrderEnv) (s : σ) (q : OrderQuery) :
    OrderAnswer q :=
  (view s).answer env q

abbrev OrderServer := Server OrderDb Unit OrderRequest OrderQuery OrderAnswer Exc
  (Outcome OrderWrites)

/-! ## Proof rules -/

section Rules

variable {σ R : Type} {view : σ → OrderDb} {rely : σ → σ → Prop}
  {good : σ → OrderQuery → OrderEnv → Prop} {post : σ → R → Prop} {s : σ}

theorem safe_inInbox {id : Ident} {f : Bool → OrderTxn R}
    (h : ∀ t ω, rely s t → good t (.inbox id) ω →
      Safe (answers view) rely good post (f (inboxAlreadyProcessed (view t).inbox id)) t) :
    Safe (answers view) rely good post (inInbox id >>= f) s := h

theorem safe_selectOrder {id : Ident} {f : Option Order → OrderTxn R}
    (h : ∀ t ω, rely s t → good t (.order id) ω →
      Safe (answers view) rely good post (f ((view t).orders.get id)) t) :
    Safe (answers view) rely good post (selectOrder id >>= f) s := h

/-- A handler that moves the order if its status allows it and writes nothing otherwise. -/
theorem safe_transition {post : σ → OrderWrites → Prop} {allowed : List OrderStatus}
    {next : OrderStatus} {payload : Payload} (hskip : ∀ t, post t {})
    (hmove : ∀ t o, payload.orderId = some o.id → (view t).orders.get o.id = some o →
      o.status ∈ allowed → ∀ u, rely t u → post u { updates := [⟨o, next⟩] }) :
    Safe (answers view) rely good post (transition allowed next payload) s := by
  unfold transition
  cases horder : payload.orderId with
  | none => trivial
  | some orderId =>
    refine safe_selectOrder fun t ω _ _ => ?_
    cases hget : (view t).orders.get orderId with
    | none => exact fun u _ => hskip u
    | some o =>
      obtain rfl : o.id = orderId := Table.get_key hget
      dsimp only
      split
      · next hstatus => exact hmove t o horder hget hstatus
      · exact fun u _ => hskip u

theorem safe_handlePaymentFailed {post : σ → OrderWrites → Prop} {tid : ℕ} {c : Ident}
    {payload : Payload} (hskip : ∀ t, post t {})
    (hmove : ∀ t o, payload.orderId = some o.id → (view t).orders.get o.id = some o →
      o.status ∈ [OrderStatus.pending, .stockReserved] → ∀ u, rely t u →
      post u
        { updates := [⟨o, .cancelled⟩]
          outbox := [writeOutbox .orderEvents
            { eventId := .drawn .order tid 0, eventType := .orderCancelledEvent, correlationId := c
              payload := { orderId := some o.id, items := itemsToRelease o } } (some o.id)] }) :
    Safe (answers view) rely good post (handlePaymentFailed tid c payload) s := by
  unfold handlePaymentFailed
  cases horder : payload.orderId with
  | none => trivial
  | some orderId =>
    refine safe_selectOrder fun t ω _ _ => ?_
    cases hget : (view t).orders.get orderId with
    | none => exact fun u _ => hskip u
    | some o =>
      obtain rfl : o.id = orderId := Table.get_key hget
      dsimp only
      split
      · next hstatus => exact hmove t o horder hget hstatus
      · exact fun u _ => hskip u

theorem safe_selectStale {cutoff : Int} {limit : ℕ} {f : List Order → OrderTxn R}
    (h : ∀ t ω, rely s t → good t (.stale cutoff limit) ω →
      Safe (answers view) rely good post (f ((view t).staleOrders ω.scan cutoff limit)) t) :
    Safe (answers view) rely good post (selectStale cutoff limit >>= f) s := h

theorem safe_redisPlan {tenant : String} {f : Option String → OrderTxn R}
    (h : ∀ t ω, rely s t → good t (.plan tenant) ω →
      Safe (answers view) rely good post (f ω.plan) t) :
    Safe (answers view) rely good post (redisPlan tenant >>= f) s := h

theorem safe_countTenantOrders {tenant : String} {f : ℕ → OrderTxn R}
    (h : ∀ t ω, rely s t → good t (.count tenant) ω → ∀ n,
      Safe (answers view) rely good post (f n) t) :
    Safe (answers view) rely good post (countTenantOrders tenant >>= f) s :=
  fun t ω ht hg => h t ω ht hg _

theorem safe_getByIdempotencyKey {key tenant : String} {f : Option Order → OrderTxn R}
    (h : ∀ t ω, rely s t → good t (.byKey key tenant) ω →
      Safe (answers view) rely good post (f ((view t).orderByKey key tenant)) t) :
    Safe (answers view) rely good post (getByIdempotencyKey key tenant >>= f) s := h

theorem safe_placeOrder {post : σ → OrderWrites → Prop} {tid : ℕ} {c : Checkout}
    (htrans : ∀ s t u, rely s t → rely t u → rely s u)
    (hexisting : ∀ t u o, rely t u →
      (view t).orderByKey c.payload.idempotencyKey c.tenant = some o →
      post u { returned := some o })
    (hnew : ∀ t, rely s t → post t (placed tid c)) :
    Safe (answers view) rely good post (placeOrder tid c) s := by
  refine safe_getByIdempotencyKey fun t ω hst _ => ?_
  cases ho : (view t).orderByKey c.payload.idempotencyKey c.tenant with
  | some o => exact fun u htu => hexisting t u o htu ho
  | none => exact fun u htu => hnew u (htrans s t u hst htu)

/-- What `create_order` leaves: the order with the key, or the new order with its event. -/
theorem safe_createOrder {post : σ → OrderWrites → Prop} {tid : ℕ} {c : Checkout}
    (htrans : ∀ s t u, rely s t → rely t u → rely s u) (hrefl : ∀ s, rely s s)
    (hexisting : ∀ t u o, rely t u →
      (view t).orderByKey c.payload.idempotencyKey c.tenant = some o →
      post u { returned := some o })
    (hnew : ∀ t, rely s t → post t (placed tid c)) :
    Safe (answers view) rely good post (createOrder tid c) s := by
  have hplace : ∀ t, rely s t → Safe (answers view) rely good post (placeOrder tid c) t :=
    fun t hst => safe_placeOrder htrans hexisting fun u htu => hnew u (htrans s t u hst htu)
  unfold createOrder
  split
  · refine safe_redisPlan fun t ω hst _ => safe_countTenantOrders fun u ω htu _ n => ?_
    split
    · trivial
    · exact hplace u (htrans s t u hst htu)
  · exact hplace s (hrefl s)

end Rules

end CloudScale.OrderService
