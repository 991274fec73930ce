/-
  Domain errors under the database breakers: `db_breaker` of the catalog's reads and
  `order_db_breaker` of the order saga (`catalog/app/service.py`, `order/app/consumers.py`).

  `_fetch_product_from_db` raises `NotFoundException` and the saga's handlers raise on an `order_id`
  that is no uuid, both inside the retry and the breaker. No operation of the database fails here:
  an attempt meets whatever the database answers, and its transaction commits. A read answered from
  a cache makes no guarded call; an exception is never cached.

  `domainErrors_iff`: no guarded call of either service is rejected exactly in the runs that are
  `Spaced`; `read_fails_iff` and `event_fails_iff` say which calls fail. `bad_inputs_trip` has the
  runs of five bad inputs and a good one.
-/
import CloudScale.Lib.Alone
import CloudScale.Shared.Resilience
import CloudScale.CatalogService.Handlers
import CloudScale.OrderService.Handlers

namespace CloudScale.Platform

open CloudScale.Lib CloudScale.Shared

/-! ## The catalog's reads -/

section Catalog

open CloudScale.CatalogService

/-- A call of `_fetch_product_from_db` or of `_fetch_list_from_db`. -/
inductive DbRead where
  | product (tenant id : String)
  | list (tenant : String) (page size : ℕ)
deriving DecidableEq

inductive Fetched where
  | product (p : Product)
  | list (items : List Product) (total : ℕ)

def DbRead.fetch : DbRead → CatalogTxn Fetched
  | .product tenant id => do return .product (← fetchProductFromDb tenant id)
  | .list tenant page size => do
    let (items, total) ← CatalogService.listActivePaginated tenant page size
    return .list items total

/-- One attempt, with what the database answers. -/
def catalogAttempt (r : DbRead) (answers : (q : CatalogQuery) → CatalogAnswer q) :
    Except CatalogExc Fetched :=
  (r.fetch.exec (fun _ q => answers q) (fun _ x => x) ()).1

def catalogStep : Guarded ℚ DbRead →
    TrafficLabel ℚ DbRead ((q : CatalogQuery) → CatalogAnswer q) → Option (Guarded ℚ DbRead) :=
  trafficStep 3 catalogAttempt

/-- `db_breaker`. -/
def dbBreaker (created : ℚ) : Guarded ℚ DbRead := .new "catalog_db_breaker" 5 15 created

/-- What an attempt finds under an id. -/
def stored (answers : (q : CatalogQuery) → CatalogAnswer q) (tenant id : String) :
    Option Product :=
  answers (.byId tenant id)

theorem catalogAttempt_product (tenant id : String)
    (answers : (q : CatalogQuery) → CatalogAnswer q) :
    catalogAttempt (.product tenant id) answers = match stored answers tenant id with
      | some p =>
        if p.isActive then .ok (.product p) else .error (.notFoundException "Product not found")
      | none => .error (.notFoundException "Product not found") := by
  unfold stored
  simp only [catalogAttempt, DbRead.fetch, fetchProductFromDb, getById, Txn.query, bind, Txn.bind,
    Txn.exec]
  generalize answers (.byId tenant id) = found
  rcases (found : Option Product) with _ | p
  · rfl
  · cases hactive : p.isActive <;> simp [hactive] <;> rfl

/-- The catalog's reads fail on products that are absent or inactive at every attempt, only. -/
theorem read_fails_iff {r : DbRead} {env : ℕ → (q : CatalogQuery) → CatalogAnswer q} :
    (∃ e, retryWithBackoff 3 (catalogAttempt r) env = .error e) ↔
      ∃ tenant id, r = .product tenant id ∧
        ∀ j, j < 3 → ∀ p, stored (env j) tenant id = some p → p.isActive = false := by
  rw [retryWithBackoff_error_iff (by decide)]
  cases r with
  | product tenant id =>
    have hattempt : ∀ j, (∃ e, catalogAttempt (.product tenant id) (env j) = .error e) ↔
        ∀ p, stored (env j) tenant id = some p → p.isActive = false := by
      intro j
      rw [catalogAttempt_product]
      cases stored (env j) tenant id with
      | none => simp
      | some p => cases hactive : p.isActive <;> simp [hactive]
    simp only [hattempt]
    exact ⟨fun h => ⟨tenant, id, rfl, h⟩, by rintro ⟨_, _, ⟨⟩, h⟩; exact h⟩
  | list tenant page size =>
    refine iff_of_false (fun h => ?_) ?_
    · obtain ⟨e, he⟩ := h 0 (by decide)
      cases he
    · rintro ⟨_, _, ⟨⟩, _⟩

end Catalog

/-! ## The saga's events -/

section Order

open CloudScale.OrderService

/-- A call of `handle_event`, and the number of its transaction. -/
structure SagaDelivery where
  tid : ℕ
  event : SagaEvent
deriving DecidableEq

/-- One attempt of `_process_event_with_resilience`, with what the database answers. -/
def orderAttempt (c : SagaDelivery) (answers : (q : OrderQuery) → OrderAnswer q) :
    Except Exc (Outcome OrderWrites) :=
  ((processEvent c.tid c.event).exec (fun _ q => answers q) (fun _ x => x) ()).1

def orderStep : Guarded ℚ SagaDelivery →
    TrafficLabel ℚ SagaDelivery ((q : OrderQuery) → OrderAnswer q) →
    Option (Guarded ℚ SagaDelivery) :=
  trafficStep 3 orderAttempt

/-- `order_db_breaker`, with the default threshold and timeout. -/
def orderDbBreaker (created : ℚ) : Guarded ℚ SagaDelivery := .new "order_db_consumer" 5 30 created

/-- The event is in the inbox. -/
def received (answers : (q : OrderQuery) → OrderAnswer q) (id : Ident) : Bool := answers (.inbox id)

/-- A handler raises exactly on an order id that is no uuid. -/
theorem transition_fails_iff {allowed : List OrderStatus} {next : OrderStatus} {payload : Payload}
    {answers : (q : OrderQuery) → OrderAnswer q} :
    (∃ e, ((transition allowed next payload).exec (fun _ q => answers q) (fun _ x => x) ()).1 =
      .error e) ↔ payload.orderId = none := by
  unfold transition
  cases payload.orderId with
  | none => exact iff_of_true ⟨_, rfl⟩ rfl
  | some orderId =>
    simp only [selectOrder, Txn.query, bind, Txn.bind, Txn.exec]
    generalize answers (.order orderId) = found
    rcases (found : Option Order) with _ | order
    · simp
    · by_cases hstatus : order.status ∈ allowed <;> simp [hstatus]

theorem paymentFailed_fails_iff {tid : ℕ} {correlationId : Ident} {payload : Payload}
    {answers : (q : OrderQuery) → OrderAnswer q} :
    (∃ e, ((handlePaymentFailed tid correlationId payload).exec (fun _ q => answers q)
      (fun _ x => x) ()).1 = .error e) ↔ payload.orderId = none := by
  unfold handlePaymentFailed
  cases payload.orderId with
  | none => exact iff_of_true ⟨_, rfl⟩ rfl
  | some orderId =>
    simp only [selectOrder, Txn.query, bind, Txn.bind, Txn.exec]
    generalize answers (.order orderId) = found
    rcases (found : Option Order) with _ | order
    · simp
    · by_cases hstatus : order.status ∈ [OrderStatus.pending, .stockReserved] <;> simp [hstatus]

theorem handler_fails_iff {tid : ℕ} {e : SagaEvent} {handler : OrderTxn OrderWrites}
    (h : handlerOf tid e = some handler) (answers : (q : OrderQuery) → OrderAnswer q) :
    (∃ x, (handler.exec (fun _ q => answers q) (fun _ x => x) ()).1 = .error x) ↔
      e.payload.orderId = none := by
  unfold handlerOf at h
  split at h
  · cases h
    exact transition_fails_iff
  · cases h
    exact transition_fails_iff
  · cases h
    exact transition_fails_iff
  · cases h
    exact paymentFailed_fails_iff
  · cases h

theorem orderAttempt_fails_iff {c : SagaDelivery} {answers : (q : OrderQuery) → OrderAnswer q} :
    (∃ e, orderAttempt c answers = .error e) ↔
      received answers c.event.eventId = false ∧
        (handlerOf c.tid c.event).isSome = true ∧ c.event.payload.orderId = none := by
  unfold orderAttempt processEvent received inInbox
  simp only [Txn.query, bind, Txn.bind, Txn.exec]
  generalize answers (.inbox c.event.eventId) = found
  rcases (found : Bool) with _ | _
  · cases hhandler : handlerOf c.tid c.event with
    | none => simp
    | some handler =>
      rw [← handler_fails_iff hhandler answers]
      show (∃ e, ((handler >>= fun w =>
        (return .handled (w.record c.event) : OrderTxn (Outcome OrderWrites))).exec _ _ ()).1 =
          .error e) ↔ _
      rw [exec_bind]
      cases handler.exec (fun _ q => answers q) (fun _ x => x) () with
      | mk result x => cases result <;> simp
  · simp

/-- The saga fails on events that it handles, has not received and cannot read the order id of. -/
theorem event_fails_iff {c : SagaDelivery} {env : ℕ → (q : OrderQuery) → OrderAnswer q} :
    (∃ e, retryWithBackoff 3 (orderAttempt c) env = .error e) ↔
      (∀ j, j < 3 → received (env j) c.event.eventId = false) ∧
        (handlerOf c.tid c.event).isSome = true ∧ c.event.payload.orderId = none := by
  rw [retryWithBackoff_error_iff (by decide)]
  simp only [orderAttempt_fails_iff]
  refine ⟨fun h => ⟨fun j hj => (h j hj).1, (h 0 (by decide)).2⟩, fun h j hj => ⟨h.1 j hj, h.2⟩⟩

end Order

/-! ## Both breakers -/

/-- Domain errors reject nobody exactly in the runs whose guarded calls are spaced. -/
theorem domainErrors_iff (created : ℚ) :
    (∀ ls g, runFrom catalogStep (dbBreaker created) ls = some g →
      (NoRejection g.history ↔ AllSteps catalogStep (Spaced 5) (dbBreaker created) ls)) ∧
    ∀ ls g, runFrom orderStep (orderDbBreaker created) ls = some g →
      (NoRejection g.history ↔ AllSteps orderStep (Spaced 5) (orderDbBreaker created) ls) :=
  ⟨fun _ _ h => noRejection_iff (by decide) h, fun _ _ h => noRejection_iff (by decide) h⟩

/-- The answers of an empty catalog. -/
def emptyCatalog (q : CatalogService.CatalogQuery) : CatalogService.CatalogAnswer q :=
  ({} : CatalogService.CatalogEnv).answer {} .empty q

/-- The answers of an empty order database. -/
def emptyOrders (q : OrderService.OrderQuery) : OrderService.OrderAnswer q :=
  OrderService.OrderDb.empty.answer ⟨[], none⟩ q

/-- A lookup of an absent product, and a second one that is not rejected. -/
theorem domainErrors_iff_absent : ∃ g,
    runFrom catalogStep (dbBreaker 0) [.start (.product "tenant-a" "missing") 0 0,
      .finish 0 (fun _ => emptyCatalog) 2, .start (.product "tenant-a" "missing") 3 3] = some g ∧
      (NoRejection g.history ↔ AllSteps catalogStep (Spaced 5) (dbBreaker 0)
        [.start (.product "tenant-a" "missing") 0 0, .finish 0 (fun _ => emptyCatalog) 2,
          .start (.product "tenant-a" "missing") 3 3]) :=
  ⟨_, rfl, (domainErrors_iff 0).1 _ _ rfl⟩

/-- Five calls one after another. Each takes the 2 s that its retries wait: 0.5 s and 1 s, and
    between 0 and 1 s of jitter each time. -/
def fiveTimes {C Ω : Type} (call : ℕ → C) (answers : Ω) : List (TrafficLabel ℚ C Ω) :=
  (List.range 5).flatMap fun k =>
    [.start (call k) (3 * k + 1) (3 * k + 1), .finish 0 (fun _ => answers) (3 * k + 3)]

/-- The lookups of an absent product, and the listing of another tenant a second later. -/
def missingLookups : List (TrafficLabel ℚ DbRead ((q : CatalogService.CatalogQuery) →
    CatalogService.CatalogAnswer q)) :=
  fiveTimes (fun _ => .product "tenant-a" "missing") emptyCatalog ++
    [.start (.list "tenant-b" 1 20) 16 16]

/-- The payment of an order. -/
def validDelivery : SagaDelivery :=
  ⟨5, ⟨.text "e-5", .paymentSuccessEvent, .text "c-5", { orderId := some (.text "o-1") }⟩⟩

/-- Five events without an order id, and the payment of an order a second later. -/
def orderlessEvents : List (TrafficLabel ℚ SagaDelivery ((q : OrderService.OrderQuery) →
    OrderService.OrderAnswer q)) :=
  fiveTimes (fun k => ⟨k, ⟨.text (["e-0", "e-1", "e-2", "e-3", "e-4"].getD k ""),
    .inventoryReservedEvent, .text "c-1", { orderId := none }⟩⟩) emptyOrders ++
    [.start validDelivery 16 16]

/-- After five lookups of an absent product the listing of another tenant is rejected, and after
    five events without an order id the valid event of an order. -/
theorem bad_inputs_trip :
    (∃ g, runFrom catalogStep (dbBreaker 0) missingLookups = some g ∧ ¬ NoRejection g.history) ∧
    ∃ g, runFrom orderStep (orderDbBreaker 0) orderlessEvents = some g ∧
      ¬ NoRejection g.history := by
  constructor
  · have hlast :
        (runFrom catalogStep (dbBreaker 0) missingLookups).bind (fun g => g.history.head?) =
        some (.rejected (.list "tenant-b" 1 20)
          "Circuit breaker catalog_db_breaker is open. Request rejected." 16) := by decide +kernel
    exact rejection_of_head hlast
  · have hlast : (runFrom orderStep (orderDbBreaker 0) orderlessEvents).bind
        (fun g => g.history.head?) = some (.rejected validDelivery
          "Circuit breaker order_db_consumer is open. Request rejected." 16) := by decide +kernel
    exact rejection_of_head hlast

end CloudScale.Platform
