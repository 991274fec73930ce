/-
  The inventory service's transactions: `_handle_order_created` and `_handle_release_stock` behind
  `handle_event` (`inventory/app/consumers.py`), `restock` and `reserve_batch`
  (`inventory/app/service.py`).

  The objects a transaction changes are in its session; `Account` says, for every kind of request,
  which operations the session of a finished transaction realizes and which rows it adds, and
  `program_account` proves it of every program under any interference. An attempt of `reserve_batch`
  that is repeated after a `StaleDataError` is a further transaction for the same request.
-/
import CloudScale.InventoryService.Model

namespace CloudScale.InventoryService

open CloudScale.Lib CloudScale.Shared

abbrev InventoryTxn (R : Type) := Txn InventoryQuery InventoryAnswer Exc R

/-! ## Queries -/

/-- `inbox_already_processed`. -/
def inInbox (id : Ident) : InventoryTxn Bool := Txn.query (InventoryQuery.inbox id)

/-- Whether `acquire_lock` gets the lock of a product in time. -/
def acquired (productId : ℕ) : InventoryTxn Bool := Txn.query (InventoryQuery.lock productId)

def lockTimeout (productId : ℕ) : Exc :=
  .timeoutError ("Unable to acquire lock for key inventory:lock:" ++ toString productId ++
    " within timeout window.")

/-- `acquire_lock`. -/
def acquireLock (productId : ℕ) : InventoryTxn Unit := do
  if ← acquired productId then return () else .raise (lockTimeout productId)

/-- `select(Inventory).where(Inventory.product_id == product_id)` through the session's identity
    map. -/
def selectInventory (session : Session) (productId : ℕ) :
    InventoryTxn (Option Inventory × Session) := do
  match ← Txn.query (InventoryQuery.row productId) with
  | some row => return (some (stockRows.load session row).1, (stockRows.load session row).2)
  | none => return (none, session)

/-! ## Reservation -/

/-- The products and quantities of an event. -/
def lines (items : List EventItem) : List (ℕ × Int) :=
  items.filterMap fun i => i.productId.map fun p => (p, i.quantity)

/-- The variables of the loop over the items. -/
structure Reservation where
  session : Session := []
  reservedItems : List (ℕ × Int) := []
  failureReason : Option String := none

def outOfStock (productId : ℕ) : String := "Out of stock on item " ++ toString productId

/-- One item of `_handle_order_created`. -/
def reserveItem (st : Reservation) (productId : ℕ) (quantity : Int) :
    InventoryTxn Reservation := do
  acquireLock productId
  match ← selectInventory st.session productId with
  | (some inventory, session) =>
    if inventory.availableStock < quantity then
      return { st with session, failureReason := some (outOfStock productId) }
    else
      return { st with
        session := stockRows.edit session (.reserve productId quantity)
        reservedItems := st.reservedItems ++ [(productId, quantity)] }
  | (none, session) => return { st with session, failureReason := some (outOfStock productId) }

/-- The loop over the items; it ends at the first one that fails. -/
def reserveItems : List EventItem → Reservation → InventoryTxn Reservation
  | [], st => return st
  | item :: items, st => do
    match item.productId with
    | none => .raise .uuidError
    | some productId =>
      let st ← reserveItem st productId item.quantity
      match st.failureReason with
      | some _ => return st
      | none => reserveItems items st

/-- The loop that takes the reserved items back within the transaction. -/
def undoItems : List (ℕ × Int) → Session → InventoryTxn Session
  | [], session => return session
  | (productId, quantity) :: rest, session => do
    acquireLock productId
    match ← selectInventory session productId with
    | (some _, session) => undoItems rest (stockRows.edit session (.unreserve productId quantity))
    | (none, session) => undoItems rest session

def inventoryEvent (tid : ℕ) (eventType : EventType) (e : SagaEvent) (payload : Payload) :
    OutboxRow :=
  writeOutbox .inventoryEvents
    { eventId := .drawn .inventory tid 0, eventType, correlationId := e.correlationId, payload }
    e.payload.orderId

def reservedEvent (tid : ℕ) (e : SagaEvent) : OutboxRow :=
  inventoryEvent tid .inventoryReservedEvent e
    { orderId := e.payload.orderId, items := e.payload.items }

def reserveFailedEvent (tid : ℕ) (e : SagaEvent) (reason : String) : OutboxRow :=
  inventoryEvent tid .inventoryReserveFailedEvent e
    { orderId := e.payload.orderId, reason := some reason }

/-- `_handle_order_created`. -/
def handleOrderCreated (tid : ℕ) (e : SagaEvent) : InventoryTxn InventoryWrites := do
  let st ← reserveItems e.payload.items {}
  match st.failureReason with
  | some reason =>
    let session ← undoItems st.reservedItems st.session
    return { session, outbox := [reserveFailedEvent tid e reason] }
  | none => return { session := st.session, outbox := [reservedEvent tid e] }

/-! ## Release -/

/-- The loop of `_handle_release_stock`; `false` when an exception ended it. -/
def releaseItems : List EventItem → Session → InventoryTxn (Session × Bool)
  | [], session => return (session, true)
  | item :: items, session => do
    match item.productId with
    | none => return (session, false)
    | some productId =>
      if ← acquired productId then
        match ← selectInventory session productId with
        | (some _, session) =>
          releaseItems items (stockRows.edit session (.release productId item.quantity))
        | (none, session) => releaseItems items session
      else return (session, false)

def releasedEvent (tid : ℕ) (e : SagaEvent) : OutboxRow :=
  inventoryEvent tid .inventoryReleasedEvent e { orderId := e.payload.orderId }

/-- `_handle_release_stock`: an exception is logged, and the transaction goes on without the
    confirmation. -/
def handleReleaseStock (tid : ℕ) (e : SagaEvent) : InventoryTxn InventoryWrites := do
  match ← releaseItems e.payload.items [] with
  | (session, true) => return { session, outbox := [releasedEvent tid e] }
  | (session, false) => return { session }

/-- The writes of a handler together with the inbox row of its event. -/
def InventoryWrites.record (e : SagaEvent) (w : InventoryWrites) : InventoryWrites :=
  { w with inbox := some (Shared.recordInbox e "inventory-consumer") }

def handlerOf (tid : ℕ) (e : SagaEvent) : Option (InventoryTxn InventoryWrites) :=
  match e.eventType with
  | .orderCreatedEvent => some (handleOrderCreated tid e)
  | .paymentFailedEvent => some (handleReleaseStock tid e)
  | .orderCancelledEvent => some (handleReleaseStock tid e)
  | _ => none

/-- `handle_event`. -/
def handleEvent (tid : ℕ) (e : SagaEvent) : InventoryTxn (Outcome InventoryWrites) := do
  if ← inInbox e.eventId then return .skipped
  match handlerOf tid e with
  | none => return .ignored
  | some handler =>
    let w ← handler
    return .handled (w.record e)

/-! ## Requests of the API -/

structure RestockRequest where
  quantity : Int
  quantity_pos : 0 < quantity

def newInventory (productId : ℕ) (payload : RestockRequest) : Inventory :=
  { productId, availableStock := payload.quantity, reservedStock := 0, version := 1 }

/-- `restock`. -/
def restock (productId : ℕ) (payload : RestockRequest) : InventoryTxn InventoryWrites := do
  acquireLock productId
  match ← selectInventory [] productId with
  | (some _, session) =>
    return { session := stockRows.edit session (.restock productId payload.quantity) }
  | (none, _) =>
    return { created := some (newInventory productId payload) }

structure BatchReserveItem where
  productId : ℕ
  quantity : Int
  quantity_pos : 0 < quantity

def insufficientStock (item : BatchReserveItem) (available : Int) : Exc :=
  .validationException ("Insufficient stock for product " ++ toString item.productId ++
    ". Requested: " ++ toString item.quantity ++ ", Available: " ++ toString available)

/-- One attempt of `reserve_batch`; it takes no lock. -/
def reserveBatch : List BatchReserveItem → Session → InventoryTxn InventoryWrites
  | [], session => return { session }
  | item :: items, session => do
    match ← selectInventory session item.productId with
    | (some inventory, session) =>
      if inventory.availableStock < item.quantity then
        .raise (insufficientStock item inventory.availableStock)
      else
        reserveBatch items (stockRows.edit session (.reserve item.productId item.quantity))
    | (none, _) => .raise (insufficientStock item 0)

/-! ## The service -/

inductive InventoryRequest where
  | event (e : SagaEvent)
  | restock (productId : ℕ) (payload : RestockRequest)
  | reserveBatch (items : List BatchReserveItem)

/-- The event a request handles. -/
def InventoryRequest.event? : InventoryRequest → Option SagaEvent
  | .event e => some e
  | _ => none

def program (tid : ℕ) : InventoryRequest → InventoryTxn (Outcome InventoryWrites)
  | .event e => handleEvent tid e
  | .restock p payload => do return .handled (← restock p payload)
  | .reserveBatch items => do return .handled (← reserveBatch items [])

def commit : Outcome InventoryWrites → InventoryDb → Option InventoryDb
  | .handled w, db => db.commit w
  | _, db => some db

def service : Service InventoryDb Unit InventoryRequest InventoryEnv InventoryQuery InventoryAnswer
    Exc (Outcome InventoryWrites) where
  prog := program
  answer env _ db q := db.answer env q
  effect _ x := x
  commit := commit

abbrev InventoryServer := Server InventoryDb Unit InventoryRequest InventoryQuery InventoryAnswer
  Exc (Outcome InventoryWrites)

end CloudScale.InventoryService
