/-
  The order service's database (`order/app/models.py`) and what its transactions ask and write.

  A transaction reads with queries answered by the committed rows of the moment (a plain SELECT,
  no row lock) and leaves one write set. An `Order` row has no version column: the ORM emits
  `UPDATE orders SET status = .. WHERE id = ..`, so a status is written whatever the row has become
  since it was loaded (`OrderDb.commit`). The loaded row is kept in the write set for the statements
  about stale reads only.
-/
import Mathlib.Algebra.Order.Ring.Rat
import CloudScale.Lib.Server
import CloudScale.Shared.Columns
import CloudScale.Shared.Message

namespace CloudScale.OrderService

open CloudScale.Lib CloudScale.Shared

/-! ## Rows -/

inductive OrderStatus where
  | pending
  | stockReserved
  | confirmed
  | cancelled
  | cancelledNoStock
  | cancelling
deriving DecidableEq

/-- The states in which the saga of an order has ended. -/
def OrderStatus.Terminal (s : OrderStatus) : Prop :=
  s = .confirmed ∨ s = .cancelled ∨ s = .cancelledNoStock

instance (s : OrderStatus) : Decidable s.Terminal := inferInstanceAs (Decidable (_ ∨ _))

structure OrderItem where
  productId : ℕ
  quantity : Int
  unitPrice : ℚ
deriving DecidableEq

structure Order where
  id : Ident
  userId : Ident
  status : OrderStatus := .pending
  totalAmount : ℚ
  idempotencyKey : String
  createdAt : Int
  tenantId : String
  items : List OrderItem
deriving DecidableEq

def Order.withStatus (s : OrderStatus) (o : Order) : Order := { o with status := s }

abbrev Orders := Table Ident Order Order.id

structure OrderDb where
  orders : Orders
  outbox : OutboxRows
  inbox : InboxRows

def OrderDb.empty : OrderDb := { orders := .empty, outbox := .empty, inbox := .empty }

/-! ## Queries -/

/-- What a transaction asks. `plan` goes to Redis, the others to the database. -/
inductive OrderQuery where
  | inbox (id : Ident)
  | order (id : Ident)
  | stale (cutoff : Int) (limit : ℕ)
  | plan (tenant : String)
  | count (tenant : String)
  | byKey (key tenant : String)

def OrderAnswer : OrderQuery → Type
  | .inbox _ => Bool
  | .order _ => Option Order
  | .stale _ _ => List Order
  | .plan _ => Option String
  | .count _ => ℕ
  | .byKey _ _ => Option Order

/-- What the database does not determine: the order in which a scan meets the rows, and what Redis
    says. -/
structure OrderEnv where
  scan : List Order
  plan : Option String

/-- The `where` clause of the sweeper. -/
def stale (cutoff : Int) (o : Order) : Bool :=
  decide (o.status = .pending ∨ o.status = .stockReserved) && decide (o.createdAt ≤ cutoff)

/-- The first `limit` stale rows in the order of the scan (there is no `order_by`). -/
def OrderDb.staleOrders (db : OrderDb) (scan : List Order) (cutoff : Int) (limit : ℕ) :
    List Order :=
  let rows := db.orders.rows.filter (stale cutoff)
  (if scan.Perm rows then scan else rows).take limit

/-- The tenant's order with the key. -/
def OrderDb.orderByKey (db : OrderDb) (key tenant : String) : Option Order :=
  db.orders.rows.find? fun o => o.idempotencyKey == key && o.tenantId == tenant

def OrderDb.answer (env : OrderEnv) (db : OrderDb) : (q : OrderQuery) → OrderAnswer q
  | .inbox id => inboxAlreadyProcessed db.inbox id
  | .order id => db.orders.get id
  | .stale cutoff limit => db.staleOrders env.scan cutoff limit
  | .plan _ => env.plan
  | .count tenant => db.orders.rows.countP fun o => o.tenantId == tenant
  | .byKey key tenant => db.orderByKey key tenant

/-! ## Commits -/

/-- A pending UPDATE of a loaded order. -/
structure StatusUpdate where
  loaded : Order
  status : OrderStatus

/-- What a transaction leaves in its session, and the order it returns. -/
structure OrderWrites where
  returned : Option Order := none
  created : Option Order := none
  updates : List StatusUpdate := []
  outbox : List OutboxRow := []
  inbox : Option InboxMessage := none

/-- `UPDATE orders SET status = .. WHERE id = ..`. -/
def StatusUpdate.run (u : StatusUpdate) (orders : Orders) : Orders :=
  orders.modify u.loaded.id (Order.withStatus u.status) fun _ => rfl

def runUpdates (orders : Orders) (us : List StatusUpdate) : Orders :=
  us.foldl (fun t u => u.run t) orders

/-- The idempotency key is unique. -/
def keysUnique (orders : Orders) : Bool := decide (orders.rows.map (·.idempotencyKey)).Nodup

/-- The values of a new order fit the columns of its row and of its items. -/
def Order.storable (o : Order) : Bool :=
  fitsText 255 o.idempotencyKey && fitsText 100 o.tenantId && fitsNumeric o.totalAmount &&
    o.items.all fun i => fitsInteger i.quantity && fitsNumeric i.unitPrice

/-- An identifier in a column `String(n)`; a uuid has 36 characters. -/
def fitsIdent (n : ℕ) : Ident → Bool
  | .drawn _ _ _ => decide (36 ≤ n)
  | .text s => fitsText n s

/-- All values that are inserted fit their columns. -/
def OrderWrites.storable (w : OrderWrites) : Bool :=
  w.created.all Order.storable && (w.outbox.all fun r => fitsIdent 36 r.event.correlationId) &&
    w.inbox.all fun m => fitsIdent 36 m.eventId

/-- `session.commit()`; `none` when a constraint is violated or a value does not fit its column. -/
def OrderDb.commit (db : OrderDb) (w : OrderWrites) : Option OrderDb := do
  let orders ← (runUpdates db.orders w.updates).extend w.created.toList
  let outbox ← db.outbox.extend w.outbox
  let inbox ← db.inbox.extend w.inbox.toList
  if keysUnique orders && w.storable then some { orders, outbox, inbox } else none

/-! ## What a commit does -/

theorem commit_eq_some {db db' : OrderDb} {w : OrderWrites} (h : db.commit w = some db') :
    (runUpdates db.orders w.updates).extend w.created.toList = some db'.orders ∧
      db.outbox.extend w.outbox = some db'.outbox ∧
      db.inbox.extend w.inbox.toList = some db'.inbox := by
  simp only [OrderDb.commit, Option.bind_eq_bind, Option.bind_eq_some_iff,
    Option.ite_none_right_eq_some, Option.some.injEq] at h
  obtain ⟨orders, ho, outbox, hout, inbox, hin, -, rfl⟩ := h
  exact ⟨ho, hout, hin⟩

/-- Values that do not fit are not committed. -/
theorem commit_unfit {db : OrderDb} {w : OrderWrites} (h : w.storable = false) :
    db.commit w = none := by
  cases hc : db.commit w with
  | none => rfl
  | some db' =>
    simp only [OrderDb.commit, Option.bind_eq_bind, Option.bind_eq_some_iff,
      Option.ite_none_right_eq_some, h, Bool.and_false, Bool.false_eq_true, false_and,
      and_false, exists_false] at hc

theorem rows_run (u : StatusUpdate) (orders : Orders) : (u.run orders).rows =
    orders.rows.map fun o => if o.id = u.loaded.id then o.withStatus u.status else o := rfl

theorem get_run (u : StatusUpdate) (orders : Orders) (id : Ident) :
    (u.run orders).get id =
      if id = u.loaded.id then (orders.get id).map (Order.withStatus u.status)
      else orders.get id :=
  Table.get_modify _ _ _ _ id

/-- A row that no update names is unchanged. -/
theorem get_runUpdates_of_not_mem {us : List StatusUpdate} {id : Ident} (orders : Orders)
    (h : id ∉ us.map (·.loaded.id)) : (runUpdates orders us).get id = orders.get id := by
  induction us generalizing orders with
  | nil => rfl
  | cons u us ih =>
    rw [List.map_cons, List.mem_cons, not_or] at h
    show (runUpdates (u.run orders) us).get id = _
    rw [ih _ h.2, get_run, if_neg h.1]

/-- A row that exactly one update names gets its status. -/
theorem get_runUpdates_of_mem {us : List StatusUpdate} {u : StatusUpdate} (orders : Orders)
    (hnodup : (us.map (·.loaded.id)).Nodup) (hu : u ∈ us) :
    (runUpdates orders us).get u.loaded.id =
      (orders.get u.loaded.id).map (Order.withStatus u.status) := by
  induction us generalizing orders with
  | nil => cases hu
  | cons v us ih =>
    rw [List.map_cons, List.nodup_cons] at hnodup
    show (runUpdates (v.run orders) us).get u.loaded.id = _
    rcases List.mem_cons.mp hu with rfl | hu
    · rw [get_runUpdates_of_not_mem _ hnodup.1, get_run, if_pos rfl]
    · have hne : u.loaded.id ≠ v.loaded.id := fun h =>
        hnodup.1 (h ▸ List.mem_map_of_mem hu)
      rw [ih _ hnodup.2 hu, get_run, if_neg hne]

/-- Every existing order after a commit: the status of the update that names it, if one does. -/
theorem get_commit {db db' : OrderDb} {w : OrderWrites} (h : db.commit w = some db')
    (hnodup : (w.updates.map (·.loaded.id)).Nodup) {id : Ident} {o : Order}
    (ho : db.orders.get id = some o) :
    (∃ u ∈ w.updates, u.loaded.id = id ∧ db'.orders.get id = some (o.withStatus u.status)) ∨
      id ∉ w.updates.map (·.loaded.id) ∧ db'.orders.get id = some o := by
  obtain ⟨hext, -, -⟩ := commit_eq_some h
  by_cases hmem : id ∈ w.updates.map (·.loaded.id)
  · obtain ⟨u, hu, rfl⟩ := List.mem_map.mp hmem
    refine Or.inl ⟨u, hu, rfl, Table.get_extend_of_some hext ?_⟩
    rw [get_runUpdates_of_mem _ hnodup hu, ho]
    rfl
  · refine Or.inr ⟨hmem, Table.get_extend_of_some hext ?_⟩
    rw [get_runUpdates_of_not_mem _ hmem, ho]

end CloudScale.OrderService
