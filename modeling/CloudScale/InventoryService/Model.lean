/-
  The inventory service's database (`inventory/app/models.py`) and what its transactions ask and
  write.

  An `Inventory` row has a `version_id_col`: a flushed UPDATE goes through only at the version that
  was loaded, otherwise the whole transaction is rolled back. The code raises `version` by one with
  every change of an object, so an object can be several versions ahead when it is flushed; the
  four changes it makes are the operations of `stockRows`. The columns have 32 bits: a value beyond
  them is refused when it is flushed, which is at the commit (`autoflush` is off), and the whole
  transaction is rolled back as well.
-/
import CloudScale.Lib.Occ
import CloudScale.Lib.Server
import CloudScale.Shared.Columns
import CloudScale.Shared.Message

namespace CloudScale.InventoryService

open CloudScale.Lib CloudScale.Shared

/-! ## Rows -/

structure Inventory where
  productId : ℕ
  availableStock : Int
  reservedStock : Int
  version : ℕ
deriving DecidableEq

/-- The values of the row fit their columns. -/
def Inventory.storable (r : Inventory) : Bool :=
  fitsInteger r.availableStock && fitsInteger r.reservedStock && fitsInteger r.version

/-- What the code does to an object. -/
inductive StockOp where
  | reserve (productId : ℕ) (quantity : Int)
  | unreserve (productId : ℕ) (quantity : Int)
  | release (productId : ℕ) (quantity : Int)
  | restock (productId : ℕ) (quantity : Int)

def StockOp.productId : StockOp → ℕ
  | .reserve p _ => p
  | .unreserve p _ => p
  | .release p _ => p
  | .restock p _ => p

/-- The change of the object; `version` goes up by one each time. -/
def StockOp.effect : StockOp → Inventory → Inventory
  | .reserve _ q, r => { r with
      availableStock := r.availableStock - q, reservedStock := r.reservedStock + q,
      version := r.version + 1 }
  | .unreserve _ q, r => { r with
      availableStock := r.availableStock + q, reservedStock := r.reservedStock - q,
      version := r.version + 1 }
  | .release _ q, r =>
    let releaseQty := min r.reservedStock q
    { r with
      reservedStock := r.reservedStock - releaseQty,
      availableStock := r.availableStock + releaseQty, version := r.version + 1 }
  | .restock _ q, r => { r with
      availableStock := r.availableStock + q, version := r.version + 1 }

/-- Only a reservation is made under a test. -/
def StockOp.guard : StockOp → Inventory → Prop
  | .reserve _ q, r => q ≤ r.availableStock
  | _, _ => True

/-- The rows of the inventory table under optimistic concurrency control. -/
def stockRows : Versioned ℕ Inventory StockOp where
  key := Inventory.productId
  version := Inventory.version
  target := StockOp.productId
  guard := StockOp.guard
  effect := StockOp.effect
  effect_key o r := by cases o <;> rfl
  effect_version o r := by cases o <;> exact Nat.lt_succ_self _

abbrev Stock := Table ℕ Inventory stockRows.key

structure InventoryDb where
  stock : Stock
  outbox : OutboxRows
  inbox : InboxRows

/-! ## Queries -/

/-- What a transaction asks: `lock` is `acquire_lock`, which may time out. -/
inductive InventoryQuery where
  | inbox (id : Ident)
  | lock (productId : ℕ)
  | row (productId : ℕ)

def InventoryAnswer : InventoryQuery → Type
  | .inbox _ => Bool
  | .lock _ => Bool
  | .row _ => Option Inventory

/-- `acquired` is what Redis answers within the time limit. -/
structure InventoryEnv where
  acquired : Bool

def InventoryDb.answer (env : InventoryEnv) (db : InventoryDb) :
    (q : InventoryQuery) → InventoryAnswer q
  | .inbox id => inboxAlreadyProcessed db.inbox id
  | .lock _ => env.acquired
  | .row p => db.stock.get p

/-! ## Commits -/

/-- The objects of a session. -/
abbrev Session := List (Edit Inventory)

structure InventoryWrites where
  session : Session := []
  created : Option Inventory := none
  outbox : List OutboxRow := []
  inbox : Option InboxMessage := none

/-- What a flush writes of an object fits the columns; it writes only what has changed. -/
def objectFits (e : Edit Inventory) : Bool := decide (e.current = e.loaded) || e.current.storable

/-- `session.flush()`; `none` on a stale version or a value beyond its column. -/
def flushStock (stock : Stock) (session : Session) : Option Stock :=
  if session.all objectFits then Versioned.flush stock session else none

/-- `session.commit()`; `none` when the flush fails or a constraint is violated. -/
def InventoryDb.commit (db : InventoryDb) (w : InventoryWrites) : Option InventoryDb := do
  let stock ← flushStock db.stock w.session
  let stock ← stock.extend w.created.toList
  let outbox ← db.outbox.extend w.outbox
  let inbox ← db.inbox.extend w.inbox.toList
  if w.created.all Inventory.storable then some { stock, outbox, inbox } else none

theorem flushStock_eq_some {stock stock' : Stock} {session : Session}
    (h : flushStock stock session = some stock') :
    session.all objectFits = true ∧ Versioned.flush stock session = some stock' :=
  Option.ite_none_right_eq_some.mp h

/-- Nobody has changed the rows meanwhile: the flush fails exactly on a value that does not fit. -/
theorem flushStock_fresh {stock : Stock} {session : Session} {ops : List StockOp}
    (hreal : Versioned.Realizes stock session ops) (hfresh : Versioned.Fresh stock session) :
    (∃ stock', flushStock stock session = some stock' ∧
        ∀ p, stock'.get p = (stock.get p).map (stockRows.run ops)) ∧
        session.all objectFits = true ∨
      flushStock stock session = none ∧ ¬ session.all objectFits = true := by
  unfold flushStock
  by_cases hfits : session.all objectFits = true
  · rw [if_pos hfits]
    exact Or.inl ⟨hreal.flush hfresh, hfits⟩
  · rw [if_neg hfits]
    exact Or.inr ⟨rfl, hfits⟩

/-- What is flushed, by the operations of the session: the rows that they change. -/
theorem session_fits_iff {stock : Stock} {session : Session} {ops : List StockOp}
    (hreal : Versioned.Realizes stock session ops) (hfresh : Versioned.Fresh stock session) :
    session.all objectFits = true ↔ ∀ p row, stock.get p = some row →
      stockRows.run ops row = row ∨ (stockRows.run ops row).storable = true := by
  have hobject : ∀ e ∈ session, (objectFits e = true ↔
      stockRows.run ops e.loaded = e.loaded ∨ (stockRows.run ops e.loaded).storable = true) := by
    intro e he
    rw [objectFits, hreal.current e he]
    simp
  rw [List.all_eq_true]
  constructor
  · intro hall p row hrow
    by_cases hmem : p ∈ session.map fun e => stockRows.key e.loaded
    · obtain ⟨e, he, rfl⟩ := List.mem_map.mp hmem
      obtain rfl : e.loaded = row := Option.some.inj ((hfresh e he).symm.trans hrow)
      exact (hobject e he).mp (hall e he)
    · refine Or.inl (Versioned.run_of_untouched fun o ho htarget => hmem ?_)
      rw [← Table.get_key hrow, ← htarget]
      exact hreal.covered o ho
  · intro hall e he
    exact (hobject e he).mpr (hall _ _ (hfresh e he))

theorem commit_eq_some {db db' : InventoryDb} {w : InventoryWrites} (h : db.commit w = some db') :
    (∃ stock, Versioned.flush db.stock w.session = some stock ∧
      stock.extend w.created.toList = some db'.stock) ∧
      db.outbox.extend w.outbox = some db'.outbox ∧
      db.inbox.extend w.inbox.toList = some db'.inbox := by
  simp only [InventoryDb.commit, Option.bind_eq_bind, Option.bind_eq_some_iff,
    Option.ite_none_right_eq_some, Option.some.injEq] at h
  obtain ⟨stock, hs, stock', hs', outbox, hout, inbox, hin, -, rfl⟩ := h
  exact ⟨⟨stock, (flushStock_eq_some hs).2, hs'⟩, hout, hin⟩

/-- A commit of a session that realizes `ops` applies `ops` to every row. -/
theorem get_commit {db db' : InventoryDb} {w : InventoryWrites} {ops : List StockOp}
    (h : db.commit w = some db') (hr : Versioned.Realizes db.stock w.session ops) {p : ℕ}
    {r : Inventory} (hget : db.stock.get p = some r) :
    db'.stock.get p = some (stockRows.run ops r) ∧ stockRows.Enabled ops r := by
  obtain ⟨⟨stock, hflush, hext⟩, -, -⟩ := commit_eq_some h
  obtain ⟨hrun, henabled⟩ := Versioned.flush_run hr hflush p
  refine ⟨Table.get_extend_of_some hext ?_, henabled r hget⟩
  rw [hrun, hget]
  rfl

/-- The rows of a commit's result: old ones, or the created one. -/
theorem get_commit_none {db db' : InventoryDb} {w : InventoryWrites} {ops : List StockOp}
    (h : db.commit w = some db') (hr : Versioned.Realizes db.stock w.session ops) {p : ℕ}
    (hget : db.stock.get p = none) {r : Inventory} (hr' : db'.stock.get p = some r) :
    w.created = some r ∧ r.productId = p := by
  obtain ⟨⟨stock, hflush, hext⟩, -, -⟩ := commit_eq_some h
  have hnone : stock.get p = none := by
    rw [(Versioned.flush_run hr hflush p).1, hget]
    rfl
  rw [Table.get_extend hext, hnone, Option.none_or] at hr'
  cases hc : w.created with
  | none =>
    rw [hc] at hr'
    cases hr'
  | some c =>
    rw [hc] at hr'
    have hmem := List.mem_of_find?_eq_some hr'
    obtain rfl := List.mem_singleton.mp hmem
    have hkey : stockRows.key r = p := by simpa using List.find?_some hr'
    exact ⟨rfl, hkey⟩

theorem commit_forward {db db' : InventoryDb} {w : InventoryWrites} {ops : List StockOp}
    (h : db.commit w = some db') (hr : Versioned.Realizes db.stock w.session ops) :
    Versioned.Forward db.stock db'.stock := by
  intro p r hget
  obtain ⟨⟨stock, hflush, hext⟩, -, -⟩ := commit_eq_some h
  have hrun : ∀ k, stock.get k = (db.stock.get k).map (stockRows.run ops) := fun k =>
    (Versioned.flush_run hr hflush k).1
  obtain ⟨r', hr', hrest⟩ := Versioned.forward_of_run hrun p r hget
  exact ⟨r', Table.get_extend_of_some hext hr', hrest⟩

end CloudScale.InventoryService
