/-
  Reserved stock and the orders that hold it.

  An order holds its reservation from its reserved event to the next released event
  (`holds`). `Corresponds`: the reserved stock of each product is what the orders that hold one
  ordered of it. A reservation adds the order's lines on both sides; a release takes them back on
  both sides if its order holds them, and otherwise takes `min(reserved_stock, quantity)` from
  whoever does. `reserved_corresponds`: the correspondence holds in every state of every run whose
  releases are of orders that hold their reservation, or of products of which nothing is reserved
  (`HeldReleases`). `cancelled_order_takes_stock` is a run of the sweeper in which they are not.
-/
import Mathlib.Algebra.Order.Group.Int
import Mathlib.Data.List.Induction
import CloudScale.Saga.Charges

namespace CloudScale.Saga

open CloudScale.Lib CloudScale.Shared
open OrderService (Order OrderDb)
open InventoryService (Inventory InventoryDb InventoryRequest InventoryWrites StockOp stockRows
  lines Complete Stocked Granted demand demand_nonneg demand_cons reserveOps releaseOps)

/-! ## Holding a reservation -/

/-- After the rows of the inventory's outbox, the order was reserved and not released since. -/
def holds (rows : List OutboxRow) (o : Ident) : Bool :=
  rows.foldl (fun held r =>
    if Concerns .inventoryReservedEvent o r then true
    else if Concerns .inventoryReleasedEvent o r then false
    else held) false

/-- What an order holds of a product. -/
def heldBy (rows : List OutboxRow) (o : Order) (p : ℕ) : Int :=
  if holds rows o.id then demand (orderLines o) p else 0

/-- What the orders hold of a product together. -/
def heldStock (s : System) (p : ℕ) : Int :=
  (s.order.db.orders.rows.map fun o => heldBy s.inventory.db.outbox.rows o p).sum

/-- The reserved stock of a product; without a row it is 0. -/
def reservedOf (db : InventoryDb) (p : ℕ) : Int := ((db.stock.get p).map (·.reservedStock)).getD 0

def Corresponds (s : System) : Prop := ∀ p, reservedOf s.inventory.db p = heldStock s p

theorem holds_append (rows : List OutboxRow) (r : OutboxRow) (o : Ident) :
    holds (rows ++ [r]) o =
      if Concerns .inventoryReservedEvent o r then true
      else if Concerns .inventoryReleasedEvent o r then false
      else holds rows o := by
  simp [holds, List.foldl_append]

theorem holds_append_of_ne {rows : List OutboxRow} {r : OutboxRow} {o : Ident}
    (h : r.event.payload.orderId ≠ some o) : holds (rows ++ [r]) o = holds rows o := by
  rw [holds_append, if_neg fun hc => h hc.2, if_neg fun hc => h hc.2]

/-- An order without a reserved event holds nothing. -/
theorem holds_of_none {rows : List OutboxRow} {o : Ident}
    (h : ∀ r ∈ rows, ¬ Concerns .inventoryReservedEvent o r) : holds rows o = false := by
  induction rows using List.reverseRecOn with
  | nil => rfl
  | append_singleton rows r ih =>
    rw [holds_append, if_neg (h r (by simp)), ih fun r hr => h r (by simp [hr])]
    simp

theorem orderLines_pos {o : Order} (h : ∀ i ∈ o.items, 0 < i.quantity) :
    ∀ l ∈ orderLines o, 0 ≤ l.2 := by
  intro l hl
  obtain ⟨i, hi, rfl⟩ := List.mem_map.mp hl
  exact Int.le_of_lt (h i hi)

theorem heldBy_nonneg {rows : List OutboxRow} {o : Order} (h : ∀ i ∈ o.items, 0 < i.quantity)
    (p : ℕ) : 0 ≤ heldBy rows o p := by
  unfold heldBy
  split
  · exact demand_nonneg (orderLines_pos h) p
  · exact Int.le_refl 0

theorem demand_of_not_mem {ls : List (ℕ × Int)} {p : ℕ} (h : ∀ l ∈ ls, l.1 ≠ p) :
    demand ls p = 0 := by
  refine List.sum_eq_zero fun x hx => ?_
  obtain ⟨l, hl, rfl⟩ := List.mem_map.mp hx
  exact if_neg (h l hl)

/-! ## Sums over the orders -/

section Sums

variable {orders : OrderService.Orders} {f f' : Order → Int} {o : Order}

/-- A sum over the orders that changes at one order. -/
theorem sum_update (ho : o ∈ orders.rows) (h : ∀ x ∈ orders.rows, x.id ≠ o.id → f' x = f x) :
    (orders.rows.map f').sum = (orders.rows.map f).sum + (f' o - f o) := by
  obtain ⟨before, after, hrows⟩ := List.append_of_mem ho
  have hnodup := orders.nodup
  rw [hrows, List.map_append, List.map_cons] at hnodup
  have hne : ∀ x ∈ before ++ after, x.id ≠ o.id := by
    intro x hx heq
    rcases List.mem_append.mp hx with hx | hx
    · exact (List.nodup_append.mp hnodup).2.2 _ (List.mem_map_of_mem hx) _ List.mem_cons_self heq
    · have hcons := List.nodup_cons.mp (List.nodup_append.mp hnodup).2.1
      exact hcons.1 (heq ▸ List.mem_map_of_mem hx)
  have hsame : ∀ l : List Order, (∀ x ∈ l, x ∈ before ++ after) → l.map f' = l.map f := by
    intro l hl
    refine List.map_congr_left fun x hx => h x ?_ (hne x (hl x hx))
    rw [hrows]
    rcases List.mem_append.mp (hl x hx) with hx | hx
    · exact List.mem_append_left _ hx
    · exact List.mem_append_right _ (List.mem_cons_of_mem _ hx)
  rw [hrows, List.map_append, List.map_append, List.map_cons, List.map_cons, List.sum_append,
    List.sum_append, List.sum_cons, List.sum_cons,
    hsame before fun x hx => List.mem_append_left _ hx,
    hsame after fun x hx => List.mem_append_right _ hx]
  omega

/-- No order holds more than all together. -/
theorem le_sum (ho : o ∈ orders.rows) (h : ∀ x ∈ orders.rows, 0 ≤ f x) :
    f o ≤ (orders.rows.map f).sum :=
  List.single_le_sum (by simpa using h) _ (List.mem_map_of_mem ho)

end Sums

/-! ## The condition -/

/-- The events on which the inventory service releases stock. -/
def Releases (e : SagaEvent) : Prop :=
  e.eventType = .paymentFailedEvent ∨ e.eventType = .orderCancelledEvent

instance (e : SagaEvent) : Decidable (Releases e) := inferInstanceAs (Decidable (_ ∨ _))

/-- The release event a request handles. -/
def release? : InventoryRequest → Option SagaEvent
  | .event e => if Releases e then some e else none
  | _ => none

/-- The next query asks for a lock. -/
def asksLock : InventoryService.InventoryTxn (Outcome InventoryWrites) → Bool
  | .ask (.lock _) _ => true
  | _ => false

/-- The writes of a finished handler. -/
def handled? : InventoryService.InventoryTxn (Outcome InventoryWrites) → Option InventoryWrites
  | .done (.handled w) => some w
  | _ => none

/-- The release is of an order that holds its reservation (and whose products had rows when the
    handling began), or nothing of its products is reserved at all. -/
def OwnRelease (begun db : InventoryDb) (e : SagaEvent) : Prop :=
  ∀ o ∈ e.payload.orderId,
    if holds db.outbox.rows o then Stocked begun (lines e.payload.items)
    else ∀ l ∈ lines e.payload.items, ∀ row ∈ db.stock.get l.1, row.reservedStock = 0

/-- A release gets its locks, and is of an order that holds its reservation when it is about to be
    committed. (Batches of the API reserve stock for no order; they are not used.) -/
def HeldReleases (s : System) : SystemLabel → Prop
  | .reserveBatch _ => False
  | .inventory (.advance i ω) => ∀ a ∈ s.inventory.active[i]?, (release? a.req).isSome = true →
      asksLock a.prog = true → ω.acquired = true
  | .inventory (.finish i) => ∀ a ∈ s.inventory.active[i]?, ∀ e ∈ release? a.req,
      ∀ w ∈ handled? a.prog, (s.inventory.db.commit w).isSome = true →
      OwnRelease a.begun s.inventory.db e
  | _ => True

/-- A release returns to the available stock at most what its order holds. -/
def ReturnsOwn (s s' : System) : SystemLabel → Prop
  | .inventory (.finish i) => ∀ a e, s.inventory.active[i]? = some a → a.req = .event e →
      Releases e → ∀ o ∈ s.order.db.orders.rows, e.payload.orderId = some o.id →
      ∀ p row row', s.inventory.db.stock.get p = some row →
        s'.inventory.db.stock.get p = some row' →
        row'.availableStock - row.availableStock ≤ heldBy s.inventory.db.outbox.rows o p
  | _ => True

/-- The locks that releases ask for are granted. -/
def lockGood : InventoryGood := fun tk _ q ω =>
  ∀ e, tk.req = .event e → Releases e → ∀ p, q = .lock p → ω.acquired = true

def NoBatch (r : InventoryRequest) : Prop := ∀ items, r ≠ .reserveBatch items

variable {simulatePayments : Bool} {s s' : System} {l : SystemLabel}

theorem goodStep_lock (h : HeldReleases s l) : GoodStep lockGood s l := by
  cases l with
  | inventory m =>
    cases m with
    | advance i ω =>
      intro a ha q k hp e hreq hrel p hq
      subst hq
      refine h a ha ?_ ?_
      · rw [hreq, release?, if_pos hrel]
        rfl
      · rw [hp]
        rfl
    | finish i => trivial
    | crash i => trivial
  | _ => trivial

/-! ## Both sides of a commit -/

/-- The row of the order an event is about. -/
theorem Facts.orderOf (hf : Facts s) {e : SagaEvent} (he : Sent s e) :
    ∃ o ∈ s.order.db.orders.rows, e.payload.orderId = some o.id ∧
      (carriesItems e.eventType = true →
        lines e.payload.items = orderLines o ∧ Complete e.payload.items) := by
  obtain ⟨o, ⟨st, hget⟩, horder, hitems⟩ := hf.of_sent he
  exact ⟨o.withStatus st, Table.mem_of_get hget, horder, hitems⟩

/-- The left side: a commit that changes the reserved stock of every row by `d`. -/
theorem reservedOf_commit {tid : ℕ} {granted : Prop} {begun db db' : InventoryDb}
    {r : InventoryRequest} {w : InventoryWrites} {ops : List StockOp} {d : ℕ → Int}
    (haccount : InventoryService.Account tid granted begun r w ops)
    (hreal : Versioned.Realizes db.stock w.session ops) (hc : db.commit w = some db')
    (hrow : ∀ p row, db.stock.get p = some row →
      (stockRows.run ops row).reservedStock = row.reservedStock + d p)
    (hnone : ∀ p, db.stock.get p = none → d p = 0) (p : ℕ) :
    reservedOf db' p = reservedOf db p + d p := by
  unfold reservedOf
  cases hget : db.stock.get p with
  | some row =>
    rw [(InventoryService.get_commit hc hreal hget).1]
    exact hrow p row hget
  | none =>
    rw [hnone p hget]
    cases hget' : db'.stock.get p with
    | none => rfl
    | some row =>
      obtain ⟨hcreated, -⟩ := InventoryService.get_commit_none hc hreal hget hget'
      cases haccount with
      | created => cases hcreated; rfl
      | _ => cases hcreated

/-- The right side: a new row of the inventory's outbox about one order. -/
theorem heldStock_append {a : OutboxRow} {o : Order} (ho : o ∈ s.order.db.orders.rows)
    (ha : a.event.payload.orderId = some o.id) (horder : s'.order.db = s.order.db)
    (hrows : s'.inventory.db.outbox.rows = s.inventory.db.outbox.rows ++ [a]) (p : ℕ) :
    heldStock s' p = heldStock s p + (heldBy (s.inventory.db.outbox.rows ++ [a]) o p -
      heldBy s.inventory.db.outbox.rows o p) := by
  unfold heldStock
  rw [horder, hrows]
  refine sum_update ho fun x _ hne => ?_
  have hother : a.event.payload.orderId ≠ some x.id := by
    rw [ha]
    exact fun h => hne (Option.some.inj h).symm
  unfold heldBy
  rw [holds_append_of_ne hother]

theorem heldStock_same (horder : s'.order.db = s.order.db)
    (hrows : s'.inventory.db.outbox.rows = s.inventory.db.outbox.rows) (p : ℕ) :
    heldStock s' p = heldStock s p := by
  unfold heldStock
  rw [horder, hrows]

/-- A product of an order that holds its reservation has a row, and its reserved stock covers the
    order's lines. -/
theorem Corresponds.covers (hcor : Corresponds s) (hf : Facts s) {o : Order}
    (ho : o ∈ s.order.db.orders.rows) (p : ℕ) :
    heldBy s.inventory.db.outbox.rows o p ≤ reservedOf s.inventory.db p := by
  rw [hcor p]
  exact le_sum (f := fun o => heldBy s.inventory.db.outbox.rows o p) ho fun x hx =>
    heldBy_nonneg (hf.positive x hx) p

/-- With nothing reserved, a release changes nothing. -/
theorem run_release_of_zero {ls : List (ℕ × Int)} {ops : List StockOp} {row : Inventory}
    (hsub : ops.Sublist (releaseOps ls)) (hpos : ∀ l ∈ ls, 0 ≤ l.2)
    (hzero : row.productId ∈ ls.map (·.1) → row.reservedStock = 0) :
    (stockRows.run ops row).reservedStock = row.reservedStock := by
  by_cases hmem : row.productId ∈ ls.map (·.1)
  · have hrow := hzero hmem
    have hops : ∀ o ∈ ops, ∃ p q, o = .release p q ∧ 0 ≤ q := by
      intro o ho
      obtain ⟨l, hl, rfl⟩ := List.mem_map.mp (hsub.subset ho)
      exact ⟨l.1, l.2, rfl, hpos l hl⟩
    clear hsub hzero hmem
    induction ops generalizing row with
    | nil => rfl
    | cons o ops ih =>
      obtain ⟨p, q, rfl, hq⟩ := hops o List.mem_cons_self
      have hstep : (stockRows.apply (.release p q) row).reservedStock = 0 := by
        by_cases hp : p = row.productId
        · rw [InventoryService.apply_of_eq (o := StockOp.release p q) hp]
          simp only [StockOp.effect]
          omega
        · rw [InventoryService.apply_of_ne (o := StockOp.release p q) hp]
          exact hrow
      rw [Versioned.run_cons, ih hstep fun o ho => hops o (List.mem_cons_of_mem _ ho), hstep, hrow]
  · refine congrArg Inventory.reservedStock (Versioned.run_of_untouched fun o ho heq => hmem ?_)
    obtain ⟨l, hl, rfl⟩ := List.mem_map.mp (hsub.subset ho)
    have hkey : l.1 = row.productId := heq
    exact hkey ▸ List.mem_map_of_mem hl

/-! ## Every commit keeps the correspondence -/

/-- What a commit with operations `ops` does to both sides: they change by `d`, and what a release
    returns its order held. -/
structure Balanced (s s' : System) (r : InventoryRequest) (ops : List StockOp) (d : ℕ → Int) :
    Prop where
  row : ∀ p row, s.inventory.db.stock.get p = some row →
    (stockRows.run ops row).reservedStock = row.reservedStock + d p
  absent : ∀ p, s.inventory.db.stock.get p = none → d p = 0
  held : ∀ p, heldStock s' p = heldStock s p + d p
  own : ∀ e, r = .event e → Releases e → ∀ o ∈ s.order.db.orders.rows,
    e.payload.orderId = some o.id → ∀ p, - d p ≤ heldBy s.inventory.db.outbox.rows o p

section Balance

variable {tid : ℕ} {granted : Prop} {begun : InventoryDb} {ops : List StockOp} {e : SagaEvent}
  {o : Order}

/-- A commit that changes neither side. -/
theorem balanced_zero (hf : Facts s) {r : InventoryRequest}
    (hrow : ∀ p row, s.inventory.db.stock.get p = some row →
      (stockRows.run ops row).reservedStock = row.reservedStock)
    (hheld : ∀ p, heldStock s' p = heldStock s p) : Balanced s s' r ops fun _ => 0 where
  row p row hget := by rw [hrow p row hget, Int.add_zero]
  absent _ _ := rfl
  held p := by rw [hheld, Int.add_zero]
  own _ _ _ o ho _ p := heldBy_nonneg (hf.positive o ho) p

/-- A reservation of an order that holds nothing. -/
theorem balanced_reserved {session : InventoryService.Session}
    (hreal : Versioned.Realizes s.inventory.db.stock session (reserveOps (lines e.payload.items)))
    (htype : e.eventType = .orderCreatedEvent) (ho : o ∈ s.order.db.orders.rows)
    (hid : e.payload.orderId = some o.id) (hlines : lines e.payload.items = orderLines o)
    (hfree : holds s.inventory.db.outbox.rows o.id = false)
    (horder : s'.order.db = s.order.db)
    (hrows : s'.inventory.db.outbox.rows =
      s.inventory.db.outbox.rows ++ [InventoryService.reservedEvent tid e]) :
    Balanced s s' (.event e) (reserveOps (lines e.payload.items)) (demand (orderLines o)) where
  row p row hget := by
    have hkey : row.productId = p := Table.get_key hget
    rw [(InventoryService.run_reserveOps _ row).2, hkey, hlines]
  absent p hget := by
    rw [← hlines]
    refine demand_of_not_mem fun l hl heq => ?_
    have hop : StockOp.reserve l.1 l.2 ∈ reserveOps (lines e.payload.items) :=
      List.mem_map_of_mem hl
    exact InventoryService.row_of_covered hreal hop (heq ▸ hget)
  held p := by
    have hconcerns : Concerns .inventoryReservedEvent o.id (InventoryService.reservedEvent tid e) :=
      ⟨rfl, hid⟩
    have hafter : holds (s.inventory.db.outbox.rows ++ [InventoryService.reservedEvent tid e])
        o.id = true := by rw [holds_append, if_pos hconcerns]
    rw [heldStock_append ho hid horder hrows, heldBy, heldBy, hafter, hfree]
    simp
  own e' he hrel _ _ _ _ := by
    cases he
    rcases hrel with h | h <;> rw [htype] at h <;> cases h

/-- A release of an order that holds its reservation, or of products of which nothing is
    reserved. -/
theorem balanced_released (hf : Facts s) (hcor : Corresponds s)
    (hsub : ops.Sublist (releaseOps (lines e.payload.items)))
    (hall : Stocked begun (lines e.payload.items) → ops = releaseOps (lines e.payload.items))
    (ho : o ∈ s.order.db.orders.rows) (hid : e.payload.orderId = some o.id)
    (hlines : lines e.payload.items = orderLines o) (hown : OwnRelease begun s.inventory.db e)
    (horder : s'.order.db = s.order.db)
    (hrows : s'.inventory.db.outbox.rows =
      s.inventory.db.outbox.rows ++ [InventoryService.releasedEvent tid e]) :
    ∃ d, Balanced s s' (.event e) ops d := by
  have hpos := orderLines_pos (hf.positive o ho)
  have hconcerns : Concerns .inventoryReleasedEvent o.id (InventoryService.releasedEvent tid e) :=
    ⟨rfl, hid⟩
  have hafter : holds (s.inventory.db.outbox.rows ++ [InventoryService.releasedEvent tid e])
      o.id = false := by
    rw [holds_append, if_neg (fun h => by cases h.1), if_pos hconcerns]
  have hheld := heldStock_append ho hid horder hrows
  have hcase := hown o.id hid
  cases hholds : holds s.inventory.db.outbox.rows o.id with
  | true =>
    rw [hholds, if_pos rfl] at hcase
    obtain rfl := hall hcase
    rw [hlines] at hsub ⊢
    have hby : ∀ p, heldBy s.inventory.db.outbox.rows o p = demand (orderLines o) p := by
      intro p
      rw [heldBy, hholds, if_pos rfl]
    refine ⟨fun p => - demand (orderLines o) p, fun p row hget => ?_, fun p hget => ?_,
      fun p => ?_, fun e' he _ o' ho' hid' p => ?_⟩
    · have hkey : row.productId = p := Table.get_key hget
      have hcovers := hcor.covers hf ho p
      rw [hby, reservedOf, hget] at hcovers
      subst hkey
      rw [InventoryService.run_releaseOps hpos hcovers]
      omega
    · have hcovers := hcor.covers hf ho p
      rw [hby, reservedOf, hget] at hcovers
      have hnonneg := demand_nonneg hpos p
      simp only [Option.map_none, Option.getD_none] at hcovers
      omega
    · rw [hheld, hby, heldBy, hafter]
      simp
    · cases he
      have hsame : o' = o := Table.row_eq_of_key ho' ho (Option.some.inj (hid'.symm.trans hid))
      rw [hsame, hby, Int.neg_neg]
  | false =>
    rw [hholds, if_neg Bool.false_ne_true] at hcase
    refine ⟨fun _ => 0, balanced_zero hf (fun p row hget => ?_) fun p => ?_⟩
    · have hkey : row.productId = p := Table.get_key hget
      refine run_release_of_zero hsub (hlines ▸ hpos) fun hmem => ?_
      obtain ⟨l, hl, hl'⟩ := List.mem_map.mp hmem
      exact hcase l hl row (by rw [hl', hkey, hget]; rfl)
    · rw [hheld, heldBy, heldBy, hafter, hholds]
      simp

/-- An order whose created event is being answered holds nothing. -/
theorem free_of_unanswered (hf : Facts s) (hch : Chained s) {m : InboxMessage}
    {inbox' : InboxRows} (he : Sent s e) (htype : e.eventType = .orderCreatedEvent)
    (hid : e.payload.orderId = some o.id) (hm : m.eventId = e.eventId)
    (hext : s.inventory.db.inbox.extend [m] = some inbox') :
    holds s.inventory.db.outbox.rows o.id = false := by
  obtain ⟨c, hrow, rfl⟩ := hf.createdRow he htype
  have hc : c ∈ ofTypes [.orderCreatedEvent] s.order.db.outbox.rows :=
    mem_ofTypes.mpr ⟨hrow, List.mem_singleton.mpr htype⟩
  refine holds_of_none fun r hr hconcerns => ?_
  have hanswer : r ∈ ofTypes answerTypes s.inventory.db.outbox.rows :=
    mem_ofTypes.mpr ⟨hr, hconcerns.1 ▸ List.mem_cons_self⟩
  exact hch.reserved.unanswered hf.onePerOrder hc hm hext r hanswer
    (hconcerns.2.trans hid.symm)

end Balance

/-- Every commit of the inventory service that meets the condition is balanced. -/
theorem inventory_balanced (hf : Facts s) (hch : Chained s) (hcor : Corresponds s) {tid : ℕ}
    {granted : Prop} {begun : InventoryDb} {r : InventoryRequest} {w : InventoryWrites}
    {ops : List StockOp} (haccount : InventoryService.Account tid granted begun r w ops)
    (hreal : Versioned.Realizes s.inventory.db.stock w.session ops)
    (hsent : ∀ e, r.event? = some e → Sent s e)
    (hcommit : s.inventory.db.commit w = some s'.inventory.db)
    (horder : s'.order.db = s.order.db) (hbatch : NoBatch r)
    (hgranted : ∀ e, r = .event e → Releases e → granted)
    (hown : ∀ e, r = .event e → Releases e → OwnRelease begun s.inventory.db e) :
    ∃ d, Balanced s s' r ops d := by
  obtain ⟨-, hout, hin⟩ := InventoryService.commit_eq_some hcommit
  have hrows := Table.rows_extend hout
  cases haccount with
  | @reserved e session htype hall =>
    have he := hsent e rfl
    obtain ⟨o, ho, hid, hitems⟩ := hf.orderOf he
    have hlines := (hitems (by rw [htype]; rfl)).1
    have hfree := free_of_unanswered (m := recordInbox e "inventory-consumer") hf hch he htype hid
      rfl hin
    exact ⟨_, balanced_reserved hreal htype ho hid hlines hfree horder hrows⟩
  | @refused e session reason done htype hdone =>
    obtain ⟨o, ho, hid, -⟩ := hf.orderOf (hsent e rfl)
    refine ⟨_, balanced_zero hf (fun p row _ => (InventoryService.run_undone _ row).2) fun p => ?_⟩
    have hreserved : ¬ Concerns .inventoryReservedEvent o.id
        (InventoryService.reserveFailedEvent tid e reason) := fun h => by cases h.1
    have hreleased : ¬ Concerns .inventoryReleasedEvent o.id
        (InventoryService.reserveFailedEvent tid e reason) := fun h => by cases h.1
    rw [heldStock_append ho hid horder hrows, heldBy, heldBy, holds_append, if_neg hreserved,
      if_neg hreleased, Int.sub_self, Int.add_zero]
  | @released e session ops htype hsub hall =>
    obtain ⟨o, ho, hid, hitems⟩ := hf.orderOf (hsent e rfl)
    have hcarries : carriesItems e.eventType = true := by
      rcases htype with h | h <;> rw [h] <;> rfl
    exact balanced_released hf hcor hsub hall ho hid (hitems hcarries).1 (hown e rfl htype) horder
      hrows
  | @interrupted e session ops htype hsub hfail =>
    obtain ⟨o, ho, hid, hitems⟩ := hf.orderOf (hsent e rfl)
    have hcarries : carriesItems e.eventType = true := by
      rcases htype with h | h <;> rw [h] <;> rfl
    exact absurd ⟨hgranted e rfl htype, (hitems hcarries).2⟩ hfail
  | @restocked p payload session =>
    refine ⟨_, balanced_zero hf (fun p' row _ => ?_)
      (heldStock_same horder (hrows.trans (List.append_nil _)))⟩
    by_cases hp : p = row.productId
    · rw [Versioned.run_cons, Versioned.run_nil,
        InventoryService.apply_of_eq (o := StockOp.restock p payload.quantity) hp]
      rfl
    · rw [Versioned.run_cons, Versioned.run_nil,
        InventoryService.apply_of_ne (o := StockOp.restock p payload.quantity) hp]
  | created =>
    exact ⟨_, balanced_zero hf (fun _ _ _ => rfl)
      (heldStock_same horder (hrows.trans (List.append_nil _)))⟩
  | @batch items session => exact absurd rfl (hbatch items)

/-- Orders are added without a reservation, and their updates leave their items. -/
theorem heldStock_order (hf : Facts s) {w : OrderService.OrderWrites}
    (hcommit : s.order.db.commit w = some s'.order.db)
    (hinventory : s'.inventory.db = s.inventory.db) (p : ℕ) : heldStock s' p = heldStock s p := by
  obtain ⟨g, hg, hrows⟩ := OrderService.rows_commit hcommit
  have hsame : ∀ rows o, heldBy rows (g o) p = heldBy rows o p := by
    intro rows o
    obtain ⟨st, hst⟩ := hg o
    rw [hst]
    rfl
  have hnew : ∀ o, w.created = some o → heldBy s.inventory.db.outbox.rows o p = 0 := by
    intro o ho
    refine if_neg ?_
    rw [Bool.not_eq_true]
    refine holds_of_none fun row hrow hconcerns => ?_
    -- a row about the new order would be about an order of the table
    obtain ⟨o', ho', hid, -⟩ := hf.orderOf ⟨row, mem_rows.mpr (Or.inr (Or.inl hrow)), rfl⟩
    have hfresh := Table.get_eq_none_iff.mp (created_get hcommit ho).1
    rw [Option.some.inj (hconcerns.2.symm.trans hid)] at hfresh
    exact hfresh (List.mem_map_of_mem ho')
  unfold heldStock
  rw [hrows, hinventory, List.map_append, List.map_map, List.sum_append]
  have hmap : (fun o => heldBy s.inventory.db.outbox.rows o p) ∘ g =
      fun o => heldBy s.inventory.db.outbox.rows o p := by
    funext o
    exact hsame _ o
  rw [hmap]
  cases hw : w.created with
  | none => exact Int.add_zero _
  | some o => simp [hnew o hw]

/-- A balanced release returns no more than its order holds. -/
theorem returned_le {tid : ℕ} {granted : Prop} {begun : InventoryDb} {r : InventoryRequest}
    {w : InventoryWrites} {ops : List StockOp} {d : ℕ → Int}
    (haccount : InventoryService.Account tid granted begun r w ops)
    (hreal : Versioned.Realizes s.inventory.db.stock w.session ops)
    (hcommit : s.inventory.db.commit w = some s'.inventory.db) (hd : Balanced s s' r ops d)
    {e : SagaEvent} (hreq : r = .event e) (hrel : Releases e) {o : Order}
    (ho : o ∈ s.order.db.orders.rows) (hid : e.payload.orderId = some o.id) {p : ℕ}
    {row row' : Inventory} (hrow : s.inventory.db.stock.get p = some row)
    (hrow' : s'.inventory.db.stock.get p = some row') :
    row'.availableStock - row.availableStock ≤ heldBy s.inventory.db.outbox.rows o p := by
  obtain ⟨hrun, -⟩ := InventoryService.get_commit hcommit hreal hrow
  obtain rfl := Option.some.inj (hrow'.symm.trans hrun)
  have hbalance := hd.row p row hrow
  have hreturned := hd.own e hreq hrel o ho hid p
  have hkey : row.productId = p := Table.get_key hrow
  have hcreated : ∀ c, w.created = some c → c.productId ≠ row.productId := by
    intro c hc heq
    have hfresh := (InventoryService.created_fresh hcommit hreal hc).1
    rw [heq, hkey, hrow] at hfresh
    cases hfresh
  have htotal := InventoryService.account_total haccount hcreated
  rw [hreq] at htotal
  simp only [Inventory.total, InventoryService.restockedBy] at htotal
  omega

theorem corresponds_step (hs : Sound lockGood s) (hch : Chained s)
    (hbatch : s.inventory.Pending NoBatch) (hcor : Corresponds s) (hok : HeldReleases s l)
    (h : step simulatePayments s l = some s') : Corresponds s' ∧ ReturnsOwn s s' l := by
  have hf := hs.facts
  cases step_change hs.flight h with
  | quiet horder hinventory hpayment =>
    refine ⟨fun p => ?_, ?_⟩
    · rw [hinventory, hcor p, heldStock_same horder (by rw [hinventory])]
    · cases l with
      | inventory m =>
        cases m with
        | finish i =>
          intro a e _ _ _ o ho _ p row row' hrow hrow'
          rw [hinventory, hrow] at hrow'
          cases hrow'
          have hnonneg : 0 ≤ heldBy s.inventory.db.outbox.rows o p :=
            heldBy_nonneg (hf.positive o ho) p
          omega
        | advance i ω => trivial
        | crash i => trivial
      | _ => trivial
  | order hl ha hp haccount hsent hcommit hinventory hpayment =>
    subst hl
    exact ⟨fun p => by rw [hinventory, hcor p, heldStock_order hf hcommit hinventory],
      trivial⟩
  | payment hl ha hp haccount hsent hcommit horder hinventory =>
    subst hl
    refine ⟨fun p => ?_, trivial⟩
    rw [hinventory, hcor p, heldStock_same horder (by rw [hinventory])]
  | @inventory i a w hl ha hp haccounted hsent hcommit horder hpayment =>
    subst hl
    obtain ⟨ops, hreal, haccount⟩ := haccounted
    have hgranted : ∀ e, a.req = .event e → Releases e → Granted (lockGood a.toTicket) :=
      fun e hreq hrel db p ω hgood => hgood e hreq hrel p rfl
    have hown : ∀ e, a.req = .event e → Releases e → OwnRelease a.begun s.inventory.db e :=
      fun e hreq hrel => hok a ha e (by rw [hreq]; exact if_pos hrel) w (by rw [hp]; rfl)
        (by rw [hcommit]; rfl)
    obtain ⟨d, hd⟩ := inventory_balanced hf hch hcor haccount hreal hsent hcommit horder
      (hbatch a (List.mem_of_getElem? ha)) hgranted hown
    refine ⟨fun p => ?_, ?_⟩
    · rw [reservedOf_commit haccount hreal hcommit hd.row hd.absent, hcor p, hd.held]
    · intro a' e ha' hreq hrel o ho hid p row row' hrow hrow'
      obtain rfl := Option.some.inj (ha.symm.trans ha')
      exact returned_le haccount hreal hcommit hd hreq hrel ho hid hrow hrow'

/-- The requests in flight stay no batches. -/
theorem noBatch_step (hbatch : s.inventory.Pending NoBatch) (hok : HeldReleases s l)
    (h : step simulatePayments s l = some s') : s'.inventory.Pending NoBatch := by
  cases l with
  | reserveBatch items => exact absurd hok id
  | restock p payload => cases h; exact pending_start hbatch nofun
  | inventory m =>
    obtain ⟨inventory, hm, rfl⟩ := Option.map_eq_some_iff.mp h
    exact pending_move hbatch hm
  | deliver svc n =>
    obtain ⟨r, -, h⟩ := Option.bind_eq_some_iff.mp h
    obtain ⟨-, h⟩ := Option.ite_none_right_eq_some.mp h
    obtain rfl := Option.some.inj h
    cases svc with
    | inventory => exact pending_start hbatch nofun
    | _ => exact hbatch
  | publish svc n => obtain ⟨r, -, rfl⟩ := Option.map_eq_some_iff.mp h; exact hbatch
  | checkout c => cases h; exact hbatch
  | sweep cutoff limit => cases h; exact hbatch
  | order m => obtain ⟨_, -, rfl⟩ := Option.map_eq_some_iff.mp h; exact hbatch
  | payment m => obtain ⟨_, -, rfl⟩ := Option.map_eq_some_iff.mp h; exact hbatch
  | notification m => obtain ⟨_, -, rfl⟩ := Option.map_eq_some_iff.mp h; exact hbatch

/-- What holds in every state of a run that meets the condition. -/
structure Reserving (s : System) : Prop where
  sound : Sound lockGood s
  chained : Chained s
  noBatch : s.inventory.Pending NoBatch
  corresponds : Corresponds s

theorem reserving_init {stock : InventoryService.Stock}
    (hstock : ∀ row ∈ stock.rows, row.reservedStock = 0) : Reserving (System.init stock) := by
  refine ⟨sound_init stock, chained_init stock, pending_init _ _, fun p => ?_⟩
  show ((stock.get p).map (·.reservedStock)).getD 0 = 0
  cases hget : stock.get p with
  | none => rfl
  | some row => exact hstock row (Table.mem_of_get hget)

theorem reserving_step (h : Reserving s) (hok : HeldReleases s l)
    (hstep : step simulatePayments s l = some s') : Reserving s' where
  sound := sound_step h.sound (goodStep_lock hok) hstep
  chained := chained_step h.sound.facts h.chained (step_change h.sound.flight hstep)
  noBatch := noBatch_step h.noBatch hok hstep
  corresponds := (corresponds_step h.sound h.chained h.noBatch h.corresponds hok hstep).1

/-- In every state of every run that meets the condition, the reserved stock of each product is
    what the orders that hold a reservation ordered of it, and a release returns at most what its
    order holds. -/
theorem reserved_corresponds {stock : InventoryService.Stock} {ls : List SystemLabel}
    (hstock : ∀ row ∈ stock.rows, row.reservedStock = 0)
    (h : Reaches (step simulatePayments) HeldReleases (System.init stock) ls s) :
    Corresponds s ∧ ∀ l s', HeldReleases s l → step simulatePayments s l = some s' →
      ReturnsOwn s s' l := by
  have hinv : Reserving s := h.invariant Reserving (reserving_init hstock) fun _ _ _ hs hok hstep =>
    reserving_step hs hok hstep
  exact ⟨hinv.corresponds, fun l s' hok hstep =>
    (corresponds_step hinv.sound hinv.chained hinv.noBatch hinv.corresponds hok hstep).2⟩

instance (db : InventoryDb) (ls : List (ℕ × Int)) : Decidable (Stocked db ls) :=
  inferInstanceAs (Decidable (∀ l ∈ ls, _))

instance (begun db : InventoryDb) (e : SagaEvent) : Decidable (OwnRelease begun db e) := by
  unfold OwnRelease
  infer_instance

instance (s : System) (l : SystemLabel) : Decidable (HeldReleases s l) := by
  unfold HeldReleases
  split <;> infer_instance

/-- An order holds its reservation when the sweeper cancels it. -/
def releasedOrder : List SystemLabel :=
  .checkout (checkoutOf "checkout-a" checkout_a_length 2 (by decide) 0) :: runOrder 1 ++
    .publish .order 0 :: .deliver .inventory 0 :: runInventory 3 ++
    .sweep 5 100 :: runOrder 1 ++ .publish .order 1 :: .deliver .inventory 1 :: runInventory 3

/-- Its stock is available again, and nothing is reserved. -/
theorem reserved_corresponds_released : ∃ s,
    Reaches (step true) HeldReleases (System.init (oneProduct 3)) releasedOrder s ∧
      Corresponds s ∧ (s.inventory.db.stock.get 0).map (·.availableStock) = some 3 := by
  have hstock : ∀ row ∈ (oneProduct 3).rows, row.reservedStock = 0 := by decide
  obtain ⟨s, hrun, havailable⟩ : ∃ s,
      Reaches (step true) HeldReleases (System.init (oneProduct 3)) releasedOrder s ∧
        (s.inventory.db.stock.get 0).map (·.availableStock) = some 3 :=
    reaches_where (by decide +kernel) (by decide +kernel)
  exact ⟨s, hrun, (reserved_corresponds hstock hrun).1, havailable⟩

/-- The first order asks for more than there is and is refused, the second is reserved; then the
    sweeper cancels the first, which is still PENDING. -/
def cancelledRefused : List SystemLabel :=
  .checkout (checkoutOf "checkout-a" checkout_a_length 2 (by decide) 0) :: runOrder 1 ++
    .checkout (checkoutOf "checkout-b" (by decide) 1 Int.one_pos 10) :: runOrder 1 ++
    .publish .order 0 :: .deliver .inventory 0 :: runInventory 3 ++
    .publish .order 1 :: .deliver .inventory 1 :: runInventory 3 ++
    .sweep 5 100 :: runOrder 1 ++ .publish .order 2 :: .deliver .inventory 2 :: runInventory 3

/-- The release of the refused order takes the stock that the second order holds. -/
theorem cancelled_order_takes_stock : ∃ s,
    Reaches (step true) InOrder (System.init (oneProduct 1)) cancelledRefused s ∧
      holds s.inventory.db.outbox.rows (.drawn .order 0 0) = false ∧
      holds s.inventory.db.outbox.rows (.drawn .order 1 0) = true ∧
      heldStock s 0 = 1 ∧ reservedOf s.inventory.db 0 = 0 ∧ ¬ Corresponds s := by
  obtain ⟨s, hrun, hfirst, hsecond, hheld, hreserved⟩ : ∃ s,
      Reaches (step true) InOrder (System.init (oneProduct 1)) cancelledRefused s ∧
        holds s.inventory.db.outbox.rows (.drawn .order 0 0) = false ∧
        holds s.inventory.db.outbox.rows (.drawn .order 1 0) = true ∧
        heldStock s 0 = 1 ∧ reservedOf s.inventory.db 0 = 0 :=
    reaches_where (by decide +kernel) (by decide +kernel)
  refine ⟨s, hrun, hfirst, hsecond, hheld, hreserved, fun h => ?_⟩
  have hzero : reservedOf s.inventory.db 0 = heldStock s 0 := h 0
  omega

end CloudScale.Saga
