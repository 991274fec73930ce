/-
  What is in flight in the saga, and what a step commits.

  `Flight`: every transaction in flight leaves writes that are accounted for, every event in flight
  was sent by a service, every published row is a committed outbox row; it is kept by every step
  (`flight_step`). `Change` is the one description of what a step does to the databases
  (`step_change`): nothing, or one commit of one service with its account. The invariants of the
  committed states are derived from it.
-/
import CloudScale.Saga.System

namespace CloudScale.Saga

open CloudScale.Lib CloudScale.Shared
open OrderService (OrderDb OrderEnv OrderRequest OrderWrites Order Persist Known)
open InventoryService (InventoryDb InventoryQuery InventoryEnv InventoryRequest InventoryWrites
  Granted lines Complete)
open PaymentService (PaymentDb PaymentWrites)

/-- The event is the event of a committed outbox row. -/
def Sent (s : System) (e : SagaEvent) : Prop := ∃ r ∈ s.rows, r.event = e

/-- What may be assumed of the answers of Redis and the database to the inventory service. -/
abbrev InventoryGood := Ticket InventoryDb InventoryRequest → InventoryDb → InventoryQuery →
  InventoryEnv → Prop

/-! ## Growth -/

/-- Rows of the outboxes and inboxes stay, and orders change only their status. -/
structure Grows (s s' : System) : Prop where
  orders : Persist s.order.db s'.order.db
  orderRows : ∀ r ∈ s.order.db.outbox.rows, r ∈ s'.order.db.outbox.rows
  inventoryRows : ∀ r ∈ s.inventory.db.outbox.rows, r ∈ s'.inventory.db.outbox.rows
  paymentRows : ∀ r ∈ s.payment.db.outbox.rows, r ∈ s'.payment.db.outbox.rows
  orderInbox : ∀ m ∈ s.order.db.inbox.rows, m ∈ s'.order.db.inbox.rows
  inventoryInbox : ∀ m ∈ s.inventory.db.inbox.rows, m ∈ s'.inventory.db.inbox.rows
  paymentInbox : ∀ m ∈ s.payment.db.inbox.rows, m ∈ s'.payment.db.inbox.rows

theorem Grows.refl (s : System) : Grows s s :=
  ⟨Persist.refl _, fun _ h => h, fun _ h => h, fun _ h => h, fun _ h => h, fun _ h => h,
    fun _ h => h⟩

theorem Grows.rows {s s' : System} (h : Grows s s') : ∀ r ∈ s.rows, r ∈ s'.rows := by
  intro r hr
  rw [mem_rows] at hr ⊢
  rcases hr with hr | hr | hr
  · exact Or.inl (h.orderRows r hr)
  · exact Or.inr (Or.inl (h.inventoryRows r hr))
  · exact Or.inr (Or.inr (h.paymentRows r hr))

theorem Grows.sent {s s' : System} (h : Grows s s') {e : SagaEvent} (he : Sent s e) :
    Sent s' e := by
  obtain ⟨r, hr, rfl⟩ := he
  exact ⟨r, h.rows r hr, rfl⟩

theorem Grows.trans {s t u : System} (h : Grows s t) (h' : Grows t u) : Grows s u where
  orders := h.orders.trans h'.orders
  orderRows r hr := h'.orderRows r (h.orderRows r hr)
  inventoryRows r hr := h'.inventoryRows r (h.inventoryRows r hr)
  paymentRows r hr := h'.paymentRows r (h.paymentRows r hr)
  orderInbox m hm := h'.orderInbox m (h.orderInbox m hm)
  inventoryInbox m hm := h'.inventoryInbox m (h.inventoryInbox m hm)
  paymentInbox m hm := h'.paymentInbox m (h.paymentInbox m hm)

/-- Old rows of an extended table stay. -/
theorem mem_extend {κ ρ : Type} [DecidableEq κ] {key : ρ → κ} {t t' : Table κ ρ key} {rs : List ρ}
    (h : t.extend rs = some t') : ∀ r ∈ t.rows, r ∈ t'.rows := by
  intro r hr
  rw [Table.rows_extend h]
  exact List.mem_append_left _ hr

/-! ## Flight -/

/-- What holds of the transactions and messages in flight, when the events in `sent` were sent. -/
structure Flight (good : InventoryGood) (sent : SagaEvent → Prop) (s : System) : Prop where
  order : s.order.AllSafe (OrderService.answers id) Persist (fun _ _ _ _ => True)
    (fun tk t o => OrderService.AccountedOutcome tk.tid t tk.req o) s.order.db
  inventory : s.inventory.AllSafe InventoryDb.answer InventoryService.Later good
    (fun tk t o => InventoryService.AccountedOutcome tk.tid (Granted (good tk)) tk.begun tk.req t o)
    s.inventory.db
  payment : s.payment.AllSafe (fun _ : Unit => PaymentDb.answer) (fun _ _ => True)
    (fun _ _ _ _ => True) (fun tk _ o => PaymentService.AccountedOutcome tk.tid tk.req o)
    s.payment.db
  notification : s.notification.AllAsk NotificationService.Confirms
  orderSent : s.order.Pending fun r => ∀ e, r.event? = some e → sent e
  inventorySent : s.inventory.Pending fun r => ∀ e, r.event? = some e → sent e
  paymentSent : s.payment.Pending sent
  notificationSent : s.notification.Pending sent
  published : ∀ r ∈ s.published, sent r.event
  dispatched : ∀ c ∈ s.notification.world, ∃ e, sent e ∧ e.eventType = .paymentSuccessEvent ∧
    c.orderId = e.payload.orderId

theorem Flight.mono {good : InventoryGood} {sent sent' : SagaEvent → Prop} {s : System}
    (h : Flight good sent s) (hsent : ∀ e, sent e → sent' e) : Flight good sent' s :=
  { h with
    orderSent := h.orderSent.imp fun _ hr e he => hsent e (hr e he)
    inventorySent := h.inventorySent.imp fun _ hr e he => hsent e (hr e he)
    paymentSent := h.paymentSent.imp hsent
    notificationSent := h.notificationSent.imp hsent
    published := fun r hr => hsent _ (h.published r hr)
    dispatched := fun c hc => by
      obtain ⟨e, he, hrest⟩ := h.dispatched c hc
      exact ⟨e, hsent e he, hrest⟩ }

/-! ## Commits -/

/-- What a step does to the databases: nothing, or one commit. -/
inductive Change (good : InventoryGood) (s : System) (l : SystemLabel) (s' : System) : Prop where
  | quiet (horder : s'.order.db = s.order.db) (hinventory : s'.inventory.db = s.inventory.db)
      (hpayment : s'.payment.db = s.payment.db)
  | order {i : ℕ} {a : _} {w : OrderWrites} (hl : l = .order (.finish i))
      (ha : s.order.active[i]? = some a) (hp : a.prog = .done (.handled w))
      (haccount : OrderService.Account a.tid s.order.db a.req w)
      (hsent : ∀ e, a.req.event? = some e → Sent s e)
      (hcommit : s.order.db.commit w = some s'.order.db)
      (hinventory : s'.inventory.db = s.inventory.db) (hpayment : s'.payment.db = s.payment.db)
  | inventory {i : ℕ} {a : _} {w : InventoryWrites} (hl : l = .inventory (.finish i))
      (ha : s.inventory.active[i]? = some a) (hp : a.prog = .done (.handled w))
      (haccount : InventoryService.Accounted a.tid (Granted (good a.toTicket)) a.begun a.req
        s.inventory.db w)
      (hsent : ∀ e, a.req.event? = some e → Sent s e)
      (hcommit : s.inventory.db.commit w = some s'.inventory.db)
      (horder : s'.order.db = s.order.db) (hpayment : s'.payment.db = s.payment.db)
  | payment {i : ℕ} {a : _} {w : PaymentWrites} (hl : l = .payment (.finish i))
      (ha : s.payment.active[i]? = some a) (hp : a.prog = .done (.handled w))
      (haccount : PaymentService.Account a.tid a.req w) (hsent : Sent s a.req)
      (hcommit : s.payment.db.commit w = some s'.payment.db)
      (horder : s'.order.db = s.order.db) (hinventory : s'.inventory.db = s.inventory.db)

variable {simulatePayments : Bool} {good : InventoryGood} {s s' : System} {l : SystemLabel}

theorem change_order {m : Move OrderEnv} (hf : Flight good (Sent s) s)
    (h : step simulatePayments s (.order m) = some s') : Change good s (.order m) s' := by
  obtain ⟨order, hm, rfl⟩ := Option.map_eq_some_iff.mp h
  rcases Service.move_db hm with hdb | ⟨i, a, o, rfl, ha, hp, hc⟩
  · exact .quiet hdb rfl rfl
  · have hmem := List.mem_of_getElem? ha
    cases o with
    | handled w =>
      exact .order rfl ha hp (allSafe_result hf.order hmem hp (Persist.refl _))
        (hf.orderSent a hmem) hc rfl rfl
    | skipped => exact .quiet (Option.some.inj hc).symm rfl rfl
    | ignored => exact .quiet (Option.some.inj hc).symm rfl rfl

theorem change_inventory {m : Move InventoryEnv} (hf : Flight good (Sent s) s)
    (h : step simulatePayments s (.inventory m) = some s') :
    Change good s (.inventory m) s' := by
  obtain ⟨inventory, hm, rfl⟩ := Option.map_eq_some_iff.mp h
  rcases Service.move_db hm with hdb | ⟨i, a, o, rfl, ha, hp, hc⟩
  · exact .quiet rfl hdb rfl
  · have hmem := List.mem_of_getElem? ha
    cases o with
    | handled w =>
      exact .inventory rfl ha hp
        (allSafe_result hf.inventory hmem hp (InventoryService.Later.refl _))
        (hf.inventorySent a hmem) hc rfl rfl
    | skipped => exact .quiet rfl (Option.some.inj hc).symm rfl
    | ignored => exact .quiet rfl (Option.some.inj hc).symm rfl

theorem change_payment {m : Move Unit} (hf : Flight good (Sent s) s)
    (h : step simulatePayments s (.payment m) = some s') : Change good s (.payment m) s' := by
  obtain ⟨payment, hm, rfl⟩ := Option.map_eq_some_iff.mp h
  rcases Service.move_db hm with hdb | ⟨i, a, o, rfl, ha, hp, hc⟩
  · exact .quiet rfl rfl hdb
  · have hmem := List.mem_of_getElem? ha
    cases o with
    | handled w =>
      exact .payment rfl ha hp (allSafe_result hf.payment hmem hp trivial)
        (hf.paymentSent a hmem) hc rfl rfl
    | skipped => exact .quiet rfl rfl (Option.some.inj hc).symm
    | ignored => exact .quiet rfl rfl (Option.some.inj hc).symm

/-- Every step commits at most one transaction, and its writes are accounted for. -/
theorem step_change (hf : Flight good (Sent s) s) (h : step simulatePayments s l = some s') :
    Change good s l s' := by
  cases l with
  | order m => exact change_order hf h
  | inventory m => exact change_inventory hf h
  | payment m => exact change_payment hf h
  | notification m =>
    obtain ⟨notification, -, rfl⟩ := Option.map_eq_some_iff.mp h
    exact .quiet rfl rfl rfl
  | publish svc n =>
    obtain ⟨r, -, rfl⟩ := Option.map_eq_some_iff.mp h
    exact .quiet rfl rfl rfl
  | deliver svc n =>
    obtain ⟨r, -, h⟩ := Option.bind_eq_some_iff.mp h
    obtain ⟨-, h⟩ := Option.ite_none_right_eq_some.mp h
    obtain rfl := Option.some.inj h
    cases svc <;> exact .quiet rfl rfl rfl
  | checkout c => cases h; exact .quiet rfl rfl rfl
  | sweep cutoff limit => cases h; exact .quiet rfl rfl rfl
  | restock p payload => cases h; exact .quiet rfl rfl rfl
  | reserveBatch items => cases h; exact .quiet rfl rfl rfl

theorem Change.grows (h : Change good s l s') : Grows s s' := by
  cases h with
  | quiet horder hinventory hpayment =>
    exact ⟨horder ▸ Persist.refl _, fun r hr => horder ▸ hr, fun r hr => hinventory ▸ hr,
      fun r hr => hpayment ▸ hr, fun m hm => horder ▸ hm, fun m hm => hinventory ▸ hm,
      fun m hm => hpayment ▸ hm⟩
  | order hl ha hp haccount hsent hcommit hinventory hpayment =>
    obtain ⟨-, hout, hin⟩ := OrderService.commit_eq_some hcommit
    exact ⟨OrderService.commit_persist hcommit, mem_extend hout, fun r hr => hinventory ▸ hr,
      fun r hr => hpayment ▸ hr, mem_extend hin, fun m hm => hinventory ▸ hm,
      fun m hm => hpayment ▸ hm⟩
  | inventory hl ha hp haccount hsent hcommit horder hpayment =>
    obtain ⟨-, hout, hin⟩ := InventoryService.commit_eq_some hcommit
    exact ⟨horder ▸ Persist.refl _, fun r hr => horder ▸ hr, mem_extend hout,
      fun r hr => hpayment ▸ hr, fun m hm => horder ▸ hm, mem_extend hin,
      fun m hm => hpayment ▸ hm⟩
  | payment hl ha hp haccount hsent hcommit horder hinventory =>
    obtain ⟨-, hout, hin⟩ := PaymentService.commit_eq_some hcommit
    exact ⟨horder ▸ Persist.refl _, fun r hr => horder ▸ hr, fun r hr => hinventory ▸ hr,
      mem_extend hout, fun m hm => horder ▸ hm, fun m hm => hinventory ▸ hm, mem_extend hin⟩

/-! ## The next step's flight -/

/-- What the inventory service is told by Redis and the database in a step is good. -/
def GoodStep (good : InventoryGood) (s : System) : SystemLabel → Prop
  | .inventory m => GoodMove good s.inventory s.inventory.db m
  | _ => True

variable {sent : SagaEvent → Prop}

theorem flight_deliver (hf : Flight good sent s) {e : SagaEvent} (he : sent e)
    (svc : ServiceName) : Flight good sent (s.deliver simulatePayments e svc) := by
  have hevent : ∀ e', some e = some e' → sent e' := fun e' h => Option.some.inj h ▸ he
  cases svc with
  | order =>
    exact { hf with
      order := OrderService.order_guarantees.startSafe _ hf.order
      orderSent := pending_start hf.orderSent hevent }
  | inventory =>
    exact { hf with
      inventory := (InventoryService.inventory_guarantees good).startSafe _ hf.inventory
      inventorySent := pending_start hf.inventorySent hevent }
  | payment =>
    exact { hf with
      payment := (PaymentService.payment_guarantees simulatePayments).startSafe _ hf.payment
      paymentSent := pending_start hf.paymentSent he }
  | notification =>
    exact { hf with
      notification := allAsk_start hf.notification
        (NotificationService.program_confirms s.notification.next e)
      notificationSent := pending_start hf.notificationSent he }

/-- Requests that are not events start. -/
theorem flight_request (hf : Flight good sent s) :
    (∀ r : OrderRequest, r.event? = none →
      Flight good sent { s with order := OrderService.service.start s.order r }) ∧
    ∀ r : InventoryRequest, r.event? = none →
      Flight good sent { s with inventory := InventoryService.service.start s.inventory r } := by
  constructor
  · intro r hr
    exact { hf with
      order := OrderService.order_guarantees.startSafe _ hf.order
      orderSent := pending_start hf.orderSent fun e he => by rw [hr] at he; cases he }
  · intro r hr
    exact { hf with
      inventory := (InventoryService.inventory_guarantees good).startSafe _ hf.inventory
      inventorySent := pending_start hf.inventorySent fun e he => by rw [hr] at he; cases he }

theorem flight_step (hf : Flight good (Sent s) s) (hgood : GoodStep good s l)
    (h : step simulatePayments s l = some s') : Flight good (Sent s') s' := by
  have hgrows : Grows s s' := (step_change hf h).grows
  have hmono : Flight good (Sent s') s := hf.mono fun _ => hgrows.sent
  cases l with
  | checkout c => cases h; exact (flight_request hmono).1 _ rfl
  | sweep cutoff limit => cases h; exact (flight_request hmono).1 _ rfl
  | restock p payload => cases h; exact (flight_request hmono).2 _ rfl
  | reserveBatch items => cases h; exact (flight_request hmono).2 _ rfl
  | publish svc n =>
    obtain ⟨r, hr, rfl⟩ := Option.map_eq_some_iff.mp h
    refine { hmono with published := fun r' hr' => ?_ }
    rcases List.mem_append.mp hr' with hr' | hr'
    · exact hmono.published r' hr'
    · obtain rfl := List.mem_singleton.mp hr'
      have hmem := List.mem_of_getElem? hr
      refine ⟨r', mem_rows.mpr ?_, rfl⟩
      cases svc with
      | order => exact Or.inl hmem
      | inventory => exact Or.inr (Or.inl hmem)
      | payment => exact Or.inr (Or.inr hmem)
      | notification => exact absurd hmem List.not_mem_nil
  | deliver svc n =>
    obtain ⟨r, hr, h⟩ := Option.bind_eq_some_iff.mp h
    obtain ⟨-, h⟩ := Option.ite_none_right_eq_some.mp h
    obtain rfl := Option.some.inj h
    exact flight_deliver hmono (hmono.published r (List.mem_of_getElem? hr)) svc
  | order m =>
    obtain ⟨order, hm, rfl⟩ := Option.map_eq_some_iff.mp h
    exact { hmono with
      order := OrderService.order_guarantees.moveSafe hf.order hm
        (goodMove_of_forall (fun _ _ _ _ => trivial) m)
      orderSent := pending_move hmono.orderSent hm }
  | inventory m =>
    obtain ⟨inventory, hm, rfl⟩ := Option.map_eq_some_iff.mp h
    exact { hmono with
      inventory := (InventoryService.inventory_guarantees good).moveSafe hf.inventory hm hgood
      inventorySent := pending_move hmono.inventorySent hm }
  | payment m =>
    obtain ⟨payment, hm, rfl⟩ := Option.map_eq_some_iff.mp h
    exact { hmono with
      payment := (PaymentService.payment_guarantees simulatePayments).moveSafe hf.payment hm
        (goodMove_of_forall (fun _ _ _ _ => trivial) m)
      paymentSent := pending_move hmono.paymentSent hm }
  | notification m =>
    obtain ⟨notification, hm, rfl⟩ := Option.map_eq_some_iff.mp h
    refine { hmono with
      notification := allAsk_move hf.notification hm
      notificationSent := pending_move hmono.notificationSent hm
      dispatched := fun c hc => ?_ }
    rcases move_world hf.notification hm with hworld | ⟨a, ha, q, hask, hworld⟩
    · exact hmono.dispatched c (hworld ▸ hc)
    · rw [hworld] at hc
      cases q with
      | inbox id => exact hmono.dispatched c hc
      | dispatch c' =>
        rcases List.mem_append.mp hc with hc | hc
        · exact hmono.dispatched c hc
        · obtain rfl := List.mem_singleton.mp hc
          exact ⟨a.req, hmono.notificationSent a ha, hask⟩

theorem flight_init (stock : InventoryService.Stock) :
    Flight good (Sent (System.init stock)) (System.init stock) where
  order := allSafe_init _ _
  inventory := allSafe_init _ _
  payment := allSafe_init _ _
  notification := allAsk_init _ _
  orderSent := pending_init _ _
  inventorySent := pending_init _ _
  paymentSent := pending_init _ _
  notificationSent := pending_init _ _
  published _ h := absurd h List.not_mem_nil
  dispatched _ h := absurd h List.not_mem_nil

end CloudScale.Saga
