/-
  What the committed rows of the saga say about each other.

  `Facts`: every outbox row was sent by its service (`SentBy`), is about an existing order and, if
  it lists items, lists those of the order (`Faithful`); each order has its own created event, each
  payment its own success event; what the order service has processed was sent. `facts_step`: every
  commit keeps this, and with it every run (`sound_reaches`).
-/
import CloudScale.Saga.Messages

namespace CloudScale.Saga

open CloudScale.Lib CloudScale.Shared
open OrderService (OrderDb OrderEnv OrderRequest OrderWrites Order Persist Known)
open InventoryService (InventoryDb InventoryQuery InventoryEnv InventoryRequest InventoryWrites
  Granted lines Complete)
open PaymentService (PaymentDb PaymentWrites)

/-! ## Rows -/

/-- A row of a service's outbox: the service drew its id, and its topic and type are among those the
    service writes. -/
structure SentBy (svc : ServiceName) (topic : Topic) (types : List EventType) (r : OutboxRow) :
    Prop where
  drawn : ∃ t n, r.eventId = .drawn svc t n
  topic : r.topic = topic
  type : r.event.eventType ∈ types

/-- The products and quantities of an order. -/
def orderLines (o : Order) : List (ℕ × Int) := o.items.map fun i => (i.productId, i.quantity)

/-- The event types whose payload lists the items of the order. -/
def carriesItems : EventType → Bool
  | .orderCreatedEvent | .orderCancelledEvent | .inventoryReservedEvent | .paymentSuccessEvent
  | .paymentFailedEvent => true
  | _ => false

/-- The event is about an existing order and lists its items. -/
def Faithful (db : OrderDb) (e : SagaEvent) : Prop :=
  ∃ o, Known db o ∧ e.payload.orderId = some o.id ∧ (carriesItems e.eventType = true →
    lines e.payload.items = orderLines o ∧ Complete e.payload.items)

/-- The created event of a transaction of the order service, about the order it creates. -/
def CreatedRow (r : OutboxRow) : Prop :=
  r.event.eventType = .orderCreatedEvent →
    ∃ t, r.eventId = .drawn .order t 1 ∧ r.event.payload.orderId = some (.drawn .order t 0)

structure Facts (s : System) : Prop where
  orderRows : ∀ r ∈ s.order.db.outbox.rows,
    SentBy .order .orderEvents [.orderCreatedEvent, .orderCancelledEvent] r ∧ CreatedRow r
  inventoryRows : ∀ r ∈ s.inventory.db.outbox.rows, SentBy .inventory .inventoryEvents
    [.inventoryReservedEvent, .inventoryReserveFailedEvent, .inventoryReleasedEvent] r
  paymentRows : ∀ r ∈ s.payment.db.outbox.rows,
    SentBy .payment .paymentEvents [.paymentSuccessEvent, .paymentFailedEvent] r
  faithful : ∀ r ∈ s.rows, Faithful s.order.db r.event
  positive : ∀ o ∈ s.order.db.orders.rows, ∀ i ∈ o.items, 0 < i.quantity
  payments : ∀ p ∈ s.payment.db.payments.rows, ∃ t, p.id = .drawn .payment t 2 ∧
    ∃ r ∈ s.payment.db.outbox.rows, r.eventId = .drawn .payment t 0 ∧
      Concerns .paymentSuccessEvent p.orderId r
  processed : ∀ m ∈ s.order.db.inbox.rows, ∃ r ∈ s.rows, r.eventId = m.eventId

theorem Faithful.mono {db db' : OrderDb} {e : SagaEvent} (h : Faithful db e)
    (hp : Persist db db') : Faithful db' e := by
  obtain ⟨o, ho, hrest⟩ := h
  exact ⟨o, ho.mono hp, hrest⟩

theorem lines_itemsToRelease (o : Order) :
    lines (OrderService.itemsToRelease o) = orderLines o := by
  unfold lines OrderService.itemsToRelease orderLines
  rw [List.filterMap_map]
  exact congrFun List.filterMap_eq_map o.items

theorem complete_itemsToRelease (o : Order) : Complete (OrderService.itemsToRelease o) := by
  intro i hi
  obtain ⟨item, -, rfl⟩ := List.mem_map.mp hi
  exact Option.some_ne_none _

/-! ## What a commit adds -/

section Added

variable {tid : ℕ} {db db' : OrderDb} {r : OrderRequest} {w : OrderWrites}

theorem created_get {o : Order} (hc : db.commit w = some db') (hw : w.created = some o) :
    db.orders.get o.id = none ∧ db'.orders.get o.id = some o := by
  obtain ⟨hext, -, -⟩ := OrderService.commit_eq_some hc
  rw [hw] at hext
  have hmem : o ∈ db'.orders.rows := by
    rw [Table.rows_extend hext]
    exact List.mem_append_right _ (List.mem_singleton_self o)
  refine ⟨?_, Table.get_of_mem hmem⟩
  cases hget : db.orders.get o.id with
  | none => rfl
  | some o' =>
    obtain ⟨s, hs⟩ : ∃ s, (OrderService.runUpdates db.orders w.updates).get o.id =
        some (o'.withStatus s) := OrderService.get_runUpdates hget
    have hkey := Table.key_not_mem_of_extend hext (List.mem_singleton_self o)
    exact absurd hs (by rw [Table.get_eq_none_iff.mpr hkey]; exact nofun)

theorem faithful_cancellation {o : Order} {e : SagaEvent} (ho : Known db o)
    (horder : e.payload.orderId = some o.id)
    (hitems : e.payload.items = OrderService.itemsToRelease o) : Faithful db e := by
  refine ⟨o, ho, horder, fun _ => ?_⟩
  rw [hitems]
  exact ⟨lines_itemsToRelease o, complete_itemsToRelease o⟩

/-- The rows a transaction of the order service adds to its outbox. -/
theorem order_outbox (h : OrderService.Account tid db r w) (hc : db.commit w = some db') :
    ∀ row ∈ w.outbox,
      (SentBy .order .orderEvents [.orderCreatedEvent, .orderCancelledEvent] row ∧
        CreatedRow row) ∧ Faithful db' row.event := by
  have hp := OrderService.commit_persist hc
  cases h with
  | @placed c =>
    intro row hrow
    obtain rfl := List.mem_singleton.mp hrow
    refine ⟨⟨⟨⟨tid, 1, rfl⟩, rfl, List.mem_cons_self⟩, fun _ => ⟨tid, rfl, rfl⟩⟩, ?_⟩
    refine ⟨OrderService.newOrder tid c, OrderService.known_of_get (created_get hc rfl).2, rfl,
      fun _ => ⟨?_, fun i hi => ?_⟩⟩
    · show List.filterMap _ (List.map _ _) = List.map _ (List.map _ _)
      rw [List.filterMap_map, List.map_map]
      exact congrFun List.filterMap_eq_map c.payload.items
    · obtain ⟨item, -, rfl⟩ := List.mem_map.mp hi
      exact Option.some_ne_none _
  | swept hnodup hknown hopen =>
    intro row hrow
    obtain ⟨i, hi, rfl⟩ := List.mem_mapIdx.mp hrow
    refine ⟨⟨⟨⟨tid, 2 * i, rfl⟩, rfl, List.mem_cons_of_mem _ List.mem_cons_self⟩, nofun⟩, ?_⟩
    exact faithful_cancellation ((hknown _ (List.getElem_mem hi)).mono hp) rfl rfl
  | cancelled htype hknown horder hstatus =>
    intro row hrow
    obtain rfl := List.mem_singleton.mp hrow
    refine ⟨⟨⟨⟨tid, 0, rfl⟩, rfl, List.mem_cons_of_mem _ List.mem_cons_self⟩, nofun⟩, ?_⟩
    exact faithful_cancellation (hknown.mono hp) rfl rfl
  | _ => exact fun _ h => absurd h List.not_mem_nil

/-- The inbox row a transaction of the order service adds is that of the event it handles. -/
theorem order_inbox (h : OrderService.Account tid db r w) {m : InboxMessage}
    (hm : w.inbox = some m) : ∃ e, r.event? = some e ∧ m.eventId = e.eventId := by
  cases h with
  | existing => cases hm
  | placed => cases hm
  | swept => cases hm
  | @unmoved e _ => cases hm; exact ⟨e, rfl, rfl⟩
  | @moved e _ _ _ _ _ _ _ => cases hm; exact ⟨e, rfl, rfl⟩
  | @cancelled e _ _ _ _ _ => cases hm; exact ⟨e, rfl, rfl⟩

theorem order_created (h : OrderService.Account tid db r w) {o : Order}
    (ho : w.created = some o) :
    ∃ c, r = .checkout c ∧ o = OrderService.newOrder tid c ∧
      w.outbox = [OrderService.orderCreatedEvent tid c] := by
  cases h with
  | @placed c => cases ho; exact ⟨c, rfl, rfl, rfl⟩
  | _ => cases ho

/-- Quantities stay positive: those of a new order were validated. -/
theorem order_positive (h : OrderService.Account tid db r w) (hc : db.commit w = some db')
    (hpos : ∀ o ∈ db.orders.rows, ∀ i ∈ o.items, 0 < i.quantity) :
    ∀ o ∈ db'.orders.rows, ∀ i ∈ o.items, 0 < i.quantity := by
  obtain ⟨g, hg, hrows⟩ := OrderService.rows_commit hc
  intro o ho i hi
  rw [hrows] at ho
  rcases List.mem_append.mp ho with ho | ho
  · obtain ⟨old, hold, rfl⟩ := List.mem_map.mp ho
    obtain ⟨s, hs⟩ := hg old
    rw [hs] at hi
    exact hpos old hold i hi
  · obtain ⟨c, -, rfl, -⟩ := order_created h (Option.mem_toList.mp ho)
    obtain ⟨item, -, rfl⟩ := List.mem_map.mp hi
    exact item.quantity_pos

end Added

/-- The rows a transaction of the inventory service adds to its outbox. -/
theorem inventory_outbox {tid : ℕ} {granted : Prop} {begun db : InventoryDb} {odb : OrderDb}
    {r : InventoryRequest} {w : InventoryWrites}
    (h : InventoryService.Accounted tid granted begun r db w)
    (hsent : ∀ e, r.event? = some e → Faithful odb e) :
    ∀ row ∈ w.outbox, SentBy .inventory .inventoryEvents
      [.inventoryReservedEvent, .inventoryReserveFailedEvent, .inventoryReleasedEvent] row ∧
        Faithful odb row.event := by
  obtain ⟨ops, -, haccount⟩ := h
  cases haccount with
  | @reserved e session htype hall =>
    intro row hrow
    obtain rfl := List.mem_singleton.mp hrow
    obtain ⟨o, ho, horder, hitems⟩ := hsent e rfl
    exact ⟨⟨⟨tid, 0, rfl⟩, rfl, List.mem_cons_self⟩, o, ho, horder,
      fun _ => hitems (by rw [htype]; rfl)⟩
  | @refused e session reason done htype hdone =>
    intro row hrow
    obtain rfl := List.mem_singleton.mp hrow
    obtain ⟨o, ho, horder, -⟩ := hsent e rfl
    exact ⟨⟨⟨tid, 0, rfl⟩, rfl, List.mem_cons_of_mem _ List.mem_cons_self⟩, o, ho, horder, nofun⟩
  | @released e session ops htype hsub hall =>
    intro row hrow
    obtain rfl := List.mem_singleton.mp hrow
    obtain ⟨o, ho, horder, -⟩ := hsent e rfl
    exact ⟨⟨⟨tid, 0, rfl⟩, rfl,
      List.mem_cons_of_mem _ (List.mem_cons_of_mem _ List.mem_cons_self)⟩, o, ho, horder, nofun⟩
  | _ => exact fun _ h => absurd h List.not_mem_nil

/-- The rows a transaction of the payment service adds to its outbox. -/
theorem payment_outbox {tid : ℕ} {odb : OrderDb} {e : SagaEvent} {w : PaymentWrites}
    (h : PaymentService.Account tid e w) (hsent : Faithful odb e) :
    ∀ row ∈ w.outbox, SentBy .payment .paymentEvents [.paymentSuccessEvent, .paymentFailedEvent]
      row ∧ Faithful odb row.event := by
  obtain ⟨o, ho, horder, hitems⟩ := hsent
  cases h with
  | charged htype _ =>
    intro row hrow
    obtain rfl := List.mem_singleton.mp hrow
    exact ⟨⟨⟨tid, 0, rfl⟩, rfl, List.mem_cons_self⟩, o, ho, horder,
      fun _ => hitems (by rw [htype]; rfl)⟩
  | declined htype =>
    intro row hrow
    obtain rfl := List.mem_singleton.mp hrow
    exact ⟨⟨⟨tid, 0, rfl⟩, rfl, List.mem_cons_of_mem _ List.mem_cons_self⟩, o, ho, horder,
      fun _ => hitems (by rw [htype]; rfl)⟩

/-! ## Every step keeps the facts -/

variable {simulatePayments : Bool} {good : InventoryGood} {s s' : System} {l : SystemLabel}

theorem Facts.of_sent (hf : Facts s) {e : SagaEvent} (he : Sent s e) : Faithful s.order.db e := by
  obtain ⟨r, hr, rfl⟩ := he
  exact hf.faithful r hr

/-- The table of a sent event, by its type. -/
theorem Facts.row (hf : Facts s) {e : SagaEvent} (he : Sent s e) :
    (e.eventType ∈ [EventType.orderCreatedEvent, .orderCancelledEvent] ∧
      ∃ r ∈ s.order.db.outbox.rows, r.event = e) ∨
    (e.eventType ∈ [EventType.inventoryReservedEvent, .inventoryReserveFailedEvent,
        .inventoryReleasedEvent] ∧ ∃ r ∈ s.inventory.db.outbox.rows, r.event = e) ∨
    e.eventType ∈ [EventType.paymentSuccessEvent, .paymentFailedEvent] ∧
      ∃ r ∈ s.payment.db.outbox.rows, r.event = e := by
  obtain ⟨r, hr, rfl⟩ := he
  rcases mem_rows.mp hr with hr | hr | hr
  · exact Or.inl ⟨(hf.orderRows r hr).1.type, r, hr, rfl⟩
  · exact Or.inr (Or.inl ⟨(hf.inventoryRows r hr).type, r, hr, rfl⟩)
  · exact Or.inr (Or.inr ⟨(hf.paymentRows r hr).type, r, hr, rfl⟩)

theorem Facts.createdRow (hf : Facts s) {e : SagaEvent} (he : Sent s e)
    (ht : e.eventType = .orderCreatedEvent) : ∃ r ∈ s.order.db.outbox.rows, r.event = e := by
  rcases hf.row he with ⟨-, h⟩ | ⟨h, -⟩ | ⟨h, -⟩
  · exact h
  · exact absurd (ht ▸ h) (by decide)
  · exact absurd (ht ▸ h) (by decide)

theorem Facts.reservedRow (hf : Facts s) {e : SagaEvent} (he : Sent s e)
    (ht : e.eventType = .inventoryReservedEvent) :
    ∃ r ∈ s.inventory.db.outbox.rows, r.event = e := by
  rcases hf.row he with ⟨h, -⟩ | ⟨-, h⟩ | ⟨h, -⟩
  · exact absurd (ht ▸ h) (by decide)
  · exact h
  · exact absurd (ht ▸ h) (by decide)

theorem Facts.successRow (hf : Facts s) {e : SagaEvent} (he : Sent s e)
    (ht : e.eventType = .paymentSuccessEvent) : ∃ r ∈ s.payment.db.outbox.rows, r.event = e := by
  rcases hf.row he with ⟨h, -⟩ | ⟨h, -⟩ | ⟨-, h⟩
  · exact absurd (ht ▸ h) (by decide)
  · exact absurd (ht ▸ h) (by decide)
  · exact h

theorem facts_step (hf : Facts s) (h : Change good s l s') : Facts s' := by
  have hgrows := h.grows
  have hprocessed : ∀ m ∈ s.order.db.inbox.rows, ∃ r ∈ s'.rows, r.eventId = m.eventId := by
    intro m hm
    obtain ⟨r, hr, hid⟩ := hf.processed m hm
    exact ⟨r, hgrows.rows r hr, hid⟩
  have hold : ∀ r ∈ s.rows, Faithful s'.order.db r.event := fun r hr =>
    (hf.faithful r hr).mono hgrows.orders
  obtain ⟨holdOrder, holdInventory, holdPayment⟩ := forall_rows.mp hold
  cases h with
  | quiet horder hinventory hpayment =>
    have hrows : s'.rows = s.rows := by rw [System.rows, System.rows, horder, hinventory, hpayment]
    refine ⟨?_, ?_, ?_, ?_, ?_, ?_, ?_⟩
    · rw [horder]; exact hf.orderRows
    · rw [hinventory]; exact hf.inventoryRows
    · rw [hpayment]; exact hf.paymentRows
    · rw [hrows]; exact hold
    · rw [horder]; exact hf.positive
    · rw [hpayment]; exact hf.payments
    · rw [horder]; exact hprocessed
  | order hl ha hp haccount hsent hcommit hinventory hpayment =>
    obtain ⟨-, hout, hin⟩ := OrderService.commit_eq_some hcommit
    have hadded := order_outbox haccount hcommit
    refine ⟨Table.forall_rows_extend hout hf.orderRows fun r hr => (hadded r hr).1, ?_, ?_,
      forall_rows.mpr ⟨Table.forall_rows_extend hout holdOrder fun r hr => (hadded r hr).2, ?_, ?_⟩,
      order_positive haccount hcommit hf.positive, ?_,
      Table.forall_rows_extend hin hprocessed fun m hm => ?_⟩
    · rw [hinventory]; exact hf.inventoryRows
    · rw [hpayment]; exact hf.paymentRows
    · rw [hinventory]; exact holdInventory
    · rw [hpayment]; exact holdPayment
    · rw [hpayment]; exact hf.payments
    · obtain ⟨e, he, hid⟩ := order_inbox haccount (Option.mem_toList.mp hm)
      obtain ⟨r, hr, rfl⟩ := hsent e he
      exact ⟨r, hgrows.rows r hr, hid.symm⟩
  | inventory hl ha hp haccount hsent hcommit horder hpayment =>
    obtain ⟨-, hout, -⟩ := InventoryService.commit_eq_some hcommit
    have hadded := inventory_outbox haccount fun e he =>
      (hf.of_sent (hsent e he)).mono hgrows.orders
    refine ⟨?_, Table.forall_rows_extend hout hf.inventoryRows fun r hr => (hadded r hr).1, ?_,
      forall_rows.mpr ⟨?_, Table.forall_rows_extend hout holdInventory fun r hr => (hadded r hr).2,
        ?_⟩, ?_, ?_, ?_⟩
    · rw [horder]; exact hf.orderRows
    · rw [hpayment]; exact hf.paymentRows
    · rw [horder] at holdOrder ⊢; exact holdOrder
    · rw [hpayment]; exact holdPayment
    · rw [horder]; exact hf.positive
    · rw [hpayment]; exact hf.payments
    · rw [horder]; exact hprocessed
  | payment hl ha hp haccount hsent hcommit horder hinventory =>
    obtain ⟨hpay, hout, -⟩ := PaymentService.commit_eq_some hcommit
    have hadded := payment_outbox haccount ((hf.of_sent hsent).mono hgrows.orders)
    refine ⟨?_, ?_, Table.forall_rows_extend hout hf.paymentRows fun r hr => (hadded r hr).1,
      forall_rows.mpr ⟨?_, ?_, Table.forall_rows_extend hout holdPayment fun r hr =>
        (hadded r hr).2⟩, ?_, Table.forall_rows_extend hpay (fun p hp => ?_) fun p hp => ?_, ?_⟩
    · rw [horder]; exact hf.orderRows
    · rw [hinventory]; exact hf.inventoryRows
    · rw [horder] at holdOrder ⊢; exact holdOrder
    · rw [hinventory]; exact holdInventory
    · rw [horder]; exact hf.positive
    · obtain ⟨t, hid, r, hr, hrest⟩ := hf.payments p hp
      exact ⟨t, hid, r, hgrows.paymentRows r hr, hrest⟩
    · cases haccount with
      | @charged orderId htype horderId =>
        obtain rfl := List.mem_singleton.mp hp
        refine ⟨_, rfl, PaymentService.successEvent _ _, ?_, rfl, rfl, horderId⟩
        rw [Table.rows_extend hout]
        exact List.mem_append_right _ (List.mem_singleton_self _)
      | declined htype => exact absurd hp List.not_mem_nil
    · rw [horder]; exact hprocessed

theorem facts_init (stock : InventoryService.Stock) : Facts (System.init stock) := by
  refine ⟨?_, ?_, ?_, ?_, ?_, ?_, ?_⟩ <;> exact fun _ h => absurd h List.not_mem_nil

/-- What holds in every state of every run. -/
structure Sound (good : InventoryGood) (s : System) : Prop where
  flight : Flight good (Sent s) s
  facts : Facts s

theorem sound_init (stock : InventoryService.Stock) : Sound good (System.init stock) :=
  ⟨flight_init stock, facts_init stock⟩

theorem sound_step (hs : Sound good s) (hgood : GoodStep good s l)
    (h : step simulatePayments s l = some s') : Sound good s' :=
  ⟨flight_step hs.flight hgood h, facts_step hs.facts (step_change hs.flight h)⟩

end CloudScale.Saga
