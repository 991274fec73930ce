/-
  Exactly-once effects of the order, inventory and payment services.

  Each service provides what `Deduplicated` asks for: a handled event leaves the inbox row of its
  own id (`order_records`, `inventory_records`, `payment_records`), requests that are not events
  leave none, and a commit inserts the row or fails. `exactly_once_effects` is the result of
  `Deduplicated.exactlyOnce` for the three.
-/
import CloudScale.InventoryService.Handlers
import CloudScale.OrderService.Absorbing
import CloudScale.PaymentService.Payments
import CloudScale.Shared.Inbox

namespace CloudScale.Saga

open CloudScale.Lib CloudScale.Shared

/-- The inbox row of an outcome is that of the event its request handles. -/
def Records {V : Type} (recorded : V → Option InboxMessage) (event : Option SagaEvent)
    (o : Outcome V) : Prop :=
  ∀ v, o = .handled v → (recorded v).map (·.eventId) = event.map (·.eventId)

theorem records_skipped {V : Type} {recorded : V → Option InboxMessage}
    {event : Option SagaEvent} : Records recorded event .skipped := nofun

theorem records_ignored {V : Type} {recorded : V → Option InboxMessage}
    {event : Option SagaEvent} : Records recorded event .ignored := nofun

theorem records_handled {V : Type} {recorded : V → Option InboxMessage} {event : Option SagaEvent}
    {v : V} (h : (recorded v).map (·.eventId) = event.map (·.eventId)) :
    Records recorded event (.handled v) := by
  intro v' hv
  cases hv
  exact h

/-! ## The order service -/

section Order

open OrderService

theorem order_records {good : OrderDb → OrderQuery → OrderEnv → Prop} (tid : ℕ) (r : OrderRequest)
    (db : OrderDb) :
    Safe (answers id) (fun _ _ => True) good
      (fun _ o => Records OrderWrites.inbox r.event? o) (program tid r) db := by
  cases r with
  | event e =>
    refine safe_inInbox fun t ω _ _ => ?_
    split
    · exact fun _ _ => records_skipped
    · cases handlerOf tid e with
      | none => exact fun _ _ => records_ignored
      | some handler =>
        exact (safe_true handler t).bind trivial (fun _ _ _ => trivial)
          fun _ _ _ _ _ => records_handled rfl
  | sweep cutoff limit =>
    refine safe_selectStale fun t ω _ _ => fun _ _ => records_handled rfl
  | checkout c =>
    have hcreate : Safe (answers id) (fun _ _ => True) good (fun _ w => w.inbox = none)
        (createOrder tid c) db :=
      safe_createOrder (fun _ _ _ _ _ => trivial) (fun _ => trivial)
        (fun _ _ _ _ _ => rfl) fun _ _ => rfl
    refine hcreate.bind trivial (fun _ _ _ => trivial) fun t w hw _ _ => records_handled ?_
    rw [hw]
    rfl

theorem order_deduplicated :
    Deduplicated OrderService.service OrderRequest.event? OrderDb.inbox OrderWrites.inbox where
  answer _ _ _ _ _ := rfl
  records _ tid r db := order_records tid r db
  skip _ := rfl
  ignore _ := rfl
  insert _ _ _ h := (OrderService.commit_eq_some h).2.2

end Order

/-! ## The inventory service -/

section Inventory

open InventoryService

variable {rely : InventoryDb → InventoryDb → Prop}
  {good : InventoryDb → InventoryQuery → InventoryEnv → Prop}

theorem restock_unrecorded (p : ℕ) (payload : RestockRequest) (db : InventoryDb) :
    Safe InventoryDb.answer rely good (fun _ w => w.inbox = none) (restock p payload) db := by
  intro t ω _ _
  have hlock : InventoryDb.answer ω t (.lock p) = ω.acquired := rfl
  rw [hlock]
  cases ω.acquired with
  | false => trivial
  | true =>
    intro u ω' _ _
    have hrow : InventoryDb.answer ω' u (.row p) = u.stock.get p := rfl
    rw [hrow]
    cases u.stock.get p with
    | none => exact fun _ _ => rfl
    | some row => exact fun _ _ => rfl

theorem reserveBatch_unrecorded (items : List BatchReserveItem) (session : Session)
    (db : InventoryDb) :
    Safe InventoryDb.answer rely good (fun _ w => w.inbox = none) (reserveBatch items session)
      db := by
  induction items generalizing session db with
  | nil => exact fun _ _ => rfl
  | cons item items ih =>
    intro t ω _ _
    have hrow : InventoryDb.answer ω t (.row item.productId) = t.stock.get item.productId := rfl
    rw [hrow]
    cases t.stock.get item.productId with
    | none => trivial
    | some row =>
      show Safe _ _ _ _ (if _ then _ else _) t
      split
      · trivial
      · exact ih _ t

theorem inventory_records (tid : ℕ) (r : InventoryRequest) (db : InventoryDb) :
    Safe InventoryDb.answer (fun _ _ => True) good
      (fun _ o => Records InventoryWrites.inbox r.event? o) (program tid r) db := by
  cases r with
  | event e =>
    intro t ω _ _
    have hinbox : InventoryDb.answer ω t (.inbox e.eventId) =
        inboxAlreadyProcessed t.inbox e.eventId := rfl
    rw [hinbox]
    cases inboxAlreadyProcessed t.inbox e.eventId with
    | true => exact fun _ _ => records_skipped
    | false =>
      cases handlerOf tid e with
      | none => exact fun _ _ => records_ignored
      | some handler =>
        exact (safe_true handler t).bind trivial (fun _ _ _ => trivial)
          fun _ _ _ _ _ => records_handled rfl
  | restock p payload =>
    refine (restock_unrecorded p payload db).bind trivial (fun _ _ _ => trivial) ?_
    intro t w hw _ _
    exact records_handled (by rw [hw]; rfl)
  | reserveBatch items =>
    refine (reserveBatch_unrecorded items [] db).bind trivial (fun _ _ _ => trivial) ?_
    intro t w hw _ _
    exact records_handled (by rw [hw]; rfl)

theorem inventory_deduplicated :
    Deduplicated InventoryService.service InventoryRequest.event? InventoryDb.inbox
      InventoryWrites.inbox where
  answer _ _ _ _ _ := rfl
  records _ tid r db := inventory_records tid r db
  skip _ := rfl
  ignore _ := rfl
  insert _ _ _ h := (InventoryService.commit_eq_some h).2.2

end Inventory

/-! ## The payment service -/

section Payment

open PaymentService

theorem payment_records {good : PaymentDb → PaymentQuery → Unit → Prop} (simulatePayments : Bool)
    (tid : ℕ) (e : SagaEvent) (db : PaymentDb) :
    Safe (fun _ => PaymentDb.answer) (fun _ _ => True) good
      (fun _ o => Records PaymentWrites.inbox (some e) o) (processEvent simulatePayments tid e)
      db := by
  refine (program_account fun _ => trivial).imp fun t o ho => ?_
  cases o with
  | skipped => exact records_skipped
  | ignored => exact records_ignored
  | handled w => cases ho <;> exact records_handled rfl

theorem payment_deduplicated (simulatePayments : Bool) :
    Deduplicated (PaymentService.service simulatePayments) some PaymentDb.inbox
      PaymentWrites.inbox where
  answer _ _ _ _ _ := rfl
  records _ tid e db := payment_records simulatePayments tid e db
  skip _ := rfl
  ignore _ := rfl
  insert _ _ _ h := (PaymentService.commit_eq_some h).2.2

end Payment

/-- In every run of each of the three services, whatever is delivered how often, the effects of
    every event are applied exactly once. -/
theorem exactly_once_effects :
    (∀ db ls srv, Reaches OrderService.service.step anyStep (Server.init db ()) ls srv →
      ExactlyOnce OrderService.service OrderService.OrderRequest.event? OrderService.OrderDb.inbox
        db srv) ∧
    (∀ db ls srv, Reaches InventoryService.service.step anyStep (Server.init db ()) ls srv →
      ExactlyOnce InventoryService.service InventoryService.InventoryRequest.event?
        InventoryService.InventoryDb.inbox db srv) ∧
    ∀ simulatePayments db ls srv,
      Reaches (PaymentService.service simulatePayments).step anyStep (Server.init db ()) ls srv →
      ExactlyOnce (PaymentService.service simulatePayments) some PaymentService.PaymentDb.inbox db
        srv :=
  ⟨fun _ _ _ h => order_deduplicated.exactlyOnce h,
    fun _ _ _ h => inventory_deduplicated.exactlyOnce h,
    fun simulatePayments _ _ _ h => (payment_deduplicated simulatePayments).exactlyOnce h⟩

/-- Two consumers handle the same event at the same time. -/
def duplicated : List (Label OrderService.OrderRequest OrderService.OrderEnv) :=
  let request : OrderService.OrderRequest := .event OrderService.paymentSuccess
  let read (i : ℕ) : Label OrderService.OrderRequest OrderService.OrderEnv :=
    .move (.advance i ⟨[], none⟩)
  [.start request, .start request, read 0, read 1, read 0, read 1, .move (.finish 0),
    .move (.finish 0)]

/-- The second commit is rejected. -/
theorem exactly_once_duplicated : ∃ srv,
    Reaches OrderService.service.step anyStep (Server.init OrderService.oneReserved ()) duplicated
      srv ∧
    srv.log.length = 2 ∧ srv.committed.length = 1 ∧
    ExactlyOnce OrderService.service OrderService.OrderRequest.event? OrderService.OrderDb.inbox
      OrderService.oneReserved srv := by
  have hrun : Reaches OrderService.service.step anyStep (Server.init OrderService.oneReserved ())
      duplicated _ := reaches_run rfl
  exact ⟨_, hrun, rfl, rfl, exactly_once_effects.1 _ _ _ hrun⟩

end CloudScale.Saga
