/-
  No double charge.

  `AnsweredOnce asks answers inbox`: the answers about an order are at most one, and each answers an
  ask whose id is in the inbox. As long as there is at most one ask per order and an answer is
  committed together with the inbox row of its ask, this is kept (`AnsweredOnce.answer`). The saga
  chains it twice (`Chained`): created events are answered by the inventory service, its reserved
  events by the payment service. `charged_once` follows for every run.
-/
import CloudScale.Saga.Facts

namespace CloudScale.Saga

open CloudScale.Lib CloudScale.Shared
open InventoryService (InventoryWrites InventoryRequest InventoryDb)
open PaymentService (PaymentWrites)

/-! ## At most one answer -/

/-- Rows about the same order are the same row. -/
def OnePerOrder (rows : List OutboxRow) : Prop :=
  ∀ a ∈ rows, ∀ b ∈ rows, a.event.payload.orderId = b.event.payload.orderId → a = b

/-- The rows of the given types. -/
def ofTypes (types : List EventType) (rows : List OutboxRow) : List OutboxRow :=
  rows.filter fun r => decide (r.event.eventType ∈ types)

structure AnsweredOnce (asks answers : List OutboxRow) (inbox : InboxRows) : Prop where
  once : OnePerOrder answers
  asked : ∀ a ∈ answers, ∃ c ∈ asks, c.event.payload.orderId = a.event.payload.orderId ∧
    c.eventId ∈ inbox.rows.map (·.eventId)

theorem mem_ofTypes {types : List EventType} {rows : List OutboxRow} {r : OutboxRow} :
    r ∈ ofTypes types rows ↔ r ∈ rows ∧ r.event.eventType ∈ types := by
  simp [ofTypes]

theorem ofTypes_append (types : List EventType) (rows rows' : List OutboxRow) :
    ofTypes types (rows ++ rows') = ofTypes types rows ++ ofTypes types rows' :=
  List.filter_append ..

theorem OnePerOrder.subset {rows rows' : List OutboxRow} (h : OnePerOrder rows')
    (hsub : rows ⊆ rows') : OnePerOrder rows :=
  fun a ha b hb => h a (hsub ha) b (hsub hb)

namespace AnsweredOnce

variable {asks asks' answers : List OutboxRow} {inbox inbox' : InboxRows}

theorem mono (h : AnsweredOnce asks answers inbox) (hasks : asks ⊆ asks')
    (hinbox : ∀ m ∈ inbox.rows, m ∈ inbox'.rows) : AnsweredOnce asks' answers inbox' := by
  refine ⟨h.once, fun a ha => ?_⟩
  obtain ⟨c, hc, horder, hid⟩ := h.asked a ha
  obtain ⟨m, hm, hmid⟩ := List.mem_map.mp hid
  exact ⟨c, hasks hc, horder, List.mem_map.mpr ⟨m, hinbox m hm, hmid⟩⟩

/-- An order whose ask is not in the inbox has no answer. -/
theorem unanswered (h : AnsweredOnce asks answers inbox) (hasks : OnePerOrder asks) {c : OutboxRow}
    {m : InboxMessage} (hc : c ∈ asks) (hm : m.eventId = c.eventId)
    (hext : inbox.extend [m] = some inbox') :
    ∀ b ∈ answers, b.event.payload.orderId ≠ c.event.payload.orderId := by
  have hfresh : c.eventId ∉ inbox.rows.map (·.eventId) := by
    rw [← hm]
    exact Table.key_not_mem_of_extend hext (List.mem_singleton_self m)
  intro b hb heq
  obtain ⟨c', hc', horder', hid⟩ := h.asked b hb
  have hsame : c' = c := hasks c' hc' c hc (horder'.trans heq)
  exact hfresh (hsame ▸ hid)

/-- An answer is added together with the inbox row of its ask: the order had none. -/
theorem answer (h : AnsweredOnce asks answers inbox) (hasks : OnePerOrder asks) {a c : OutboxRow}
    {m : InboxMessage} (hc : c ∈ asks)
    (horder : a.event.payload.orderId = c.event.payload.orderId) (hm : m.eventId = c.eventId)
    (hext : inbox.extend [m] = some inbox') : AnsweredOnce asks (answers ++ [a]) inbox' := by
  have hnone : ∀ b ∈ answers, b.event.payload.orderId ≠ a.event.payload.orderId := fun b hb heq =>
    h.unanswered hasks hc hm hext b hb (heq.trans horder)
  have hrows := Table.rows_extend hext
  refine ⟨?_, fun b hb => ?_⟩
  · intro x hx y hy hxy
    rcases List.mem_append.mp hx with hx' | hx' <;> rcases List.mem_append.mp hy with hy' | hy'
    · exact h.once x hx' y hy' hxy
    · obtain rfl := List.mem_singleton.mp hy'
      exact absurd hxy (hnone x hx')
    · obtain rfl := List.mem_singleton.mp hx'
      exact absurd hxy.symm (hnone y hy')
    · exact (List.mem_singleton.mp hx').trans (List.mem_singleton.mp hy').symm
  · rw [hrows, List.map_append]
    rcases List.mem_append.mp hb with hb | hb
    · obtain ⟨c', hc', horder', hid⟩ := h.asked b hb
      exact ⟨c', hc', horder', List.mem_append_left _ hid⟩
    · obtain rfl := List.mem_singleton.mp hb
      exact ⟨c, hc, horder.symm, List.mem_append_right _ (hm ▸ List.mem_singleton_self _)⟩

end AnsweredOnce

/-! ## The chain -/

def answerTypes : List EventType := [.inventoryReservedEvent, .inventoryReserveFailedEvent]

def chargeTypes : List EventType := [.paymentSuccessEvent, .paymentFailedEvent]

/-- Created events are answered once by the inventory service, reserved events once by the payment
    service. -/
structure Chained (s : System) : Prop where
  reserved : AnsweredOnce (ofTypes [.orderCreatedEvent] s.order.db.outbox.rows)
    (ofTypes answerTypes s.inventory.db.outbox.rows) s.inventory.db.inbox
  charged : AnsweredOnce (ofTypes [.inventoryReservedEvent] s.inventory.db.outbox.rows)
    (ofTypes chargeTypes s.payment.db.outbox.rows) s.payment.db.inbox

variable {simulatePayments : Bool} {good : InventoryGood} {s s' : System} {l : SystemLabel}

/-- One created event per order: its id and its order's id were drawn by one transaction. -/
theorem Facts.onePerOrder (hf : Facts s) :
    OnePerOrder (ofTypes [.orderCreatedEvent] s.order.db.outbox.rows) := by
  intro a ha b hb hab
  obtain ⟨ha, hta⟩ := mem_ofTypes.mp ha
  obtain ⟨hb, htb⟩ := mem_ofTypes.mp hb
  obtain ⟨t, hida, hordera⟩ := (hf.orderRows a ha).2 (List.mem_singleton.mp hta)
  obtain ⟨t', hidb, horderb⟩ := (hf.orderRows b hb).2 (List.mem_singleton.mp htb)
  rw [hordera, horderb] at hab
  cases hab
  exact Table.row_eq_of_key ha hb (hida.trans hidb.symm)

theorem Chained.oneReserved (hc : Chained s) :
    OnePerOrder (ofTypes [.inventoryReservedEvent] s.inventory.db.outbox.rows) := by
  refine hc.reserved.once.subset fun r hr => ?_
  obtain ⟨hr, ht⟩ := mem_ofTypes.mp hr
  exact mem_ofTypes.mpr ⟨hr, List.mem_cons.mpr (Or.inl (List.mem_singleton.mp ht))⟩

/-- A commit of the inventory service adds no answer, or the answer to the created event it
    handles. -/
theorem inventory_answers {tid : ℕ} {granted : Prop} {begun db : InventoryDb}
    {r : InventoryRequest} {w : InventoryWrites}
    (h : InventoryService.Accounted tid granted begun r db w) :
    ofTypes answerTypes w.outbox = [] ∨
      ∃ e a m, r = .event e ∧ e.eventType = .orderCreatedEvent ∧
        ofTypes answerTypes w.outbox = [a] ∧ a.event.payload.orderId = e.payload.orderId ∧
        w.inbox = some m ∧ m.eventId = e.eventId := by
  obtain ⟨ops, -, haccount⟩ := h
  cases haccount with
  | @reserved e session htype hall =>
    exact Or.inr ⟨e, InventoryService.reservedEvent tid e, _, rfl, htype, rfl, rfl, rfl, rfl⟩
  | @refused e session reason done htype hdone =>
    exact Or.inr ⟨e, InventoryService.reserveFailedEvent tid e reason, _, rfl, htype, rfl, rfl, rfl,
      rfl⟩
  | _ => exact Or.inl rfl

/-- A commit of the payment service adds the answer to the reserved event it handles. -/
theorem payment_answers {tid : ℕ} {e : SagaEvent} {w : PaymentWrites}
    (h : PaymentService.Account tid e w) :
    e.eventType = .inventoryReservedEvent ∧ ∃ a m, ofTypes chargeTypes w.outbox = [a] ∧
      a.event.payload.orderId = e.payload.orderId ∧ w.inbox = some m ∧ m.eventId = e.eventId := by
  cases h with
  | charged htype _ => exact ⟨htype, PaymentService.successEvent tid e, _, rfl, rfl, rfl, rfl⟩
  | declined htype => exact ⟨htype, PaymentService.failedEvent tid e, _, rfl, rfl, rfl, rfl⟩

theorem ofTypes_subset {types : List EventType} {rows rows' : List OutboxRow}
    (h : ∀ r ∈ rows, r ∈ rows') : ofTypes types rows ⊆ ofTypes types rows' := by
  intro r hr
  obtain ⟨hr, ht⟩ := mem_ofTypes.mp hr
  exact mem_ofTypes.mpr ⟨h r hr, ht⟩

theorem chained_step (hf : Facts s) (hc : Chained s) (h : Change good s l s') : Chained s' := by
  have hgrows := h.grows
  cases h with
  | quiet horder hinventory hpayment =>
    refine ⟨?_, ?_⟩
    · rw [horder, hinventory]; exact hc.reserved
    · rw [hinventory, hpayment]; exact hc.charged
  | order hl ha hp haccount hsent hcommit hinventory hpayment =>
    refine ⟨?_, ?_⟩
    · rw [hinventory]
      exact hc.reserved.mono (ofTypes_subset hgrows.orderRows) fun _ hm => hm
    · rw [hinventory, hpayment]; exact hc.charged
  | inventory hl ha hp haccount hsent hcommit horder hpayment =>
    obtain ⟨-, hout, hin⟩ := InventoryService.commit_eq_some hcommit
    refine ⟨?_, ?_⟩
    · rw [horder, Table.rows_extend hout, ofTypes_append]
      rcases inventory_answers haccount with hnone | ⟨e, a, m, hreq, htype, hnew, horderId, hm, hid⟩
      · rw [hnone, List.append_nil]
        exact hc.reserved.mono (fun _ h => h) hgrows.inventoryInbox
      · obtain ⟨c, hrow, rfl⟩ := hf.createdRow (hsent e (by rw [hreq]; rfl)) htype
        rw [hm] at hin
        rw [hnew]
        refine hc.reserved.answer hf.onePerOrder ?_ horderId hid hin
        exact mem_ofTypes.mpr ⟨hrow, List.mem_singleton.mpr htype⟩
    · rw [hpayment]
      exact hc.charged.mono (ofTypes_subset hgrows.inventoryRows) fun _ hm => hm
  | payment hl ha hp haccount hsent hcommit horder hinventory =>
    obtain ⟨-, hout, hin⟩ := PaymentService.commit_eq_some hcommit
    refine ⟨?_, ?_⟩
    · rw [horder, hinventory]; exact hc.reserved
    · obtain ⟨htype, a, m, hnew, horderId, hm, hid⟩ := payment_answers haccount
      obtain ⟨c, hrow, hevent⟩ := hf.reservedRow hsent htype
      rw [hinventory, Table.rows_extend hout, ofTypes_append, hnew]
      rw [hm] at hin
      rw [← hevent] at horderId hid htype
      refine hc.charged.answer hc.oneReserved ?_ horderId hid hin
      exact mem_ofTypes.mpr ⟨hrow, List.mem_singleton.mpr htype⟩

theorem chained_init (stock : InventoryService.Stock) : Chained (System.init stock) := by
  refine ⟨⟨?_, ?_⟩, ⟨?_, ?_⟩⟩ <;> exact fun _ h => absurd h List.not_mem_nil

/-! ## Charges -/

theorem length_filter_le_one {α : Type} {rows : List α} {p : α → Bool} (hnodup : rows.Nodup)
    (h : ∀ a ∈ rows, ∀ b ∈ rows, p a = true → p b = true → a = b) :
    (rows.filter p).length ≤ 1 := by
  have hfilter := hnodup.filter p
  have hmem : ∀ a ∈ rows.filter p, ∀ b ∈ rows.filter p, a = b := by
    intro a ha b hb
    obtain ⟨ha, hpa⟩ := List.mem_filter.mp ha
    obtain ⟨hb, hpb⟩ := List.mem_filter.mp hb
    exact h a ha b hb hpa hpb
  match hrows : rows.filter p with
  | [] => exact Nat.zero_le 1
  | [_] => exact Nat.le_refl 1
  | a :: b :: rest =>
    rw [hrows] at hfilter hmem
    have hab := hmem a List.mem_cons_self b (List.mem_cons_of_mem _ List.mem_cons_self)
    rw [hab] at hfilter
    exact absurd List.mem_cons_self (List.nodup_cons.mp hfilter).1

/-- The success event of a payment is about its order; one of each per order. -/
theorem onePayment (hf : Facts s) (hc : Chained s) {p q : PaymentService.Payment}
    (hp : p ∈ s.payment.db.payments.rows) (hq : q ∈ s.payment.db.payments.rows)
    (h : p.orderId = q.orderId) : p = q := by
  obtain ⟨t, hidp, r, hr, hidr, htyper, horderr⟩ := hf.payments p hp
  obtain ⟨t', hidq, r', hr', hidr', htyper', horderr'⟩ := hf.payments q hq
  have hmem : ∀ x ∈ s.payment.db.outbox.rows, x.event.eventType = .paymentSuccessEvent →
      x ∈ ofTypes chargeTypes s.payment.db.outbox.rows := fun x hx ht =>
    mem_ofTypes.mpr ⟨hx, ht ▸ List.mem_cons_self⟩
  have hsame : r = r' := hc.charged.once r (hmem r hr htyper) r' (hmem r' hr' htyper')
    (by rw [horderr, horderr', h])
  have ht : t = t' := by
    rw [hsame, hidr'] at hidr
    cases hidr
    rfl
  exact Table.row_eq_of_key hp hq (by rw [hidp, hidq, ht])

/-- No condition is put on what the inventory service is told. -/
def anyAnswer : InventoryGood := fun _ _ _ _ => True

theorem goodStep_any : GoodStep anyAnswer s l := by
  cases l with
  | inventory m =>
    have hall : ∀ tk db q ω, anyAnswer tk db q ω := fun _ _ _ _ => trivial
    exact goodMove_of_forall hall m
  | _ => trivial

theorem chained_reaches {stock : InventoryService.Stock} {ls : List SystemLabel}
    (h : Reaches (step simulatePayments) anyStep (System.init stock) ls s) :
    Sound anyAnswer s ∧ Chained s := by
  refine h.invariant (fun s => Sound anyAnswer s ∧ Chained s)
    ⟨sound_init stock, chained_init stock⟩ ?_
  rintro s l s' ⟨hsound, hchained⟩ - hstep
  exact ⟨sound_step hsound goodStep_any hstep,
    chained_step hsound.facts hchained (step_change hsound.flight hstep)⟩

/-- In every state of every run, an order has at most one completed payment and at most one event
    that its payment succeeded or failed. -/
theorem charged_once {stock : InventoryService.Stock} {ls : List SystemLabel}
    (h : Reaches (step simulatePayments) anyStep (System.init stock) ls s) (o : Ident) :
    (s.payment.db.payments.rows.filter fun p =>
        decide (p.orderId = o ∧ p.status = .completed)).length ≤ 1 ∧
      (s.payment.db.outbox.rows.filter fun r =>
        decide (Concerns .paymentSuccessEvent o r ∨ Concerns .paymentFailedEvent o r)).length ≤
          1 := by
  obtain ⟨hsound, hchained⟩ := chained_reaches h
  constructor
  · refine length_filter_le_one s.payment.db.payments.nodup.of_map fun p hp q hq hpo hqo => ?_
    have hpo := (of_decide_eq_true hpo).1
    have hqo := (of_decide_eq_true hqo).1
    exact onePayment hsound.facts hchained hp hq (hpo.trans hqo.symm)
  · have hcharge : ∀ r ∈ s.payment.db.outbox.rows,
        Concerns .paymentSuccessEvent o r ∨ Concerns .paymentFailedEvent o r →
        r ∈ ofTypes chargeTypes s.payment.db.outbox.rows ∧
          r.event.payload.orderId = some o := by
      rintro r hr (⟨ht, ho⟩ | ⟨ht, ho⟩)
      · exact ⟨mem_ofTypes.mpr ⟨hr, ht ▸ List.mem_cons_self⟩, ho⟩
      · exact ⟨mem_ofTypes.mpr ⟨hr, ht ▸ List.mem_cons_of_mem _ List.mem_cons_self⟩, ho⟩
    refine length_filter_le_one s.payment.db.outbox.nodup.of_map fun a ha b hb hao hbo => ?_
    obtain ⟨ha, hao⟩ := hcharge a ha (of_decide_eq_true hao)
    obtain ⟨hb, hbo⟩ := hcharge b hb (of_decide_eq_true hbo)
    exact hchained.charged.once a ha b hb (hao.trans hbo.symm)

/-- The reserved event is published twice, and both records are handled at the same time. -/
def chargedTwice : List SystemLabel :=
  .checkout (checkoutOf "checkout-a" checkout_a_length 1 Int.one_pos 0) :: runOrder 1 ++
    .publish .order 0 :: .deliver .inventory 0 :: runInventory 3 ++
    [.publish .inventory 0, .publish .inventory 0, .deliver .payment 1, .deliver .payment 2,
      .payment (.advance 1 ())] ++ runPayment 1 ++ runPayment 0

/-- The second charge is rejected. -/
theorem charged_once_twice : ∃ s,
    Reaches (step true) anyStep (System.init (oneProduct 1)) chargedTwice s ∧
      s.payment.log.length = 2 ∧ s.payment.db.payments.rows.length = 1 ∧
      (s.payment.db.payments.rows.filter fun p =>
        decide (p.orderId = .drawn .order 0 0 ∧ p.status = .completed)).length ≤ 1 := by
  obtain ⟨s, hrun, hlog, hrows⟩ : ∃ s,
      Reaches (step true) anyStep (System.init (oneProduct 1)) chargedTwice s ∧
        s.payment.log.length = 2 ∧ s.payment.db.payments.rows.length = 1 :=
    reaches_where (allSteps_of_forall (fun _ _ _ => trivial) _) (by decide +kernel)
  exact ⟨s, hrun, hlog, hrows, (charged_once hrun (.drawn .order 0 0)).1⟩

end CloudScale.Saga
