/-
  The money and the status of an order.

  `Standing`: an order with reserved stock and no refused payment has the status that fits the
  events about it that the order service has processed, PENDING before its reserved event,
  STOCK_RESERVED after it, CONFIRMED after its payment. Three steps break this: the sweeper cancels
  such an order, stock is reserved for a cancelled order, or the order service reads the order for
  its payment before it has processed its reserved event (the handler then changes nothing and
  records the event as processed). `charged_confirmed`: in every run without them (`Timely`), once
  all messages are consumed, every charged or confirmed order is CONFIRMED.
  `paid_order_stays_reserved` is a run in topic order in which the payment's event comes first.
-/
import CloudScale.Saga.Charges

namespace CloudScale.Saga

open CloudScale.Lib CloudScale.Shared
open OrderService (Order OrderDb OrderEnv OrderQuery OrderRequest OrderStatus OrderTxn OrderWrites
  OrderServer moves)
open InventoryService (InventoryServer InventoryWrites)

/-! ## Where an order stands -/

def statusOf (s : System) (o : Ident) : Option OrderStatus :=
  (s.order.db.orders.get o).map (·.status)

/-- The order service has processed the event. -/
def Seen (s : System) (id : Ident) : Prop := inboxAlreadyProcessed s.order.db.inbox id = true

/-- The order service has processed the success of the order's payment. -/
def Paid (s : System) (o : Ident) : Prop :=
  ∃ p ∈ s.payment.db.outbox.rows, Concerns .paymentSuccessEvent o p ∧ Seen s p.eventId

/-- The order's payment was refused. -/
def Refused (s : System) (o : Ident) : Prop :=
  ∃ f ∈ s.payment.db.outbox.rows, Concerns .paymentFailedEvent o f

/-- The order service has processed that the order's stock is reserved. -/
def ReservationSeen (s : System) (o : Ident) : Prop :=
  ∃ r ∈ s.inventory.db.outbox.rows, Concerns .inventoryReservedEvent o r ∧ Seen s r.eventId

/-- The inventory service has reserved the order's stock or refused to. -/
def Answered (s : System) (o : Ident) : Prop :=
  ∃ a ∈ ofTypes answerTypes s.inventory.db.outbox.rows, a.event.payload.orderId = some o

instance (s : System) (id : Ident) : Decidable (Seen s id) := inferInstanceAs (Decidable (_ = _))

instance (s : System) (o : Ident) : Decidable (Refused s o) :=
  inferInstanceAs (Decidable (∃ _ ∈ _, _))

instance (s : System) (o : Ident) : Decidable (ReservationSeen s o) :=
  inferInstanceAs (Decidable (∃ _ ∈ _, _))

/-- The status of order `o` fits what was processed about it, its reserved event being `r`. -/
structure Standing (s : System) (o : Ident) (r : OutboxRow) : Prop where
  waiting : ¬ Seen s r.eventId → ¬ Paid s o ∧ statusOf s o = some .pending
  reserved : Seen s r.eventId → ¬ Paid s o → statusOf s o = some .stockReserved
  confirmed : Paid s o → statusOf s o = some .confirmed

structure Fits (s : System) : Prop where
  standing : ∀ r ∈ s.inventory.db.outbox.rows, ∀ o, Concerns .inventoryReservedEvent o r →
    ¬ Refused s o → Standing s o r
  unanswered : ∀ o st, ¬ Answered s o → statusOf s o = some st → st = .pending ∨ st = .cancelled

/-! ## The condition -/

/-- The updates that a sweeper is about to commit. -/
def sweptOrders : OrderRequest → OrderTxn (Outcome OrderWrites) → List Ident
  | .sweep _ _, .done (.handled w) => w.updates.map (·.loaded.id)
  | _, _ => []

/-- The order that a payment's handler is about to read. -/
def paidOrder? : OrderRequest → OrderTxn (Outcome OrderWrites) → Option Ident
  | .event e, .ask (.order o) _ => if e.eventType = .paymentSuccessEvent then some o else none
  | _, _ => none

/-- The orders whose stock is reserved by the writes that are about to be committed. -/
def reservedOrders : InventoryService.InventoryTxn (Outcome InventoryWrites) → List Ident
  | .done (.handled w) =>
    (ofTypes [.inventoryReservedEvent] w.outbox).filterMap (·.event.payload.orderId)
  | _ => []

/-- The sweeper cancels no order with reserved stock, unless its payment was refused; no stock is
    reserved for a cancelled order; the order is read for its payment after its reserved event was
    processed. -/
def Timely (s : System) : SystemLabel → Prop
  | .order (.finish i) => ∀ a ∈ s.order.active[i]?, ∀ o ∈ sweptOrders a.req a.prog,
      (∃ r ∈ s.inventory.db.outbox.rows, Concerns .inventoryReservedEvent o r) → Refused s o
  | .order (.advance i _) => ∀ a ∈ s.order.active[i]?, ∀ o ∈ paidOrder? a.req a.prog,
      ReservationSeen s o
  | .inventory (.finish i) => ∀ a ∈ s.inventory.active[i]?, ∀ o ∈ reservedOrders a.prog,
      statusOf s o ≠ some .cancelled
  | _ => True

instance (s : System) (l : SystemLabel) : Decidable (Timely s l) :=
  match l with
  | .order (.finish i) => inferInstanceAs (Decidable (∀ a ∈ s.order.active[i]?,
      ∀ o ∈ sweptOrders a.req a.prog,
        (∃ r ∈ s.inventory.db.outbox.rows, Concerns .inventoryReservedEvent o r) → Refused s o))
  | .order (.advance i _) => inferInstanceAs (Decidable (∀ a ∈ s.order.active[i]?,
      ∀ o ∈ paidOrder? a.req a.prog, ReservationSeen s o))
  | .inventory (.finish i) => inferInstanceAs (Decidable (∀ a ∈ s.inventory.active[i]?,
      ∀ o ∈ reservedOrders a.prog, statusOf s o ≠ some .cancelled))
  | .order (.crash _) | .inventory (.advance _ _) | .inventory (.crash _) | .checkout _
  | .sweep _ _ | .restock _ _ | .reserveBatch _ | .publish _ _ | .deliver _ _ | .payment _
  | .notification _ => isTrue trivial

/-! ## Rows and their ids -/

section Rows

variable {s s' : System} {o : Ident} {r : OutboxRow}

/-- Two rows of the system with one id are one row: ids are drawn by the service that writes. -/
theorem Facts.row_eq_of_id (hf : Facts s) {r r' : OutboxRow} (hr : r ∈ s.rows) (hr' : r' ∈ s.rows)
    (h : r.eventId = r'.eventId) : r = r' := by
  have horder := fun x hx => (hf.orderRows x hx).1.drawn
  have hinventory := fun x hx => (hf.inventoryRows x hx).drawn
  have hpayment := fun x hx => (hf.paymentRows x hx).drawn
  rcases mem_rows.mp hr with hr | hr | hr <;> rcases mem_rows.mp hr' with hr' | hr' | hr'
  · exact Table.row_eq_of_key hr hr' h
  · grind
  · grind
  · grind
  · exact Table.row_eq_of_key hr hr' h
  · grind
  · grind
  · grind
  · exact Table.row_eq_of_key hr hr' h

theorem seen_iff {id : Ident} : Seen s id ↔ ∃ m ∈ s.order.db.inbox.rows, m.eventId = id := by
  rw [Seen, inboxAlreadyProcessed_iff, List.mem_map]

/-- What was processed was sent. -/
theorem Facts.row_of_seen (hf : Facts s) {id : Ident} (h : Seen s id) :
    ∃ r ∈ s.rows, r.eventId = id := by
  obtain ⟨m, hm, rfl⟩ := seen_iff.mp h
  exact hf.processed m hm

theorem Grows.seen (h : Grows s s') {id : Ident} (hs : Seen s id) : Seen s' id := by
  obtain ⟨m, hm, rfl⟩ := seen_iff.mp hs
  exact seen_iff.mpr ⟨m, h.orderInbox m hm, rfl⟩

theorem Grows.refused (h : Grows s s') (hr : Refused s o) : Refused s' o := by
  obtain ⟨f, hf, hc⟩ := hr
  exact ⟨f, h.paymentRows f hf, hc⟩

theorem Grows.reservationSeen (h : Grows s s') (hr : ReservationSeen s o) :
    ReservationSeen s' o := by
  obtain ⟨r, hr, hc, hseen⟩ := hr
  exact ⟨r, h.inventoryRows r hr, hc, h.seen hseen⟩

theorem answered_of_reserved (hr : r ∈ s.inventory.db.outbox.rows)
    (h : Concerns .inventoryReservedEvent o r) : Answered s o :=
  ⟨r, mem_ofTypes.mpr ⟨hr, h.1 ▸ List.mem_cons_self⟩, h.2⟩

/-- The reserved event of a charged order. -/
theorem Chained.reservedRow (hc : Chained s) {p : OutboxRow} (hp : p ∈ s.payment.db.outbox.rows)
    (ht : p.event.eventType ∈ chargeTypes) (ho : p.event.payload.orderId = some o) :
    ∃ r ∈ s.inventory.db.outbox.rows, Concerns .inventoryReservedEvent o r := by
  obtain ⟨r, hr, horder, -⟩ := hc.charged.asked p (mem_ofTypes.mpr ⟨hp, ht⟩)
  obtain ⟨hr, htr⟩ := mem_ofTypes.mp hr
  exact ⟨r, hr, List.mem_singleton.mp htr, horder.trans ho⟩

/-- The reserved event of an order is the only answer about it. -/
theorem Chained.answer_eq (hc : Chained s) {a : OutboxRow} (hr : r ∈ s.inventory.db.outbox.rows)
    (h : Concerns .inventoryReservedEvent o r) (ha : a ∈ s.inventory.db.outbox.rows)
    (ht : a.event.eventType ∈ answerTypes) (ho : a.event.payload.orderId = some o) : a = r :=
  hc.reserved.once a (mem_ofTypes.mpr ⟨ha, ht⟩) r
    (mem_ofTypes.mpr ⟨hr, h.1 ▸ List.mem_cons_self⟩) (ho.trans h.2.symm)

/-- An order that was charged is not refused. -/
theorem Chained.not_refused (hc : Chained s) {p : OutboxRow} (hp : p ∈ s.payment.db.outbox.rows)
    (h : Concerns .paymentSuccessEvent o p) : ¬ Refused s o := by
  rintro ⟨f, hf, hfail⟩
  have hsame : p = f := hc.charged.once p (mem_ofTypes.mpr ⟨hp, h.1 ▸ List.mem_cons_self⟩) f
    (mem_ofTypes.mpr ⟨hf, hfail.1 ▸ List.mem_cons_of_mem _ List.mem_cons_self⟩)
    (h.2.trans hfail.2.symm)
  have htype := hfail.1
  rw [← hsame, h.1] at htype
  cases htype

/-- A sent event that moves an order is about an order with an answer. -/
theorem answered_of_sent (hf : Facts s) (hc : Chained s) {e : SagaEvent} (he : Sent s e)
    (hm : (moves e.eventType).isSome) (ho : e.payload.orderId = some o) : Answered s o := by
  rcases hf.row he with ⟨ht, -⟩ | ⟨ht, r, hr, rfl⟩ | ⟨ht, p, hp, rfl⟩
  · simp only [List.mem_cons, List.not_mem_nil, or_false] at ht
    rcases ht with ht | ht <;> rw [ht] at hm <;> cases hm
  · refine ⟨r, mem_ofTypes.mpr ⟨hr, ?_⟩, ho⟩
    simp only [List.mem_cons, List.not_mem_nil, or_false] at ht
    rcases ht with ht | ht | ht
    · exact ht ▸ List.mem_cons_self
    · exact ht ▸ List.mem_cons_of_mem _ List.mem_cons_self
    · rw [ht] at hm; cases hm
  · obtain ⟨r, hr, hcon⟩ := hc.reservedRow hp ht ho
    exact answered_of_reserved hr hcon

end Rows

/-! ## What the order service's transactions leave -/

/-- What holds in every state of a run that meets the condition. -/
structure Coherent (s : System) : Prop where
  sound : Sound anyAnswer s
  chained : Chained s
  fits : Fits s

/-- `t` comes later than `s` in such a run. -/
def Onward (s t : System) : Prop := Grows s t ∧ Coherent t

theorem Onward.trans {s t u : System} (h : Onward s t) (h' : Onward t u) : Onward s u :=
  ⟨h.1.trans h'.1, h'.2⟩

theorem Onward.refl {s : System} (h : Coherent s) : Onward s s := ⟨Grows.refl s, h⟩

/-- The writes move order `o` to `next`, and no other. -/
def Moves (w : OrderWrites) (o : Ident) (next : OrderStatus) : Prop :=
  ∃ ord : Order, ord.id = o ∧ w.updates = [⟨ord, next⟩]

/-- What the handling of a reserved event and of a payment's success leaves, unless the event was
    processed by then. -/
structure Advances (s : System) (e : SagaEvent) (w : OrderWrites) : Prop where
  reserved : e.eventType = .inventoryReservedEvent → ∀ o, e.payload.orderId = some o →
    Seen s e.eventId ∨ Refused s o ∨ Moves w o .stockReserved
  confirmed : e.eventType = .paymentSuccessEvent → ∀ o, e.payload.orderId = some o →
    Seen s e.eventId ∨ ReservationSeen s o ∧ Moves w o .confirmed

def AdvancesOutcome (r : OrderRequest) (s : System) : Outcome OrderWrites → Prop
  | .handled w => ∀ e, r = .event e → Advances s e w
  | _ => True

/-- The order service's answers in the whole system. -/
abbrev sagaAnswers : OrderEnv → System → (q : OrderQuery) → OrderService.OrderAnswer q :=
  OrderService.answers fun s : System => s.order.db

/-- The order is read for its payment after its reserved event was processed. -/
def readsReserved (tk : Ticket OrderDb OrderRequest) (s : System) (q : OrderQuery)
    (_ : OrderEnv) : Prop :=
  ∀ e o, tk.req = .event e → e.eventType = .paymentSuccessEvent → q = .order o →
    ReservationSeen s o

section Programs

variable {good : System → OrderQuery → OrderEnv → Prop} {s : System} {e : SagaEvent} {o : Ident}

/-- A handler that finds the order in an allowed status, or whose work was done by then, moves it
    unless its work is done. -/
theorem transition_moves {allowed : List OrderStatus} {next : OrderStatus}
    {done ready : System → Prop} (ho : e.payload.orderId = some o)
    (hdone : ∀ t u, Onward t u → done t → done u) (hready : ∀ t u, Onward t u → ready t → ready u)
    (hread : ∀ t ω, Onward s t → good t (.order o) ω →
      done t ∨ ready t ∧ ∃ st ∈ allowed, statusOf t o = some st) :
    Safe sagaAnswers Onward good (fun t w => done t ∨ ready t ∧ Moves w o next)
      (OrderService.transition allowed next e.payload) s := by
  unfold OrderService.transition
  rw [ho]
  refine OrderService.safe_selectOrder fun t ω hst hgood => ?_
  rcases hread t ω hst hgood with hd | ⟨hr, st, hallowed, hstatus⟩
  · have hall : ∀ w u, Onward t u → done u ∨ ready u ∧ Moves w o next :=
      fun w u htu => Or.inl (hdone t u htu hd)
    cases t.order.db.orders.get o with
    | none => exact hall _
    | some ord =>
      dsimp only
      split
      · exact hall _
      · exact hall _
  · obtain ⟨ord, hget, rfl⟩ := Option.map_eq_some_iff.mp hstatus
    have hid : ord.id = o := Table.get_key hget
    rw [hget]
    dsimp only
    rw [if_pos hallowed]
    exact fun u htu => Or.inr ⟨hready t u htu hr, ord, hid, rfl⟩

/-- The handler of a sent reserved event moves the order to STOCK_RESERVED. -/
theorem reserved_moves (hsent : Sent s e) (ht : e.eventType = .inventoryReservedEvent)
    (ho : e.payload.orderId = some o) :
    Safe sagaAnswers Onward good
      (fun t w => (Seen t e.eventId ∨ Refused t o) ∨ True ∧ Moves w o .stockReserved)
      (OrderService.handleInventoryReserved e.payload) s := by
  refine transition_moves ho ?_ (fun _ _ _ h => h) fun t ω hst _ => ?_
  · rintro t u ⟨hgrows, -⟩ (h | h)
    · exact Or.inl (hgrows.seen h)
    · exact Or.inr (hgrows.refused h)
  · obtain ⟨hgrows, hco⟩ := hst
    obtain ⟨r, hr, rfl⟩ := hco.sound.facts.reservedRow (hgrows.sent hsent) ht
    by_cases hrefused : Refused t o
    · exact Or.inl (Or.inr hrefused)
    by_cases hseen : Seen t r.event.eventId
    · exact Or.inl (Or.inl hseen)
    have hstand := hco.fits.standing r hr o ⟨ht, ho⟩ hrefused
    exact Or.inr ⟨trivial, _, List.mem_singleton_self _, (hstand.waiting hseen).2⟩

/-- The handler of a sent payment moves the order to CONFIRMED. -/
theorem paid_moves (hgood : ∀ t ω, good t (.order o) ω → ReservationSeen t o) (hsent : Sent s e)
    (ht : e.eventType = .paymentSuccessEvent) (ho : e.payload.orderId = some o) :
    Safe sagaAnswers Onward good
      (fun t w => Seen t e.eventId ∨ ReservationSeen t o ∧ Moves w o .confirmed)
      (OrderService.handlePaymentSuccess e.payload) s := by
  refine transition_moves ho (fun t u h => h.1.seen) (fun t u h => h.1.reservationSeen)
    fun t ω hst hg => ?_
  obtain ⟨hgrows, hco⟩ := hst
  have hreserved := hgood t ω hg
  obtain ⟨r, hr, hcon, hseen⟩ := hreserved
  obtain ⟨p, hp, rfl⟩ := hco.sound.facts.successRow (hgrows.sent hsent) ht
  by_cases hpaid : Seen t p.event.eventId
  · exact Or.inl hpaid
  have hstand := hco.fits.standing r hr o hcon (hco.chained.not_refused hp ⟨ht, ho⟩)
  have hunpaid : ¬ Paid t o := by
    rintro ⟨q, hq, hqcon, hqseen⟩
    have hsame : q = p := hco.chained.charged.once q
      (mem_ofTypes.mpr ⟨hq, hqcon.1 ▸ List.mem_cons_self⟩) p
      (mem_ofTypes.mpr ⟨hp, ht ▸ List.mem_cons_self⟩) (hqcon.2.trans ho.symm)
    exact hpaid (hsame ▸ hqseen)
  exact Or.inr ⟨⟨r, hr, hcon, hseen⟩, _, List.mem_singleton_self _,
    hstand.reserved hseen hunpaid⟩

theorem advances_of_ne {t : System} {w : OrderWrites} (hr : e.eventType ≠ .inventoryReservedEvent)
    (hp : e.eventType ≠ .paymentSuccessEvent) : Advances t e w :=
  ⟨fun h => absurd h hr, fun h => absurd h hp⟩

theorem handlerOf_advances {tid : ℕ} {begun : OrderDb} {handler : OrderTxn OrderWrites}
    (hsent : Sent s e) (h : OrderService.handlerOf tid e = some handler) :
    Safe sagaAnswers Onward (readsReserved ⟨tid, .event e, begun⟩) (fun t w => Advances t e w)
      handler s := by
  unfold OrderService.handlerOf at h
  split at h <;> cases h
  · next ht =>
    cases ho : e.payload.orderId with
    | none => unfold OrderService.handleInventoryReserved OrderService.transition; rw [ho]; trivial
    | some o =>
      refine (reserved_moves hsent ht ho).imp fun t w hw => ⟨fun _ o' ho' => ?_, fun ht' => ?_⟩
      · obtain rfl := Option.some.inj (ho.symm.trans ho')
        rcases hw with (hw | hw) | ⟨-, hw⟩
        · exact Or.inl hw
        · exact Or.inr (Or.inl hw)
        · exact Or.inr (Or.inr hw)
      · rw [ht] at ht'
        cases ht'
  · next ht =>
    exact (safe_true _ _).imp fun _ _ _ => advances_of_ne (by rw [ht]; decide) (by rw [ht]; decide)
  · next ht =>
    cases ho : e.payload.orderId with
    | none => unfold OrderService.handlePaymentSuccess OrderService.transition; rw [ho]; trivial
    | some o =>
      have hgood : ∀ t ω, readsReserved ⟨tid, .event e, begun⟩ t (.order o) ω →
          ReservationSeen t o := fun t ω hg => hg e o rfl ht rfl
      refine (paid_moves hgood hsent ht ho).imp fun t w hw => ⟨fun ht' => ?_, fun _ o' ho' => ?_⟩
      · rw [ht] at ht'
        cases ht'
      · obtain rfl := Option.some.inj (ho.symm.trans ho')
        exact hw
  · next ht =>
    exact (safe_true _ _).imp fun _ _ _ => advances_of_ne (by rw [ht]; decide) (by rw [ht]; decide)

theorem Advances.mono {t u : System} {w : OrderWrites} (h : Advances t e w) (htu : Onward t u) :
    Advances u e w := by
  refine ⟨fun ht o ho => ?_, fun ht o ho => ?_⟩
  · rcases h.reserved ht o ho with hseen | hrefused | hmoves
    · exact Or.inl (htu.1.seen hseen)
    · exact Or.inr (Or.inl (htu.1.refused hrefused))
    · exact Or.inr (Or.inr hmoves)
  · rcases h.confirmed ht o ho with hseen | ⟨hready, hmoves⟩
    · exact Or.inl (htu.1.seen hseen)
    · exact Or.inr ⟨htu.1.reservationSeen hready, hmoves⟩

theorem program_advances {tid : ℕ} {begun : OrderDb} {r : OrderRequest}
    (hsent : ∀ e, r.event? = some e → Sent s e) :
    Safe sagaAnswers Onward (readsReserved ⟨tid, r, begun⟩) (fun t w => AdvancesOutcome r t w)
      (OrderService.program tid r) s := by
  have hall : ∀ p : OrderTxn (Outcome OrderWrites), (∀ e, r ≠ .event e) →
      Safe sagaAnswers Onward (readsReserved ⟨tid, r, begun⟩) (fun t w => AdvancesOutcome r t w)
        p s := fun p hr => (safe_true p s).imp fun t w _ => by
    cases w with
    | handled w => exact fun e he => absurd he (hr e)
    | _ => trivial
  cases r with
  | event e =>
    refine OrderService.safe_inInbox fun t ω hst _ => ?_
    split
    · exact fun _ _ => trivial
    · cases hh : OrderService.handlerOf tid e with
      | none => exact fun _ _ => trivial
      | some handler =>
        refine (handlerOf_advances (hst.1.sent (hsent e rfl)) hh).bind (Onward.refl hst.2)
          (fun _ u h => Onward.refl h.2) fun u w hw v huv e' he' => ?_
        cases he'
        exact ⟨(hw.mono huv).reserved, (hw.mono huv).confirmed⟩
  | sweep cutoff limit => exact hall _ fun _ h => OrderRequest.noConfusion h
  | checkout c => exact hall _ fun _ h => OrderRequest.noConfusion h

end Programs

/-! ## Every step keeps the statuses fitting -/

section Fits

variable {s s' : System} {o : Ident} {r : OutboxRow} {tid : ℕ} {req : OrderRequest}
  {w : OrderWrites}

theorem Standing.congr (h : Standing s o r) (hseen : Seen s' r.eventId ↔ Seen s r.eventId)
    (hpaid : Paid s' o ↔ Paid s o) (hstatus : statusOf s' o = statusOf s o) : Standing s' o r where
  waiting hn := by
    rw [hpaid, hstatus]
    exact h.waiting fun hs => hn (hseen.mpr hs)
  reserved hs hn := hstatus.trans (h.reserved (hseen.mp hs) fun hp => hn (hpaid.mpr hp))
  confirmed hp := hstatus.trans (h.confirmed (hpaid.mp hp))

theorem seen_commit (hcommit : s.order.db.commit w = some s'.order.db) {id : Ident} :
    Seen s' id ↔ Seen s id ∨ ∃ m ∈ w.inbox, m.eventId = id := by
  obtain ⟨-, -, hin⟩ := OrderService.commit_eq_some hcommit
  simp [seen_iff, Table.rows_extend hin, or_and_right, exists_or]

/-- An event whose handling is committed was not processed before. -/
theorem unseen_of_commit (hcommit : s.order.db.commit w = some s'.order.db) {m : InboxMessage}
    (hm : m ∈ w.inbox) : ¬ Seen s m.eventId := by
  obtain ⟨-, -, hin⟩ := OrderService.commit_eq_some hcommit
  rw [Seen, inboxAlreadyProcessed_iff]
  exact Table.key_not_mem_of_extend hin (Option.mem_toList.mpr hm)

theorem statusOf_commit (hcommit : s.order.db.commit w = some s'.order.db)
    (haccount : OrderService.Account tid s.order.db req w) {st : OrderStatus}
    (h : statusOf s o = some st) :
    (∃ u ∈ w.updates, u.loaded.id = o ∧ statusOf s' o = some u.status) ∨
      o ∉ w.updates.map (·.loaded.id) ∧ statusOf s' o = some st := by
  obtain ⟨ord, hget, rfl⟩ := Option.map_eq_some_iff.mp h
  rcases OrderService.get_commit hcommit haccount.nodup hget with ⟨u, hu, hid, hnew⟩ | ⟨hno, hnew⟩
  · exact Or.inl ⟨u, hu, hid, by rw [statusOf, hnew]; rfl⟩
  · exact Or.inr ⟨hno, by rw [statusOf, hnew]; rfl⟩

theorem statusOf_moves (hcommit : s.order.db.commit w = some s'.order.db)
    (haccount : OrderService.Account tid s.order.db req w) {st next : OrderStatus}
    (h : statusOf s o = some st) (hm : Moves w o next) : statusOf s' o = some next := by
  obtain ⟨ord, hid, hupdates⟩ := hm
  rcases statusOf_commit hcommit haccount h with ⟨u, hu, -, hnew⟩ | ⟨hno, -⟩
  · rw [hupdates, List.mem_singleton] at hu
    rw [hnew, hu]
  · refine absurd ?_ hno
    rw [hupdates, List.map_singleton, List.mem_singleton]
    exact hid.symm

/-- A committed order that was not there before is PENDING. -/
theorem statusOf_created (hcommit : s.order.db.commit w = some s'.order.db)
    (haccount : OrderService.Account tid s.order.db req w) {st : OrderStatus}
    (hnone : statusOf s o = none) (h : statusOf s' o = some st) : st = .pending := by
  obtain ⟨ord, hget, rfl⟩ := Option.map_eq_some_iff.mp h
  obtain ⟨hmem, hid⟩ := Table.get_eq_some_iff.mp hget
  obtain ⟨g, hg, hrows⟩ := OrderService.rows_commit hcommit
  rw [hrows] at hmem
  rcases List.mem_append.mp hmem with hold | hnew
  · obtain ⟨old, hmem', rfl⟩ := List.mem_map.mp hold
    obtain ⟨st, hst⟩ := hg old
    rw [hst] at hid
    have hsome : s.order.db.orders.get o = some old := Table.get_eq_some_iff.mpr ⟨hmem', hid⟩
    rw [statusOf, hsome] at hnone
    cases hnone
  · obtain ⟨c, -, rfl, -⟩ := order_created haccount (Option.mem_toList.mp hnew)
    rfl

/-- The writes of a handled event: its inbox row, and updates of the order it is about. -/
theorem event_writes {e : SagaEvent} {db : OrderDb}
    (h : OrderService.Account tid db (.event e) w) :
    (moves e.eventType).isSome ∧ (∀ u ∈ w.updates, e.payload.orderId = some u.loaded.id) ∧
      w.inbox = some (recordInbox e "order-saga") := by
  cases h with
  | unmoved hmoves => exact ⟨hmoves, fun _ hu => absurd hu List.not_mem_nil, rfl⟩
  | moved hmoves hknown horder hstatus =>
    exact ⟨by rw [hmoves]; rfl, fun u hu => List.mem_singleton.mp hu ▸ horder, rfl⟩
  | cancelled htype hknown horder hstatus =>
    exact ⟨by rw [htype]; rfl, fun u hu => List.mem_singleton.mp hu ▸ horder, rfl⟩

/-- The writes of the other requests record no event. -/
theorem request_writes {db : OrderDb} (h : OrderService.Account tid db req w)
    (hreq : req.event? = none) : w.inbox = none := by
  cases h with
  | existing => rfl
  | placed => rfl
  | swept => rfl
  | unmoved => cases hreq
  | moved => cases hreq
  | cancelled => cases hreq

/-- A commit that neither updates the order nor records an event about it. -/
theorem standing_same (hstand : Standing s o r) (hr : r ∈ s.inventory.db.outbox.rows)
    (ho : r.event.payload.orderId = some o)
    (hcommit : s.order.db.commit w = some s'.order.db)
    (haccount : OrderService.Account tid s.order.db req w)
    (hpayment : s'.payment.db = s.payment.db)
    (hupdates : o ∉ w.updates.map (·.loaded.id))
    (hrecord : ∀ m ∈ w.inbox, ∀ x ∈ s.rows, x.eventId = m.eventId →
      x.event.payload.orderId ≠ some o) : Standing s' o r := by
  have hsame : ∀ x ∈ s.rows, x.event.payload.orderId = some o →
      (Seen s' x.eventId ↔ Seen s x.eventId) := by
    intro x hx hxo
    rw [seen_commit hcommit]
    refine or_iff_left ?_
    rintro ⟨m, hm, hid⟩
    exact hrecord m hm x hx hid.symm hxo
  have hstatus : ∃ st, statusOf s o = some st := by
    by_cases hseen : Seen s r.eventId
    · by_cases hpaid : Paid s o
      · exact ⟨_, hstand.confirmed hpaid⟩
      · exact ⟨_, hstand.reserved hseen hpaid⟩
    · exact ⟨_, (hstand.waiting hseen).2⟩
  obtain ⟨st, hst⟩ := hstatus
  refine hstand.congr (hsame r (mem_rows.mpr (Or.inr (Or.inl hr))) ho) ?_ ?_
  · unfold Paid
    rw [hpayment]
    refine exists_congr fun p => and_congr_right fun hp => and_congr_right fun hcon => ?_
    exact hsame p (mem_rows.mpr (Or.inr (Or.inr hp))) hcon.2
  · rcases statusOf_commit hcommit haccount hst with ⟨u, hu, hid, -⟩ | ⟨-, hnew⟩
    · exact absurd (List.mem_map.mpr ⟨u, hu, hid⟩) hupdates
    · rw [hnew, hst]

/-- Handling an event records it and nothing else. -/
theorem seen_event {e : SagaEvent} (hcommit : s.order.db.commit w = some s'.order.db)
    (haccount : OrderService.Account tid s.order.db (.event e) w) :
    ¬ Seen s e.eventId ∧ ∀ id, Seen s' id ↔ Seen s id ∨ e.eventId = id := by
  obtain ⟨-, -, hinbox⟩ := event_writes haccount
  refine ⟨unseen_of_commit hcommit hinbox, fun id => ?_⟩
  rw [seen_commit hcommit, hinbox]
  simp [recordInbox]

/-- The order service handles the reserved event of the order. -/
theorem standing_reserved (hf : Facts s) (hstand : Standing s o r)
    (hr : r ∈ s.inventory.db.outbox.rows) (hcon : Concerns .inventoryReservedEvent o r)
    (hrefused : ¬ Refused s o) (hcommit : s.order.db.commit w = some s'.order.db)
    (haccount : OrderService.Account tid s.order.db (.event r.event) w)
    (hadv : Advances s r.event w) (hpayment : s'.payment.db = s.payment.db) :
    Standing s' o r := by
  obtain ⟨hunseen, hseen⟩ := seen_event hcommit haccount
  obtain ⟨hunpaid, hpending⟩ := hstand.waiting hunseen
  have hpaid : ¬ Paid s' o := by
    rintro ⟨p, hp, hpcon, hps⟩
    rw [hpayment] at hp
    rcases (hseen _).mp hps with hps | hid
    · exact hunpaid ⟨p, hp, hpcon, hps⟩
    · have hsame := hf.row_eq_of_id (mem_rows.mpr (Or.inr (Or.inl hr)))
        (mem_rows.mpr (Or.inr (Or.inr hp))) hid
      have htype := hcon.1
      rw [hsame, hpcon.1] at htype
      cases htype
  have hmove : Moves w o .stockReserved := by
    rcases hadv.reserved hcon.1 o hcon.2 with h | h | h
    · exact absurd h hunseen
    · exact absurd h hrefused
    · exact h
  exact ⟨fun hn => absurd ((hseen _).mpr (Or.inr rfl)) hn,
    fun _ _ => statusOf_moves hcommit haccount hpending hmove, fun h => absurd h hpaid⟩

/-- The order service handles the success event of the order. -/
theorem standing_confirmed (hc : Chained s) (hstand : Standing s o r)
    (hr : r ∈ s.inventory.db.outbox.rows) (hcon : Concerns .inventoryReservedEvent o r)
    {p : OutboxRow} (hp : p ∈ s.payment.db.outbox.rows)
    (hpcon : Concerns .paymentSuccessEvent o p)
    (hcommit : s.order.db.commit w = some s'.order.db)
    (haccount : OrderService.Account tid s.order.db (.event p.event) w)
    (hadv : Advances s p.event w) (hpayment : s'.payment.db = s.payment.db) :
    Standing s' o r := by
  obtain ⟨hunseen, hseen⟩ := seen_event hcommit haccount
  rcases hadv.confirmed hpcon.1 o hpcon.2 with h | ⟨⟨r', hr', hcon', hseen'⟩, hmove⟩
  · exact absurd h hunseen
  obtain rfl := hc.answer_eq hr hcon hr' (hcon'.1 ▸ List.mem_cons_self) hcon'.2
  have hunpaid : ¬ Paid s o := by
    rintro ⟨q, hq, hqcon, hqs⟩
    have hsame : q = p := hc.charged.once q (mem_ofTypes.mpr ⟨hq, hqcon.1 ▸ List.mem_cons_self⟩) p
      (mem_ofTypes.mpr ⟨hp, hpcon.1 ▸ List.mem_cons_self⟩) (hqcon.2.trans hpcon.2.symm)
    exact hunseen (hsame ▸ hqs)
  have hpaid : Paid s' o := ⟨p, hpayment ▸ hp, hpcon, (hseen _).mpr (Or.inr rfl)⟩
  have hconfirmed := statusOf_moves hcommit haccount (hstand.reserved hseen' hunpaid) hmove
  exact ⟨fun hn => absurd ((hseen _).mpr (Or.inl hseen')) hn, fun _ hn => absurd hpaid hn,
    fun _ => hconfirmed⟩

/-- A commit of the order service about the order itself. -/
theorem standing_event (hf : Facts s) (hc : Chained s) (hstand : Standing s o r)
    (hr : r ∈ s.inventory.db.outbox.rows) (hcon : Concerns .inventoryReservedEvent o r)
    (hrefused : ¬ Refused s o) {e : SagaEvent} (hsent : Sent s e)
    (horder : e.payload.orderId = some o) (hcommit : s.order.db.commit w = some s'.order.db)
    (haccount : OrderService.Account tid s.order.db (.event e) w) (hadv : Advances s e w)
    (hpayment : s'.payment.db = s.payment.db) : Standing s' o r := by
  obtain ⟨hmoves, -, -⟩ := event_writes haccount
  rcases hf.row hsent with ⟨ht, -⟩ | ⟨ht, a, ha, rfl⟩ | ⟨ht, p, hp, rfl⟩
  · simp only [List.mem_cons, List.not_mem_nil, or_false] at ht
    rcases ht with ht | ht <;> rw [ht] at hmoves <;> cases hmoves
  · have hanswer : a.event.eventType ∈ answerTypes := by
      simp only [List.mem_cons, List.not_mem_nil, or_false] at ht
      rcases ht with ht | ht | ht <;> rw [ht] at hmoves ⊢
      · exact List.mem_cons_self
      · exact List.mem_cons_of_mem _ List.mem_cons_self
      · cases hmoves
    -- the only answer about the order is its reserved event
    obtain rfl := hc.answer_eq hr hcon ha hanswer horder
    exact standing_reserved hf hstand hr hcon hrefused hcommit haccount hadv hpayment
  · have htype : p.event.eventType = .paymentSuccessEvent := by
      simp only [List.mem_cons, List.not_mem_nil, or_false] at ht
      rcases ht with ht | ht
      · exact ht
      · exact absurd ⟨p, hp, ht, horder⟩ hrefused
    exact standing_confirmed hc hstand hr hcon hp ⟨htype, horder⟩ hcommit haccount hadv hpayment

/-- A commit of the order service keeps where a reserved order stands. -/
theorem standing_order (hf : Facts s) (hc : Chained s) (hstand : Standing s o r)
    (hr : r ∈ s.inventory.db.outbox.rows) (hcon : Concerns .inventoryReservedEvent o r)
    (hrefused : ¬ Refused s o) (haccount : OrderService.Account tid s.order.db req w)
    (hsent : ∀ e, req.event? = some e → Sent s e)
    (hadv : ∀ e, req = .event e → Advances s e w)
    (hswept : ∀ cutoff limit, req = .sweep cutoff limit → o ∉ w.updates.map (·.loaded.id))
    (hcommit : s.order.db.commit w = some s'.order.db)
    (hpayment : s'.payment.db = s.payment.db) : Standing s' o r := by
  cases req with
  | event e =>
    by_cases horder : e.payload.orderId = some o
    · exact standing_event hf hc hstand hr hcon hrefused (hsent e rfl) horder hcommit haccount
        (hadv e rfl) hpayment
    · obtain ⟨-, hupdates, hinbox⟩ := event_writes haccount
      refine standing_same hstand hr hcon.2 hcommit haccount hpayment ?_ ?_
      · intro ho
        obtain ⟨u, hu, rfl⟩ := List.mem_map.mp ho
        exact horder (hupdates u hu)
      · intro m hm x hx hid hxo
        rw [hinbox] at hm
        obtain rfl := Option.some.inj hm
        obtain ⟨y, hy, rfl⟩ := hsent e rfl
        exact horder (hf.row_eq_of_id hx hy hid ▸ hxo)
  | sweep cutoff limit =>
    refine standing_same hstand hr hcon.2 hcommit haccount hpayment (hswept _ _ rfl) ?_
    rw [request_writes haccount rfl]
    exact fun _ h => absurd h (Option.not_mem_none _)
  | checkout c =>
    have hnone : w.updates = [] := by cases haccount <;> rfl
    refine standing_same hstand hr hcon.2 hcommit haccount hpayment ?_ ?_
    · rw [hnone]
      exact List.not_mem_nil
    · rw [request_writes haccount rfl]
      exact fun _ h => absurd h (Option.not_mem_none _)

/-- An order without an answer stays PENDING until it is cancelled. -/
theorem unanswered_order (hf : Facts s) (hc : Chained s) (hfits : Fits s)
    (haccount : OrderService.Account tid s.order.db req w)
    (hsent : ∀ e, req.event? = some e → Sent s e)
    (hcommit : s.order.db.commit w = some s'.order.db) {st : OrderStatus}
    (hanswered : ¬ Answered s o) (hst : statusOf s' o = some st) :
    st = .pending ∨ st = .cancelled := by
  cases hold : statusOf s o with
  | none => exact Or.inl (statusOf_created hcommit haccount hold hst)
  | some old =>
    rcases statusOf_commit hcommit haccount hold with ⟨u, hu, rfl, hnew⟩ | ⟨-, hnew⟩
    · cases req with
      | event e =>
        obtain ⟨hmoves, hupdates, -⟩ := event_writes haccount
        exact absurd (answered_of_sent hf hc (hsent e rfl) hmoves (hupdates u hu)) hanswered
      | sweep cutoff limit =>
        cases haccount with
        | swept hnodup hknown hopen =>
          obtain ⟨ord, -, rfl⟩ := List.mem_map.mp hu
          exact Or.inr (Option.some.inj (hst.symm.trans hnew))
      | checkout c => cases haccount <;> exact absurd hu List.not_mem_nil
    · rw [hst] at hnew
      exact hfits.unanswered o st hanswered (hold.trans hnew.symm)

/-- A commit of the order service that cancels no reserved order for lack of time. -/
theorem fits_order (hf : Facts s) (hc : Chained s) (hfits : Fits s)
    (haccount : OrderService.Account tid s.order.db req w)
    (hsent : ∀ e, req.event? = some e → Sent s e)
    (hadv : ∀ e, req = .event e → Advances s e w)
    (hswept : ∀ cutoff limit, req = .sweep cutoff limit → ∀ o ∈ w.updates.map (·.loaded.id),
      (∃ r ∈ s.inventory.db.outbox.rows, Concerns .inventoryReservedEvent o r) → Refused s o)
    (hcommit : s.order.db.commit w = some s'.order.db)
    (hinventory : s'.inventory.db = s.inventory.db) (hpayment : s'.payment.db = s.payment.db) :
    Fits s' := by
  have hrefused_iff : ∀ o, Refused s' o ↔ Refused s o := fun o => by
    rw [Refused, Refused, hpayment]
  have hanswered_iff : ∀ o, Answered s' o ↔ Answered s o := fun o => by
    rw [Answered, Answered, hinventory]
  refine ⟨fun r hr o hcon hrefused => ?_, fun o st hanswered hst => ?_⟩
  · rw [hinventory] at hr
    rw [hrefused_iff] at hrefused
    exact standing_order hf hc (hfits.standing r hr o hcon hrefused) hr hcon hrefused haccount
      hsent hadv (fun _ _ hreq ho => hrefused (hswept _ _ hreq o ho ⟨r, hr, hcon⟩)) hcommit
      hpayment
  · rw [hanswered_iff] at hanswered
    exact unanswered_order hf hc hfits haccount hsent hcommit hanswered hst

/-- The event of a row that is new in the outbox of its service was not processed. -/
theorem Facts.unseen (hf : Facts s) {svc : ServiceName}
    (hdrawn : ∃ t n, r.eventId = .drawn svc t n)
    (hnew : r.eventId ∉ (s.outboxOf svc).map (·.eventId)) : ¬ Seen s r.eventId := by
  intro hs
  obtain ⟨x, hx, hid⟩ := hf.row_of_seen hs
  obtain ⟨t, n, hr⟩ := hdrawn
  have hmem : x ∈ s.outboxOf svc := by
    rcases mem_rows.mp hx with hx | hx | hx
    · obtain ⟨t', n', hd⟩ := (hf.orderRows x hx).1.drawn
      rw [hid, hr] at hd
      cases hd
      exact hx
    · obtain ⟨t', n', hd⟩ := (hf.inventoryRows x hx).drawn
      rw [hid, hr] at hd
      cases hd
      exact hx
    · obtain ⟨t', n', hd⟩ := (hf.paymentRows x hx).drawn
      rw [hid, hr] at hd
      cases hd
      exact hx
  exact hnew (hid ▸ List.mem_map_of_mem hmem)

theorem statusOf_congr (horder : s'.order.db = s.order.db) (o : Ident) :
    statusOf s' o = statusOf s o := by
  rw [statusOf, statusOf, horder]

theorem seen_congr (horder : s'.order.db = s.order.db) (id : Ident) :
    Seen s' id ↔ Seen s id := by
  rw [Seen, Seen, horder]

theorem paid_congr (horder : s'.order.db = s.order.db) (hpayment : s'.payment.db = s.payment.db)
    (o : Ident) : Paid s' o ↔ Paid s o := by
  simp only [Paid, Seen, horder, hpayment]

theorem fits_congr (hfits : Fits s) (horder : s'.order.db = s.order.db)
    (hinventory : s'.inventory.db = s.inventory.db) (hpayment : s'.payment.db = s.payment.db) :
    Fits s' := by
  refine ⟨fun r hr o hcon hrefused => ?_, fun o st hanswered hst => ?_⟩
  · rw [hinventory] at hr
    rw [Refused, hpayment] at hrefused
    exact (hfits.standing r hr o hcon hrefused).congr (seen_congr horder _)
      (paid_congr horder hpayment o) (statusOf_congr horder o)
  · rw [Answered, hinventory] at hanswered
    exact hfits.unanswered o st hanswered ((statusOf_congr horder o).symm.trans hst)

section Inventory

variable {ireq : InventoryService.InventoryRequest} {granted : Prop}
  {begun : InventoryService.InventoryDb} {iw : InventoryWrites}

/-- Where the order of a new reserved event stands: it had no answer, so the order service has
    processed nothing about it. -/
theorem standing_answer (hf : Facts s) (hc : Chained s) (hfits : Fits s)
    (haccount : InventoryService.Accounted tid granted begun ireq s.inventory.db iw)
    (hsent : ∀ e, ireq.event? = some e → Sent s e)
    (hopen : ∀ o ∈ reservedOrders (.done (.handled iw)), statusOf s o ≠ some .cancelled)
    (hcommit : s.inventory.db.commit iw = some s'.inventory.db) (hr : r ∈ iw.outbox)
    (hcon : Concerns .inventoryReservedEvent o r) : Standing s o r := by
  obtain ⟨-, hout, hin⟩ := InventoryService.commit_eq_some hcommit
  have hmem : r ∈ ofTypes answerTypes iw.outbox :=
    mem_ofTypes.mpr ⟨hr, hcon.1 ▸ List.mem_cons_self⟩
  rcases inventory_answers haccount with hnone | ⟨e, a, m, hreq, htype, hnew, hid, hm, hmid⟩
  · rw [hnone] at hmem
    exact absurd hmem List.not_mem_nil
  rw [hnew] at hmem
  obtain rfl := List.mem_singleton.mp hmem
  obtain ⟨c, hcrow, rfl⟩ := hf.createdRow (hsent e (by rw [hreq]; rfl)) htype
  rw [hm] at hin
  have hunanswered : ¬ Answered s o := by
    rintro ⟨b, hb, hbo⟩
    refine hc.reserved.unanswered hf.onePerOrder
      (mem_ofTypes.mpr ⟨hcrow, List.mem_singleton.mpr htype⟩) hmid hin b hb ?_
    exact hbo.trans (hcon.2.symm.trans hid)
  have hunpaid : ¬ Paid s o := by
    rintro ⟨p, hp, hpcon, -⟩
    obtain ⟨r', hr', hcon'⟩ := hc.reservedRow hp (hpcon.1 ▸ List.mem_cons_self) hpcon.2
    exact hunanswered (answered_of_reserved hr' hcon')
  have hunseen : ¬ Seen s r.eventId := by
    have hsentBy := (inventory_outbox haccount (fun e he => hf.of_sent (hsent e he)) r hr).1
    exact hf.unseen hsentBy.drawn (Table.key_not_mem_of_extend hout hr)
  have hpending : statusOf s o = some .pending := by
    obtain ⟨ord, hknown, hord, -⟩ := hf.faithful c (mem_rows.mpr (Or.inl hcrow))
    obtain ⟨st, hget⟩ := hknown
    have hoid : o = ord.id := by
      have h1 := hcon.2.symm.trans (hid.trans hord)
      exact Option.some.inj h1
    have hst : statusOf s o = some st := by rw [statusOf, hoid, hget]; rfl
    rcases hfits.unanswered o st hunanswered hst with rfl | rfl
    · exact hst
    · refine absurd hst (hopen o ?_)
      exact List.mem_filterMap.mpr ⟨r, mem_ofTypes.mpr ⟨hr, List.mem_singleton.mpr hcon.1⟩,
        hcon.2⟩
  exact ⟨fun _ => ⟨hunpaid, hpending⟩, fun h => absurd h hunseen, fun h => absurd h hunpaid⟩

/-- A commit of the inventory service that reserves no stock for a cancelled order. -/
theorem fits_inventory (hf : Facts s) (hc : Chained s) (hfits : Fits s)
    (haccount : InventoryService.Accounted tid granted begun ireq s.inventory.db iw)
    (hsent : ∀ e, ireq.event? = some e → Sent s e)
    (hopen : ∀ o ∈ reservedOrders (.done (.handled iw)), statusOf s o ≠ some .cancelled)
    (hcommit : s.inventory.db.commit iw = some s'.inventory.db)
    (horder : s'.order.db = s.order.db) (hpayment : s'.payment.db = s.payment.db) : Fits s' := by
  obtain ⟨-, hout, -⟩ := InventoryService.commit_eq_some hcommit
  refine ⟨fun r hr o hcon hrefused => ?_, fun o st hanswered hst => ?_⟩
  · rw [Refused, hpayment] at hrefused
    rw [Table.rows_extend hout] at hr
    have hstand : Standing s o r := by
      rcases List.mem_append.mp hr with hr | hr
      · exact hfits.standing r hr o hcon hrefused
      · exact standing_answer hf hc hfits haccount hsent hopen hcommit hr hcon
    exact hstand.congr (seen_congr horder _) (paid_congr horder hpayment o)
      (statusOf_congr horder o)
  · refine hfits.unanswered o st (fun h => hanswered ?_) ((statusOf_congr horder o).symm.trans hst)
    obtain ⟨a, ha, ho⟩ := h
    exact ⟨a, ofTypes_subset (mem_extend hout) ha, ho⟩

end Inventory

/-- A commit of the payment service. -/
theorem fits_payment {e : SagaEvent} {w : PaymentService.PaymentWrites} (hf : Facts s)
    (hfits : Fits s) (haccount : PaymentService.Account tid e w) (hsent : Sent s e)
    (hcommit : s.payment.db.commit w = some s'.payment.db)
    (horder : s'.order.db = s.order.db) (hinventory : s'.inventory.db = s.inventory.db) :
    Fits s' := by
  obtain ⟨-, hout, -⟩ := PaymentService.commit_eq_some hcommit
  have hpaid : ∀ o, Paid s' o ↔ Paid s o := by
    intro o
    refine ⟨?_, ?_⟩
    · rintro ⟨p, hp, hpcon, hps⟩
      rw [Table.rows_extend hout] at hp
      rw [seen_congr horder] at hps
      rcases List.mem_append.mp hp with hp | hp
      · exact ⟨p, hp, hpcon, hps⟩
      · have hsentBy := (payment_outbox haccount (hf.of_sent hsent) p hp).1
        exact absurd hps (hf.unseen hsentBy.drawn (Table.key_not_mem_of_extend hout hp))
    · rintro ⟨p, hp, hpcon, hps⟩
      exact ⟨p, mem_extend hout p hp, hpcon, (seen_congr horder _).mpr hps⟩
  refine ⟨fun r hr o hcon hrefused => ?_, fun o st hanswered hst => ?_⟩
  · rw [hinventory] at hr
    have hnot : ¬ Refused s o := by
      rintro ⟨f, hf, hfail⟩
      exact hrefused ⟨f, mem_extend hout f hf, hfail⟩
    exact (hfits.standing r hr o hcon hnot).congr (seen_congr horder _) (hpaid o)
      (statusOf_congr horder o)
  · rw [Answered, hinventory] at hanswered
    exact hfits.unanswered o st hanswered ((statusOf_congr horder o).symm.trans hst)

end Fits

/-! ## Runs -/

variable {simulatePayments : Bool} {s s' : System} {l : SystemLabel}

/-- The order service's transactions in flight move orders as `Advances` says. -/
def Watched (s : System) : Prop :=
  s.order.AllSafe sagaAnswers Onward readsReserved (fun tk t o => AdvancesOutcome tk.req t o) s

theorem fits_step (hco : Coherent s) (hw : Watched s) (hok : Timely s l)
    (h : step simulatePayments s l = some s') : Fits s' := by
  have hf := hco.sound.facts
  cases step_change hco.sound.flight h with
  | quiet horder hinventory hpayment => exact fits_congr hco.fits horder hinventory hpayment
  | order hl ha hp haccount hsent hcommit hinventory hpayment =>
    subst hl
    have hadv : AdvancesOutcome _ s (.handled _) :=
      allSafe_result hw (List.mem_of_getElem? ha) hp (Onward.refl hco)
    refine fits_order hf hco.chained hco.fits haccount hsent hadv ?_ hcommit hinventory hpayment
    intro cutoff limit hreq o ho
    refine hok _ ha o ?_
    rw [hreq, hp]
    exact ho
  | inventory hl ha hp haccount hsent hcommit horder hpayment =>
    subst hl
    refine fits_inventory hf hco.chained hco.fits haccount hsent (fun o ho => ?_) hcommit horder
      hpayment
    exact hok _ ha o (by rw [hp]; exact ho)
  | payment hl ha hp haccount hsent hcommit horder hinventory =>
    exact fits_payment hf hco.fits haccount hsent hcommit horder hinventory

theorem coherent_step (hco : Coherent s) (hw : Watched s) (hok : Timely s l)
    (h : step simulatePayments s l = some s') : Coherent s' :=
  ⟨sound_step hco.sound goodStep_any h,
    chained_step hco.sound.facts hco.chained (step_change hco.sound.flight h),
    fits_step hco hw hok h⟩

theorem watched_start (hw : Watched s) {req : OrderRequest}
    (hsent : ∀ e, req.event? = some e → Sent s e) :
    (OrderService.service.start s.order req).AllSafe sagaAnswers Onward readsReserved
      (fun tk t o => AdvancesOutcome tk.req t o) s :=
  allSafe_start hw (program_advances hsent)

/-- A good move keeps the transactions in flight as they should be, in the state before it. -/
theorem watched_move {m : Move OrderEnv} {order : OrderServer} (hco : Coherent s) (hw : Watched s)
    (hok : Timely s (.order m)) (h : OrderService.service.move s.order m = some order) :
    order.AllSafe sagaAnswers Onward readsReserved (fun tk t o => AdvancesOutcome tk.req t o)
      s := by
  refine allSafe_move hw h (Onward.refl hco) (fun _ _ => rfl) ?_
  cases m with
  | advance i ω =>
    intro a ha q k hp e o hreq ht hq
    subst hq
    refine hok a ha o ?_
    rw [hreq, hp]
    exact if_pos ht
  | finish i => trivial
  | crash i => trivial

theorem watched_step (hco : Coherent s) (hw : Watched s) (hok : Timely s l)
    (h : step simulatePayments s l = some s') : Watched s' := by
  have hon : Onward s s' :=
    ⟨(step_change hco.sound.flight h).grows, coherent_step hco hw hok h⟩
  have hweaken : ∀ {order : OrderServer}, order.AllSafe sagaAnswers Onward readsReserved
      (fun tk t o => AdvancesOutcome tk.req t o) s → order.AllSafe sagaAnswers Onward readsReserved
        (fun tk t o => AdvancesOutcome tk.req t o) s' :=
    fun ha => allSafe_weaken (fun _ _ _ => Onward.trans) ha hon
  cases l with
  | order m =>
    obtain ⟨order, hm, rfl⟩ := Option.map_eq_some_iff.mp h
    exact hweaken (watched_move hco hw hok hm)
  | checkout c =>
    cases h
    exact hweaken (watched_start hw fun e he => absurd he.symm (Option.some_ne_none e))
  | sweep cutoff limit =>
    cases h
    exact hweaken (watched_start hw fun e he => absurd he.symm (Option.some_ne_none e))
  | deliver svc n =>
    obtain ⟨r, hr, h⟩ := Option.bind_eq_some_iff.mp h
    obtain ⟨-, h⟩ := Option.ite_none_right_eq_some.mp h
    obtain rfl := Option.some.inj h
    cases svc with
    | order =>
      refine hweaken (watched_start hw fun e he => ?_)
      obtain rfl := Option.some.inj he
      exact hco.sound.flight.published r (List.mem_of_getElem? hr)
    | _ => exact hweaken hw
  | publish svc n => obtain ⟨_, -, rfl⟩ := Option.map_eq_some_iff.mp h; exact hweaken hw
  | restock p payload => cases h; exact hweaken hw
  | reserveBatch items => cases h; exact hweaken hw
  | inventory m => obtain ⟨_, -, rfl⟩ := Option.map_eq_some_iff.mp h; exact hweaken hw
  | payment m => obtain ⟨_, -, rfl⟩ := Option.map_eq_some_iff.mp h; exact hweaken hw
  | notification m => obtain ⟨_, -, rfl⟩ := Option.map_eq_some_iff.mp h; exact hweaken hw

theorem fits_init (stock : InventoryService.Stock) : Fits (System.init stock) :=
  ⟨fun _ h => absurd h List.not_mem_nil, fun _ _ _ h => nomatch h⟩

theorem coherent_reaches {stock : InventoryService.Stock} {ls : List SystemLabel}
    (h : Reaches (step simulatePayments) Timely (System.init stock) ls s) : Coherent s := by
  have hinv : Coherent s ∧ Watched s := by
    refine h.invariant (fun s => Coherent s ∧ Watched s) ⟨?_, allSafe_init _ _⟩ ?_
    · exact ⟨sound_init stock, chained_init stock, fits_init stock⟩
    · rintro s l s' ⟨hco, hw⟩ hok hstep
      exact ⟨coherent_step hco hw hok hstep, watched_step hco hw hok hstep⟩
  exact hinv.1

/-- Once all messages are consumed, an order with a success event is CONFIRMED. -/
theorem Coherent.confirmed (hco : Coherent s) (hd : Drained s) {p : OutboxRow}
    (hp : p ∈ s.payment.db.outbox.rows) {o : Ident} (hcon : Concerns .paymentSuccessEvent o p) :
    statusOf s o = some .confirmed := by
  have hf := hco.sound.facts
  obtain ⟨r, hr, hrcon⟩ := hco.chained.reservedRow hp (hcon.1 ▸ List.mem_cons_self) hcon.2
  have hstand := hco.fits.standing r hr o hrcon (hco.chained.not_refused hp hcon)
  refine hstand.confirmed ⟨p, hp, hcon, ?_⟩
  refine hd.consumed p (hd.published p (mem_rows.mpr (Or.inr (Or.inr hp)))) .order ?_ ?_
  · rw [(hf.paymentRows p hp).topic]
    exact List.mem_cons_of_mem _ List.mem_cons_self
  · rw [hcon.1]
    decide

/-- In every run that meets the condition, once all outboxes are drained and all messages are
    consumed, every order with a completed payment or a dispatched confirmation is CONFIRMED. -/
theorem charged_confirmed {stock : InventoryService.Stock} {ls : List SystemLabel}
    (h : Reaches (step simulatePayments) Timely (System.init stock) ls s) (hd : Drained s) :
    (∀ p ∈ s.payment.db.payments.rows, p.status = .completed →
        statusOf s p.orderId = some .confirmed) ∧
      ∀ c ∈ s.notification.world, ∃ o, c.orderId = some o ∧ statusOf s o = some .confirmed := by
  have hco := coherent_reaches h
  refine ⟨fun p hp _ => ?_, fun c hc => ?_⟩
  · obtain ⟨t, -, r, hr, -, hcon⟩ := hco.sound.facts.payments p hp
    exact hco.confirmed hd hr hcon
  · obtain ⟨e, hsent, ht, horder⟩ := hco.sound.flight.dispatched c hc
    obtain ⟨o, -, ho, -⟩ := hco.sound.facts.of_sent hsent
    obtain ⟨r, hr, rfl⟩ := hco.sound.facts.successRow hsent ht
    exact ⟨o.id, horder.trans ho, hco.confirmed hd hr ⟨ht, ho⟩⟩

/-- A checkout of one unit, up to the payment. -/
def paidCheckout : List SystemLabel :=
  .checkout (checkoutOf "checkout-a" checkout_a_length 1 Int.one_pos 0) :: runOrder 1 ++
    .publish .order 0 :: .deliver .inventory 0 :: runInventory 3 ++
    .publish .inventory 0 :: .deliver .payment 1 :: runPayment 1 ++
    .publish .payment 0 :: .deliver .notification 2 :: runNotification 2

/-- The order service handles the two events about its order, in the given order. -/
def handleEvents (first second : ℕ) : List SystemLabel :=
  .deliver .order first :: runOrder 2 ++ .deliver .order second :: runOrder 2

instance (s : System) : Decidable (Drained s) :=
  decidable_of_iff ((∀ r ∈ s.rows, r ∈ s.published) ∧ ∀ r ∈ s.published,
      ∀ svc ∈ [ServiceName.order, .inventory, .payment, .notification], r.topic ∈ subscribed svc →
        r.event.eventType ∈ handledTypes svc →
          inboxAlreadyProcessed (s.inboxOf svc) r.eventId = true)
    ⟨fun h => ⟨h.1, fun r hr svc => h.2 r hr svc (by cases svc <;> decide)⟩,
      fun h => ⟨h.published, fun r hr svc _ => h.consumed r hr svc⟩⟩

/-- The reserved event first. -/
theorem charged_confirmed_checkout : ∃ s,
    Reaches (step true) Timely (System.init (oneProduct 1)) (paidCheckout ++ handleEvents 1 2) s ∧
      Drained s ∧ ∃ p ∈ s.payment.db.payments.rows, p.orderId = .drawn .order 0 0 ∧
        statusOf s p.orderId = some .confirmed := by
  obtain ⟨s, hrun, hdrained, p, hp, horder, hcompleted⟩ : ∃ s,
      Reaches (step true) Timely (System.init (oneProduct 1)) (paidCheckout ++ handleEvents 1 2)
        s ∧ Drained s ∧ ∃ p ∈ s.payment.db.payments.rows, p.orderId = .drawn .order 0 0 ∧
          p.status = .completed :=
    reaches_where (by decide +kernel) (by decide +kernel)
  exact ⟨s, hrun, hdrained, p, hp, horder, (charged_confirmed hrun hdrained).1 p hp hcompleted⟩

/-- The payment's event first: it is recorded as processed, and the order is left STOCK_RESERVED
    with a completed payment and a confirmation. -/
theorem paid_order_stays_reserved : ∃ s,
    Reaches (step true) InOrder (System.init (oneProduct 1)) (paidCheckout ++ handleEvents 2 1) s ∧
      Drained s ∧ (∃ p ∈ s.payment.db.payments.rows, p.orderId = .drawn .order 0 0 ∧
        p.status = .completed) ∧
      (∃ c ∈ s.notification.world, c.orderId = some (.drawn .order 0 0)) ∧
      statusOf s (.drawn .order 0 0) = some .stockReserved :=
  reaches_where (by decide +kernel) (by decide +kernel)

end CloudScale.Saga
