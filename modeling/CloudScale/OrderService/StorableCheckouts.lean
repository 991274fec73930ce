/-
  Whether an accepted checkout can be stored: what `create_order` inserts into `orders`,
  `order_items` and `outbox_messages`, against the columns of these tables (`order/app/models.py`,
  `outbox.py`).

  The schema bounds quantities, prices and the key from below only, and nothing bounds the
  correlation id, which the middleware takes from a header. `checkout_storable_iff`: all rows fit
  their columns exactly if the texts are short enough and without a NUL, the quantities are of 32
  bits, and the total is below the bound of its column; the prices then are, too
  (`unitPrice_lt_of_total`).
-/
import CloudScale.OrderService.OrderTotals

namespace CloudScale.OrderService

open CloudScale.Lib CloudScale.Shared

/-! ## The request -/

/-- The correlation id that the middleware binds: the header, or a uuid if there is none. -/
def headerCorrelationId (header : Option String) (uuid : Ident) : Ident :=
  match header with
  | some value => if value.isEmpty then uuid else .text value
  | none => uuid

/-- The checkout with the header. -/
def Checkout.withHeader (c : Checkout) (header : Option String) (tid n : ℕ) : Checkout :=
  { c with correlationId := some (headerCorrelationId header (.drawn .order tid n)) }

/-! ## Columns -/

/-- `settings.ORDER_EVENTS_TOPIC` and the topics of the other services. -/
def topicName : Topic → String
  | .orderEvents => "order-events"
  | .inventoryEvents => "inventory-events"
  | .paymentEvents => "payment-events"

def eventTypeName : EventType → String
  | .orderCreatedEvent => "OrderCreatedEvent"
  | .orderCancelledEvent => "OrderCancelledEvent"
  | .inventoryReservedEvent => "InventoryReservedEvent"
  | .inventoryReserveFailedEvent => "InventoryReserveFailedEvent"
  | .inventoryReleasedEvent => "InventoryReleasedEvent"
  | .paymentSuccessEvent => "PaymentSuccessEvent"
  | .paymentFailedEvent => "PaymentFailedEvent"
  | .other s => s

/-- A row of `orders`, whose total is computed in the decimal context. -/
def orderRowFits (c : Checkout) : Bool :=
  fitsText 255 c.payload.idempotencyKey && fitsText 100 c.tenant && fitsText 50 "PENDING" &&
    fitsNumeric (totalAmount c.payload.items)

/-- A row of `order_items`. -/
def itemRowFits (i : OrderItemCreate) : Bool := fitsInteger i.quantity && fitsNumeric i.unitPrice

/-- A row of `outbox_messages`. -/
def outboxRowFits (r : OutboxRow) : Bool :=
  fitsIdent 36 r.event.eventId && fitsText 255 (eventTypeName r.event.eventType) &&
    fitsText 255 (topicName r.topic) && r.key.all (fitsIdent 255) &&
      fitsIdent 36 r.event.correlationId

/-- All rows that `create_order` inserts fit their columns. -/
def RowsFit (tid : ℕ) (c : Checkout) : Prop :=
  orderRowFits c = true ∧ (∀ i ∈ c.payload.items, itemRowFits i = true) ∧
    outboxRowFits (orderCreatedEvent tid c) = true

/-- What a request has to satisfy beyond the schema. -/
structure Fitting (c : Checkout) (header : Option String) : Prop where
  key : c.payload.idempotencyKey.length ≤ 255 ∧ hasNul c.payload.idempotencyKey = false
  tenant : c.tenant.length ≤ 100 ∧ hasNul c.tenant = false
  correlation : ∀ value, header = some value → value.length ≤ 36 ∧ hasNul value = false
  quantity : ∀ i ∈ c.payload.items, i.quantity < 2 ^ 31
  total : exactTotal c.payload.items + contextErrors 0 c.payload.items < 99999999995 / 1000

/-! ## The total and the prices -/

variable {items : List OrderItemCreate}

/-- A price that does not fit makes a total that does not. -/
theorem bound_le_total {i : OrderItemCreate} (hi : i ∈ items) (h : numericBound ≤ i.unitPrice)
    {total : ℚ} (htotal : 0 ≤ total) : numericBound ≤ sumFrom total items := by
  induction items generalizing total with
  | nil => exact absurd hi List.not_mem_nil
  | cons j items ih =>
    rcases List.mem_cons.mp hi with rfl | hi
    · have hquantity : (1 : ℚ) ≤ i.quantity := by exact_mod_cast i.quantity_pos
      have hline : numericBound ≤ i.line :=
        bound_le_round (h.trans (le_mul_of_one_le_left i.unitPrice_pos.le hquantity))
      show numericBound ≤ sumFrom (decimalContext.round (total + i.line)) items
      exact bound_le_sumFrom (bound_le_round (hline.trans (le_add_of_nonneg_left htotal)))
    · exact ih hi (decimalContext.round_nonneg (add_nonneg htotal (line_nonneg j)))

theorem unitPrice_lt_of_total (htotal : totalAmount items < numericBound) {i : OrderItemCreate}
    (hi : i ∈ items) : i.unitPrice < numericBound :=
  not_le.mp fun h => not_le.mpr htotal (bound_le_total hi h le_rfl)

/-! ## The rows -/

theorem orderRowFits_iff {c : Checkout} : orderRowFits c = true ↔
    (c.payload.idempotencyKey.length ≤ 255 ∧ hasNul c.payload.idempotencyKey = false) ∧
      (c.tenant.length ≤ 100 ∧ hasNul c.tenant = false) ∧
        totalAmount c.payload.items < numericBound := by
  have hpending : fitsText 50 "PENDING" = true := by decide
  unfold orderRowFits
  rw [Bool.and_eq_true, Bool.and_eq_true, Bool.and_eq_true, fitsText_iff, fitsText_iff,
    fitsNumeric_iff (totalAmount_nonneg _), and_iff_left hpending, and_assoc]

theorem itemRowFits_iff {i : OrderItemCreate} :
    itemRowFits i = true ↔ i.quantity < 2 ^ 31 ∧ i.unitPrice < numericBound := by
  have hquantity := i.quantity_pos
  have hlower : -2 ^ 31 ≤ i.quantity := by omega
  unfold itemRowFits
  rw [Bool.and_eq_true, fitsInteger_iff, fitsNumeric_iff i.unitPrice_pos.le, and_iff_right hlower]

/-- Of the row of the event only the correlation id depends on the request. -/
theorem outboxRowFits_iff {tid : ℕ} {c : Checkout} :
    outboxRowFits (orderCreatedEvent tid c) = true ↔
      fitsIdent 36 (orderCreatedEvent tid c).event.correlationId = true := by
  have htype : fitsText 255 "OrderCreatedEvent" = true := by decide
  have htopic : fitsText 255 "order-events" = true := by decide
  unfold outboxRowFits
  show (true && fitsText 255 "OrderCreatedEvent" && fitsText 255 "order-events" &&
      true && _) = _ ↔ _
  rw [htype, htopic]
  simp

theorem correlation_iff {tid n : ℕ} {c : Checkout} {header : Option String} :
    fitsIdent 36 (orderCreatedEvent tid (c.withHeader header tid n)).event.correlationId = true ↔
      ∀ value, header = some value → value.length ≤ 36 ∧ hasNul value = false := by
  show fitsIdent 36 (headerCorrelationId header (.drawn .order tid n)) = true ↔ _
  cases header with
  | none => simp [headerCorrelationId, fitsIdent]
  | some value =>
    unfold headerCorrelationId
    by_cases hempty : value.isEmpty = true
    · obtain rfl : value = "" := String.isEmpty_iff.mp hempty
      simp [fitsIdent, hasNul]
    · simp [hempty, fitsIdent, fitsText_iff]

/-- All rows of an accepted checkout fit their columns if and only if its texts, its quantities and
    its total do. -/
theorem checkout_storable_iff (tid n : ℕ) (c : Checkout) (header : Option String) :
    RowsFit tid (c.withHeader header tid n) ↔ Fitting c header := by
  unfold RowsFit
  rw [outboxRowFits_iff, correlation_iff, orderRowFits_iff]
  have htotal : totalAmount c.payload.items < numericBound ↔
      exactTotal c.payload.items + contextErrors 0 c.payload.items < 99999999995 / 1000 := by
    unfold totalAmount numericBound
    rw [sumFrom_eq, zero_add]
  constructor
  · rintro ⟨⟨hkey, htenant, hsum⟩, hitems, hcorrelation⟩
    exact ⟨hkey, htenant, hcorrelation, fun i hi => (itemRowFits_iff.mp (hitems i hi)).1,
      htotal.mp hsum⟩
  · rintro ⟨hkey, htenant, hcorrelation, hquantity, hsum⟩
    have hsum := htotal.mpr hsum
    exact ⟨⟨hkey, htenant, hsum⟩, fun i hi => itemRowFits_iff.mpr
      ⟨hquantity i hi, unitPrice_lt_of_total hsum hi⟩, hcorrelation⟩

/-- Such rows pass the checks of the service model. -/
theorem storable_of_rowsFit {tid : ℕ} {c : Checkout} (h : RowsFit tid c) :
    (placed tid c).storable = true := by
  obtain ⟨horder, hitems, houtbox⟩ := h
  obtain ⟨hkey, htenant, htotal⟩ := orderRowFits_iff.mp horder
  have hlines : (newOrder tid c).items.all (fun i =>
      fitsInteger i.quantity && fitsNumeric i.unitPrice) = true := by
    refine List.all_eq_true.mpr fun i hi => ?_
    obtain ⟨j, hj, rfl⟩ := List.mem_map.mp hi
    exact hitems j hj
  have hstorable : (newOrder tid c).storable = true := by
    have hsum : fitsNumeric (newOrder tid c).totalAmount = true :=
      (fitsNumeric_iff (totalAmount_nonneg _)).mpr htotal
    unfold Order.storable
    rw [hlines, hsum]
    simp [newOrder, fitsText_iff, hkey, htenant]
  have hcorrelation := outboxRowFits_iff.mp houtbox
  unfold OrderWrites.storable placed
  simp [hstorable, hcorrelation]

/-! ## A large quantity -/

theorem cent_pos : (0 : ℤ) < 2147483648 ∧ (0 : ℚ) < 1 / 100 := by norm_num

/-- 2^31 pieces at a cent each. -/
def manyPieces : Checkout where
  user := .text "user-1"
  tenant := "tenant-1"
  now := 0
  redis := false
  correlationId := none
  payload :=
    { items := [{ productId := 1, quantity := 2147483648, unitPrice := 1 / 100
                  quantity_pos := cent_pos.1, unitPrice_pos := cent_pos.2 }]
      idempotencyKey := "checkout-1"
      items_nonempty := List.cons_ne_nil _ _
      key_length := key_min }

/-- Not every accepted checkout can be stored; the quantity is not one of 32 bits. -/
theorem quantity_unfit : ¬ ∀ (tid n : ℕ) (c : Checkout) (header : Option String),
    RowsFit tid (c.withHeader header tid n) := by
  intro hevery
  obtain ⟨-, hitems, -⟩ := hevery 0 3 manyPieces none
  have hquantity := (itemRowFits_iff.mp (hitems _ (List.mem_singleton_self _))).1
  exact absurd hquantity (by decide)

end CloudScale.OrderService
