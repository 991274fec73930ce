/-
  A signed request to the webhook, from its bytes (`handle_stripe_webhook`).

  `loads` is `json.loads`; any exception of it other than `JSONDecodeError` is `undecodable`.
  `rt.decimal` gives the number with the rounding of the division by 100, and none for `sNaN`, which
  the division refuses. The JSON of the response is made by FastAPI, after the handler.

  `Answered` is a 200 response, or 400 with the database as it was. `stripeWebhook_total_iff`: a
  signed request is answered if and only if its body decodes and every field on the way to what the
  event needs has the type and the size it is used with (`Acceptable`). `unanswered_null` is a
  signed event that is not.
-/
import CloudScale.PaymentService.Webhooks
import CloudScale.PaymentService.StripeSignature

namespace CloudScale.PaymentService

open CloudScale.Lib CloudScale.Shared

/-! ## The endpoint -/

inductive WebhookExc where
  | signature (e : SignatureExc)
  | billing (e : BillingExc)
deriving DecidableEq

/-- `handle_stripe_webhook`. -/
def stripeWebhook (rt : StripeRuntime) (loads : List UInt8 → Body) (hm : Hmac) (now : Int)
    (secret : String) (payload : List UInt8) (header : Header) (db : BillingDb) :
    Except WebhookExc BillingDb :=
  match verifyStripeSignature hm now payload header secret with
  | .error e => .error (.signature e)
  | .ok false => .error (.billing (.httpException 400 "Invalid webhook signature"))
  | .ok true => match handleStripeWebhook rt true (loads payload) db with
    | .error e => .error (.billing e)
    | .ok db' => .ok db'

/-- The database after a request. -/
def BillingDb.afterWebhook (db : BillingDb) : Except WebhookExc BillingDb → BillingDb
  | .ok db' => db'
  | .error _ => db

/-- A 200 response, or an exception 400 that leaves the database as it was. -/
def Answered (db : BillingDb) (r : Except WebhookExc BillingDb) : Prop :=
  (∃ db', r = .ok db') ∨
    (∃ detail, r = .error (.billing (.httpException 400 detail))) ∧ db.afterWebhook r = db

/-! ## Acceptable events -/

section Fields

variable (event : Json)

def typeOf : Json := event.field "type" (.str "")

def dataOf : Json := event.field "data" (.obj [])

def objectOf : Json := (dataOf event).field "object" (.obj [])

def metadataOf : Json := (objectOf event).field "metadata" (.obj [])

def tenantOf : Json := (metadataOf event).field "tenant_id" (.str "unknown")

/-- The dictionaries that every event is read through. -/
structure Nested : Prop where
  root : event.isDict = true
  data : (dataOf event).isDict = true
  object : (objectOf event).isDict = true
  metadata : (metadataOf event).isDict = true

end Fields

/-- A value that can be a key of a dict. -/
def hashable : Json → Bool
  | .arr _ => false
  | .obj _ => false
  | _ => true

/-- The items of a subscription are a dict with a list whose head has a price. -/
def Priced (eventData : Json) : Prop :=
  (eventData.field "items" (.obj [])).isDict = true ∧
    ∃ item rest,
      (eventData.field "items" (.obj [])).field "data" (.arr [.obj []]) = .arr (item :: rest) ∧
        item.isDict = true ∧ (item.field "price" (.obj [])).isDict = true ∧
          hashable ((item.field "price" (.obj [])).field "id" (.str "")) = true

/-- A tenant id that a query can compare with the column. -/
def Selectable (tenantId : Json) : Prop :=
  tenantId = .null ∨ ∃ tenant, tenantId = .str tenant ∧ hasNul tenant = false

/-- A tenant id that a row can be stored under. -/
def Insertable (tenantId : Json) : Prop :=
  ∃ tenant, tenantId = .str tenant ∧ hasNul tenant = false ∧ tenant.length ≤ 100

/-- A tenant id that has a subscription or can get one. -/
def Provisionable (db : BillingDb) (tenantId : Json) : Prop :=
  ∃ tenant, tenantId = .str tenant ∧ hasNul tenant = false ∧
    ((db.subscriptions.get tenant).isSome = true ∨ tenant.length ≤ 100)

/-- The amount is a number of the column, and the currency a text of its. -/
def Payable (rt : StripeRuntime) (eventData : Json) : Prop :=
  (∃ amount, rt.decimal (eventData.field "amount_paid" (.int 0)) = some amount ∧
      amount.cents.fits = true) ∧
    ∃ currency, eventData.field "currency" (.str "usd") = .str currency ∧
      hasNul (rt.upper currency) = false ∧ (rt.upper currency).length ≤ 10

/-- What an event of a type needs. -/
def Supplied (rt : StripeRuntime) (db : BillingDb) (event : Json) : Prop :=
  match typeOf event with
  | .str "customer.subscription.created" =>
    Priced (objectOf event) ∧ Provisionable db (tenantOf event)
  | .str "customer.subscription.updated" => Priced (objectOf event) ∧ Selectable (tenantOf event)
  | .str "invoice.payment_succeeded" => Payable rt (objectOf event) ∧ Insertable (tenantOf event)
  | .str "invoice.payment_failed" => Selectable (tenantOf event)
  | _ => True

/-- The body decodes, if it is JSON at all, and its event can be read and stored. -/
def Acceptable (rt : StripeRuntime) (db : BillingDb) : Body → Prop
  | .undecodable => False
  | .invalid => True
  | .json event => Nested event ∧ Supplied rt db event

/-! ## What is answered -/

/-- A step ends well, or with an exception 400. -/
def Settles {α : Type} (r : Except BillingExc α) : Prop :=
  (∃ a, r = .ok a) ∨ ∃ detail, r = .error (.httpException 400 detail)

section Steps

variable {α β : Type} {rt : StripeRuntime} {db : BillingDb} {event eventData tenantId : Json}

theorem settles_ok (a : α) : Settles (.ok a) := Or.inl ⟨a, rfl⟩

theorem settles_error (e : BillingExc) :
    Settles (.error e : Except BillingExc α) ↔ ∃ detail, e = .httpException 400 detail := by
  simp [Settles]

/-- An access settles only if it succeeds. -/
theorem settles_access (x : Except PyError α) (f : α → Except BillingExc β) :
    Settles (access x >>= f) ↔ ∃ a, x = .ok a ∧ Settles (f a) := by
  cases x with
  | error e => simp [access, bind, Except.bind, settles_error]
  | ok a => simp [access, bind, Except.bind]

theorem settles_get (value default : Json) (key : String) (f : Json → Except BillingExc β) :
    Settles (access (value.get key default) >>= f) ↔
      value.isDict = true ∧ Settles (f (value.field key default)) := by
  rw [settles_access]
  constructor
  · rintro ⟨a, ha, h⟩
    obtain ⟨hdict, rfl⟩ := JsonTree.get_eq_ok.mp ha
    exact ⟨hdict, h⟩
  · rintro ⟨hdict, h⟩
    exact ⟨_, JsonTree.get_eq_ok.mpr ⟨hdict, rfl⟩, h⟩

theorem stripePriceToTier_ok {priceId : Json} :
    (∃ tier, stripePriceToTier priceId = .ok tier) ↔ hashable priceId = true := by
  unfold stripePriceToTier hashable
  split <;> simp

theorem get_bind_ok (value default : Json) (key : String) (f : Json → Except PyError α) :
    (∃ a, (value.get key default >>= f) = .ok a) ↔
      value.isDict = true ∧ ∃ a, f (value.field key default) = .ok a := by
  cases value <;> simp [JsonTree.get, JsonTree.isDict, JsonTree.field, bind, Except.bind]

theorem first_dict {value item : Json} (hdict : item.isDict = true) :
    value.first = .ok item ↔ ∃ rest, value = .arr (item :: rest) := by
  unfold JsonTree.first
  split
  · simp
  · simp
  · split
    · refine iff_of_false (fun h => ?_) (by simp)
      cases h
      cases hdict
    · simp
  · simp
  · simp_all

/-- The tier is found exactly if the items have a price. -/
theorem tierOf_ok (hdict : eventData.isDict = true) :
    (∃ tier, tierOf eventData = .ok tier) ↔ Priced eventData := by
  unfold tierOf Priced
  rw [get_bind_ok, get_bind_ok]
  simp only [hdict, true_and]
  refine and_congr_right fun _ => ?_
  generalize (eventData.field "items" (.obj [])).field "data" (.arr [.obj []]) = data
  have hitem : ∀ item : Json, (∃ tier, (do
      let price ← item.get "price" (.obj [])
      let priceId ← price.get "id" (.str "")
      stripePriceToTier priceId) = .ok tier) ↔
      item.isDict = true ∧ (item.field "price" (.obj [])).isDict = true ∧
        hashable ((item.field "price" (.obj [])).field "id" (.str "")) = true := by
    intro item
    rw [get_bind_ok, get_bind_ok, stripePriceToTier_ok]
  constructor
  · rintro ⟨tier, htier⟩
    cases hfirst : data.first with
    | error e =>
      rw [hfirst] at htier
      cases htier
    | ok item =>
      rw [hfirst] at htier
      have h := (hitem item).mp ⟨tier, htier⟩
      obtain ⟨rest, hdata⟩ := (first_dict h.1).mp hfirst
      exact ⟨item, rest, hdata, h⟩
  · rintro ⟨item, rest, hdata, h⟩
    have hfirst : data.first = .ok item := (first_dict h.1).mpr ⟨rest, hdata⟩
    rw [hfirst]
    exact (hitem item).mpr h

/-! ### The statements -/

theorem settles_provision {tenant tier : String} : Settles (db.provision tenant tier) ↔
    hasNul tenant = false ∧
      ((db.subscriptions.get tenant).isSome = true ∨ tenant.length ≤ 100) := by
  cases hnul : hasNul tenant with
  | true => simp [provision_of_nul hnul, settles_error]
  | false =>
    rw [provision_of_text hnul]
    cases hget : db.subscriptions.get tenant with
    | some sub => simp [settles_ok]
    | none =>
      by_cases hlength : tenant.length ≤ 100
      · have hfits : Subscription.storable
            { tenantId := tenant, planTier := tier, status := "active" } = true :=
          fitsText_iff.mpr ⟨hlength, hnul⟩
        obtain ⟨db', hadd, -⟩ := addSubscription_new hget hfits
        simp [hadd, hlength, settles_ok]
      · simp [BillingDb.addSubscription, Subscription.storable, fitsText, hlength, settles_error]

theorem settles_created {tier : String} :
    Settles (applyEvent ⟨tenantId, .subscriptionCreated tier⟩ db) ↔
      Provisionable db tenantId := by
  cases tenantId with
  | str tenant => simp [applyEvent, settles_provision, Provisionable]
  | _ => simp [applyEvent, settles_error, Provisionable]

/-- A query by the tenant, with what follows it. -/
theorem settles_select {next : Option Subscription → Except BillingExc BillingDb}
    (hnext : ∀ sub, Settles (next sub)) : Settles (selectSubscription db tenantId >>= next) ↔
      Selectable tenantId := by
  cases tenantId with
  | str tenant =>
    show Settles (db.selectTenant tenant >>= next) ↔ _
    cases hnul : hasNul tenant with
    | true => simp [selectTenant_of_nul hnul, Selectable, hnul, bind, Except.bind, settles_error]
    | false =>
      rw [selectTenant_of_text hnul]
      exact iff_of_true (hnext _) (Or.inr ⟨tenant, rfl, hnul⟩)
  | null => exact iff_of_true (hnext _) (Or.inl rfl)
  | _ => simp [selectSubscription, Selectable, bind, Except.bind, settles_error]

theorem settles_updated {tier : String} {cancel : Bool} :
    Settles (applyEvent ⟨tenantId, .subscriptionUpdated tier cancel⟩ db) ↔
      Selectable tenantId := by
  refine settles_select fun sub => ?_
  cases sub <;> exact settles_ok _

theorem settles_failed : Settles (applyEvent ⟨tenantId, .paymentFailed⟩ db) ↔
    Selectable tenantId := by
  refine settles_select fun sub => ?_
  cases sub <;> exact settles_ok _

variable (tenantId) in
theorem settles_unhandled : Settles (applyEvent ⟨tenantId, .unhandled⟩ db) := settles_ok db

theorem settles_addInvoice {i : Invoice} :
    Settles (db.addInvoice i) ↔ i.storable = true := by
  unfold BillingDb.addInvoice
  by_cases h : i.storable = true
  · simp [h, settles_ok]
  · simp [h, settles_error]

theorem settles_succeeded {amount : PyDecimal} {currency : String} :
    Settles (applyEvent ⟨tenantId, .paymentSucceeded amount currency⟩ db) ↔
      (amount.fits = true ∧ hasNul currency = false ∧ currency.length ≤ 10) ∧
        Insertable tenantId := by
  cases tenantId with
  | str tenant =>
    simp only [applyEvent, settles_addInvoice, Invoice.storable, Insertable, Bool.and_eq_true,
      fitsText_iff]
    simp
    tauto
  | _ => simp [applyEvent, settles_error, Insertable]

/-! ### The handler -/

variable (rt db tenantId) in
/-- The amount and the currency of a payment. -/
theorem settles_payment (hdict : eventData.isDict = true) :
    Settles ((match rt.decimal (eventData.field "amount_paid" (.int 0)) with
      | none => .error .invalidOperation
      | some amount => do
        let currency ← access (eventData.get "currency" (.str "usd"))
        return ⟨tenantId, .paymentSucceeded amount.cents (← access (upperCase rt currency))⟩) >>=
          fun e => applyEvent e db) ↔
      Payable rt eventData ∧ Insertable tenantId := by
  unfold Payable
  cases rt.decimal (eventData.field "amount_paid" (.int 0)) with
  | none => simp [settles_error, bind, Except.bind]
  | some amount =>
    dsimp only
    rw [bind_assoc, settles_get, bind_assoc, settles_access]
    cases eventData.field "currency" (.str "usd") with
    | str currency => simp [upperCase, settles_succeeded, hdict, and_assoc]
    | _ => simp [upperCase]

variable (rt db event) in
/-- An event is read and stored exactly if it has what its type needs. -/
theorem settles_event : Settles (readEvent rt event >>= fun e => applyEvent e db) ↔
    Nested event ∧ Supplied rt db event := by
  unfold readEvent
  simp only [bind_assoc, settles_get]
  suffices hsupplied : Nested event → (Settles _ ↔ Supplied rt db event) by
    constructor
    · rintro ⟨hroot, -, hdata, hobject, hmetadata, h⟩
      have hnested : Nested event := ⟨hroot, hdata, hobject, hmetadata⟩
      exact ⟨hnested, (hsupplied hnested).mp h⟩
    · rintro ⟨hnested, h⟩
      exact ⟨hnested.root, hnested.root, hnested.data, hnested.object, hnested.metadata,
        (hsupplied hnested).mpr h⟩
  intro hnested
  unfold Supplied typeOf
  generalize event.field "type" (.str "") = eventType
  split
  · rw [bind_assoc, settles_access]
    simp only [pure_bind, settles_created]
    exact exists_and_right.trans (and_congr_left fun _ => tierOf_ok hnested.object)
  · rw [bind_assoc, settles_get]
    refine (and_iff_right hnested.object).trans ?_
    rw [bind_assoc, settles_access]
    simp only [pure_bind, settles_updated]
    exact exists_and_right.trans (and_congr_left fun _ => tierOf_ok hnested.object)
  · rw [bind_assoc, settles_get]
    refine (and_iff_right hnested.object).trans ?_
    exact settles_payment rt db _ hnested.object
  · exact settles_failed
  · rw [pure_bind]
    refine iff_of_true (settles_unhandled _) ?_
    -- an event of another type needs nothing more
    try split
    all_goals first | contradiction | trivial

end Steps

/-! ## The main result -/

section Endpoint

variable (rt : StripeRuntime) (loads : List UInt8 → Body) (hm : Hmac) (now : Int)
  (secret : String) (payload : List UInt8) (header : Header) (db : BillingDb)

theorem answered_signed (hsigned : verifyStripeSignature hm now payload header secret = .ok true) :
    Answered db (stripeWebhook rt loads hm now secret payload header db) ↔
      Settles (handleStripeWebhook rt true (loads payload) db) := by
  unfold stripeWebhook
  rw [hsigned]
  dsimp only
  cases handleStripeWebhook rt true (loads payload) db with
  | ok db' => simp [Answered, settles_ok]
  | error e => simp [Answered, settles_error, BillingDb.afterWebhook]

/-- A signed request is answered if and only if its body is acceptable. -/
theorem stripeWebhook_total_iff
    (hsigned : verifyStripeSignature hm now payload header secret = .ok true) :
    Answered db (stripeWebhook rt loads hm now secret payload header db) ↔
      Acceptable rt db (loads payload) := by
  rw [answered_signed rt loads hm now secret payload header db hsigned]
  cases loads payload with
  | undecodable => simp [handleStripeWebhook, settles_error, Acceptable]
  | invalid => simp [handleStripeWebhook, settles_error, Acceptable]
  | json event => exact settles_event rt db event

end Endpoint

/-! ## A payment, and an event without data -/

def utf8 (text : String) : List UInt8 := text.toList.map fun c => UInt8.ofNat c.toNat

/-- The body of `paidEvent`. -/
def paidBody : List UInt8 := utf8
  ("\x7b\"type\":\"invoice.payment_succeeded\",\"data\":\x7b\"object\":\x7b\"metadata\":" ++
    "\x7b\"tenant_id\":\"tenant-1\"\x7d,\"amount_paid\":4900,\"currency\":\"usd\"\x7d\x7d\x7d")

/-- An event with a null for its data. -/
def nullBody : List UInt8 := utf8 "\x7b\"data\":null\x7d"

/-- The events of this section, decoded. -/
def loadsEvent (payload : List UInt8) : Body :=
  if payload = paidBody then .json paidEvent
  else if payload = nullBody then .json (.obj [("data", .null)])
  else .invalid

def paidDigest : List Char :=
  Nat.toDigits 16 0x8e6c3c171af10a5cf742e7f59180e9ff8d0d6042282e72cabf0dd02790b2c8eb

def paidHmac : Hmac := hmacOf paidBody paidDigest (by decide +kernel) (by decide +kernel)

def paidHeader : Header := headerOf paidDigest (by decide +kernel)

/-- A signed payment of a new tenant is answered. -/
theorem stripeWebhook_total_iff_paid :
    Answered .empty (stripeWebhook wholeAmounts loadsEvent paidHmac 1700000100 "whsec" paidBody
      paidHeader .empty) := by
  refine (stripeWebhook_total_iff wholeAmounts loadsEvent paidHmac 1700000100 "whsec" paidBody
    paidHeader .empty (by decide +kernel)).mpr ?_
  have hloads : loadsEvent paidBody = .json paidEvent := if_pos rfl
  rw [hloads]
  refine ⟨⟨rfl, rfl, rfl, rfl⟩, ⟨⟨.finite 4900, rfl, by decide +kernel⟩, "usd", rfl, ?_⟩, ?_⟩
  · exact ⟨by decide +kernel, by decide +kernel⟩
  · exact ⟨"tenant-1", rfl, by decide +kernel, by decide⟩

def nullDigest : List Char :=
  Nat.toDigits 16 0xc1269dfdfc38f0f066bfda401092095f2ddd9888191f16644b3f0761002364d8

def nullHmac : Hmac := hmacOf nullBody nullDigest (by decide +kernel) (by decide +kernel)

def nullHeader : Header := headerOf nullDigest (by decide +kernel)

/-- Not every signed request is answered. -/
theorem unanswered_null : ¬ ∀ rt loads hm now secret payload header db,
    verifyStripeSignature hm now payload header secret = .ok true →
      Answered db (stripeWebhook rt loads hm now secret payload header db) := fun h => by
  have hsigned : verifyStripeSignature nullHmac 1700000100 nullBody nullHeader "whsec" =
      .ok true := by decide +kernel
  have hanswered := h wholeAmounts loadsEvent nullHmac 1700000100 "whsec" nullBody nullHeader .empty
    hsigned
  rw [answered_signed _ _ _ _ _ _ _ _ hsigned] at hanswered
  have hloads : loadsEvent nullBody = .json (.obj [("data", .null)]) := by
    unfold loadsEvent
    rw [if_neg (by decide +kernel), if_pos rfl]
  have hraises : handleStripeWebhook wholeAmounts true (loadsEvent nullBody) .empty =
      .error (.python .attributeError) := by
    rw [hloads]
    rfl
  rw [hraises, settles_error] at hanswered
  obtain ⟨detail, hdetail⟩ := hanswered
  cases hdetail

end CloudScale.PaymentService
