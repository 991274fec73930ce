/-
  Subscriptions and invoices (`payment/app/router.py`).

  A request runs in one session: what it committed stays, and an exception before the commit leaves
  the database as it was. The webhook reads an arbitrary JSON value, so every access may raise
  (`readEvent`); the comparison of `tenant_id` with a value that is not a string, or with a text
  that has a NUL, fails in the database. `StripeRuntime` has the number parsing and the upper-casing
  of Python.

  `currentTier` is what the entitlements of a tenant follow. `BillingRequest.tier` says what a
  request makes of it, and `tierIn_handle` that the endpoints do so.
-/
import Mathlib.Algebra.Order.Ring.Rat
import Mathlib.Algebra.Order.Group.Unbundled.Abs
import CloudScale.Lib.Table
import CloudScale.Shared.Columns
import CloudScale.Shared.JsonAccess

namespace CloudScale.PaymentService

open CloudScale.Lib CloudScale.Shared

/-! ## Rows -/

structure Subscription where
  tenantId : String
  planTier : String := "free"
  status : String := "active"
deriving DecidableEq

/-- A `Decimal`; the parser also accepts the non-finite ones. -/
inductive PyDecimal where
  | finite (q : ℚ)
  | infinite
  | nan
deriving DecidableEq

structure Invoice where
  tenantId : String
  amount : PyDecimal
  currency : String := "USD"
  status : String := "paid"
deriving DecidableEq

/-- `tenant_id` is unique. -/
abbrev Subscriptions := Table String Subscription Subscription.tenantId

structure BillingDb where
  subscriptions : Subscriptions
  invoices : List Invoice

def BillingDb.empty : BillingDb := { subscriptions := .empty, invoices := [] }

structure PlanLimits where
  maxProducts : ℕ
  maxOrders : ℕ
deriving DecidableEq

/-- `PLAN_LIMITS.get(tier, PLAN_LIMITS["free"])`. -/
def planLimits (tier : String) : PlanLimits :=
  if tier = "growth" then { maxProducts := 100, maxOrders := 200 }
  else if tier = "enterprise" then { maxProducts := 10000, maxOrders := 20000 }
  else { maxProducts := 10, maxOrders := 15 }

/-! ## Exceptions and the runtime -/

inductive BillingExc where
  | httpException (statusCode : ℕ) (detail : String)
  | python (e : PyError)
  | unicodeDecodeError
  | invalidOperation
  | databaseError
deriving DecidableEq

/-- `Decimal(str(value))`, where it is a number, and `str.upper`. -/
structure StripeRuntime where
  decimal : Json → Option PyDecimal
  upper : String → String

/-- What `json.loads` makes of a request body. -/
inductive Body where
  | undecodable
  | invalid
  | json (value : Json)

/-- An exception of an access, as it leaves the handler. -/
def access {α : Type} : Except PyError α → Except BillingExc α
  | .ok a => .ok a
  | .error e => .error (.python e)

/-! ## Storing -/

/-- The row fits its columns. -/
def Subscription.storable (s : Subscription) : Bool := fitsText 100 s.tenantId

/-- A number of the column `amount`. -/
def PyDecimal.fits : PyDecimal → Bool
  | .finite q => fitsNumeric q
  | .infinite => false
  | .nan => true

def Invoice.storable (i : Invoice) : Bool :=
  fitsText 100 i.tenantId && i.amount.fits && fitsText 10 i.currency

/-- `select(Subscription).where(Subscription.tenant_id == tenant)`. -/
def BillingDb.selectTenant (db : BillingDb) (tenant : String) :
    Except BillingExc (Option Subscription) :=
  if hasNul tenant then .error .databaseError else .ok (db.subscriptions.get tenant)

/-- The same query for what a webhook gives as the tenant. -/
def selectSubscription (db : BillingDb) : Json → Except BillingExc (Option Subscription)
  | .str tenant => db.selectTenant tenant
  | .null => .ok none
  | _ => .error .databaseError

def Subscription.withPlan (planTier status : String) (s : Subscription) : Subscription :=
  { s with planTier, status }

def Subscription.withStatus (status : String) (s : Subscription) : Subscription :=
  { s with status }

theorem tenantId_withPlan (planTier status : String) (s : Subscription) :
    (s.withPlan planTier status).tenantId = s.tenantId := rfl

theorem tenantId_withStatus (status : String) (s : Subscription) :
    (s.withStatus status).tenantId = s.tenantId := rfl

/-- `sub.plan_tier = ..; sub.status = ..`. -/
def BillingDb.setPlan (db : BillingDb) (tenant planTier status : String) : BillingDb :=
  { db with subscriptions :=
      db.subscriptions.modify tenant (.withPlan planTier status) (tenantId_withPlan _ _) }

/-- `sub.status = ..`. -/
def BillingDb.setStatus (db : BillingDb) (tenant status : String) : BillingDb :=
  { db with subscriptions :=
      db.subscriptions.modify tenant (.withStatus status) (tenantId_withStatus _) }

/-- A new subscription is committed. -/
def BillingDb.addSubscription (db : BillingDb) (s : Subscription) : Except BillingExc BillingDb :=
  if s.storable then match db.subscriptions.extend [s] with
    | some subscriptions => .ok { db with subscriptions }
    | none => .error .databaseError
  else .error .databaseError

def BillingDb.addInvoice (db : BillingDb) (i : Invoice) : Except BillingExc BillingDb :=
  if i.storable then .ok { db with invoices := db.invoices ++ [i] } else .error .databaseError

/-- The subscription gets the plan, and is created if there is none. -/
def BillingDb.provision (db : BillingDb) (tenant planTier : String) :
    Except BillingExc BillingDb := do
  match ← db.selectTenant tenant with
  | some _ => return db.setPlan tenant planTier "active"
  | none => db.addSubscription { tenantId := tenant, planTier, status := "active" }

/-! ## Endpoints -/

structure ActiveSubscription where
  tenantId : String
  planTier : String
  status : String
  limits : PlanLimits
deriving DecidableEq

/-- `get_active_subscription`. -/
def getActiveSubscription (tenant : String) (db : BillingDb) :
    Except BillingExc (ActiveSubscription × BillingDb) := do
  match ← db.selectTenant tenant with
  | some sub => return (⟨sub.tenantId, sub.planTier, sub.status, planLimits sub.planTier⟩, db)
  | none =>
    let sub : Subscription := { tenantId := tenant, planTier := "free", status := "active" }
    let db ← db.addSubscription sub
    return (⟨sub.tenantId, sub.planTier, sub.status, planLimits sub.planTier⟩, db)

/-- `invoice_amounts`. -/
def invoiceAmount (planTier : String) : ℚ :=
  if planTier = "growth" then 49 else if planTier = "enterprise" then 299 else 0

/-- `update_subscription`; returns the tier of its answer. -/
def updateSubscription (tenant planTier : String) (db : BillingDb) :
    Except BillingExc (String × BillingDb) :=
  if planTier ∈ ["free", "growth", "enterprise"] then do
    let db ← db.provision tenant planTier
    let db ← db.addInvoice { tenantId := tenant, amount := .finite (invoiceAmount planTier) }
    return (planTier, db)
  else .error (.httpException 400 "Invalid plan tier specified")

structure Entitlements where
  tenantId : String
  planTier : String
  limits : PlanLimits
deriving DecidableEq

/-- `sub.plan_tier if sub else "free"`. -/
def currentTier (db : BillingDb) (tenant : String) : String :=
  ((db.subscriptions.get tenant).map (·.planTier)).getD "free"

/-- `get_entitlements`, of a tenant id that the database can compare. -/
def getEntitlements (tenant : String) (db : BillingDb) : Entitlements :=
  { tenantId := tenant, planTier := currentTier db tenant
    limits := planLimits (currentTier db tenant) }

/-! ## The webhook -/

/-- `STRIPE_PRICE_TO_TIER.get(price_id, "free")`; a list or a dict cannot be a key. -/
def stripePriceToTier : Json → Except PyError String
  | .str "price_growth_monthly" => .ok "growth"
  | .str "price_enterprise_monthly" => .ok "enterprise"
  | .arr _ => .error .typeError
  | .obj _ => .error .typeError
  | _ => .ok "free"

/-- The tier of `event_data["items"]["data"][0]["price"]["id"]`. -/
def tierOf (eventData : Json) : Except PyError String := do
  let items ← eventData.get "items" (.obj [])
  let data ← items.get "data" (.arr [.obj []])
  let item ← data.first
  let price ← item.get "price" (.obj [])
  let priceId ← price.get "id" (.str "")
  stripePriceToTier priceId

/-- `currency.upper()`. -/
def upperCase (rt : StripeRuntime) : Json → Except PyError String
  | .str s => .ok (rt.upper s)
  | _ => .error .attributeError

/-- `amount / 100`. -/
def PyDecimal.cents : PyDecimal → PyDecimal
  | .finite q => .finite (q / 100)
  | d => d

/-- What a signed event asks for. -/
inductive StripeAction where
  | subscriptionCreated (tier : String)
  | subscriptionUpdated (tier : String) (cancelAtPeriodEnd : Bool)
  | paymentSucceeded (amount : PyDecimal) (currency : String)
  | paymentFailed
  | unhandled
deriving DecidableEq

/-- A signed event with the tenant it names. -/
structure StripeEvent where
  tenantId : Json
  action : StripeAction

/-- The part of the handler that reads the event. -/
def readEvent (rt : StripeRuntime) (event : Json) : Except BillingExc StripeEvent := do
  let eventType ← access (event.get "type" (.str ""))
  let data ← access (event.get "data" (.obj []))
  let eventData ← access (data.get "object" (.obj []))
  let metadata ← access (eventData.get "metadata" (.obj []))
  let tenantId ← access (metadata.get "tenant_id" (.str "unknown"))
  match eventType with
  | .str "customer.subscription.created" =>
    return ⟨tenantId, .subscriptionCreated (← access (tierOf eventData))⟩
  | .str "customer.subscription.updated" =>
    let cancel ← access (eventData.get "cancel_at_period_end" (.bool false))
    return ⟨tenantId, .subscriptionUpdated (← access (tierOf eventData)) cancel.truthy⟩
  | .str "invoice.payment_succeeded" =>
    match rt.decimal (← access (eventData.get "amount_paid" (.int 0))) with
    | none => .error .invalidOperation
    | some amount =>
      let currency ← access (eventData.get "currency" (.str "usd"))
      return ⟨tenantId, .paymentSucceeded amount.cents (← access (upperCase rt currency))⟩
  | .str "invoice.payment_failed" => return ⟨tenantId, .paymentFailed⟩
  | _ => return ⟨tenantId, .unhandled⟩

/-- The part of the handler that writes. -/
def applyEvent (e : StripeEvent) (db : BillingDb) : Except BillingExc BillingDb :=
  match e.action with
  | .subscriptionCreated tier => match e.tenantId with
    | .str tenant => db.provision tenant tier
    | _ => .error .databaseError
  | .subscriptionUpdated tier cancel => do
    match ← selectSubscription db e.tenantId with
    | some sub => return db.setPlan sub.tenantId tier (if cancel then "cancelled" else "active")
    | none => return db
  | .paymentSucceeded amount currency =>
    match e.tenantId with
    | .str tenant => db.addInvoice { tenantId := tenant, amount, currency, status := "paid" }
    | _ => .error .databaseError
  | .paymentFailed => do
    match ← selectSubscription db e.tenantId with
    | some sub => return db.setStatus sub.tenantId "past_due"
    | none => return db
  | .unhandled => return db

/-- `handle_stripe_webhook`; `verified` is what `verify_stripe_signature` says. -/
def handleStripeWebhook (rt : StripeRuntime) (verified : Bool) (body : Body) (db : BillingDb) :
    Except BillingExc BillingDb :=
  if verified then match body with
    | .undecodable => .error .unicodeDecodeError
    | .invalid => .error (.httpException 400 "Invalid JSON payload")
    | .json event => do applyEvent (← readEvent rt event) db
  else .error (.httpException 400 "Invalid webhook signature")

/-! ## Requests -/

inductive BillingRequest where
  | getActiveSubscription (tenant : String)
  | updateSubscription (tenant planTier : String)
  | stripeWebhook (verified : Bool) (body : Body)

def BillingRequest.handle (rt : StripeRuntime) (db : BillingDb) :
    BillingRequest → Except BillingExc BillingDb
  | .getActiveSubscription tenant => (PaymentService.getActiveSubscription tenant db).map (·.2)
  | .updateSubscription tenant planTier =>
    (PaymentService.updateSubscription tenant planTier db).map (·.2)
  | .stripeWebhook verified body => handleStripeWebhook rt verified body db

/-- The database after a transaction; an exception rolls it back. -/
def BillingDb.after (db : BillingDb) : Except BillingExc BillingDb → BillingDb
  | .ok db' => db'
  | .error _ => db

/-! ## Tiers -/

/-- The tier of a tenant that has a subscription. -/
def tierIn (db : BillingDb) (tenant : String) : Option String :=
  (db.subscriptions.get tenant).map (·.planTier)

/-- The tier of a tenant after a signed event, from the one before. -/
def StripeEvent.tier (tenant : String) (current : Option String) : StripeEvent → Option String
  | ⟨.str t, .subscriptionCreated planTier⟩ =>
    if t = tenant ∧ hasNul t = false ∧ (current.isSome = true ∨ t.length ≤ 100) then some planTier
    else current
  | ⟨.str t, .subscriptionUpdated planTier _⟩ =>
    if t = tenant ∧ hasNul t = false then current.map fun _ => planTier else current
  | _ => current

/-- The tier of a tenant after a request, from the one before. -/
def BillingRequest.tier (rt : StripeRuntime) (tenant : String) (current : Option String) :
    BillingRequest → Option String
  | .getActiveSubscription t =>
    if t = tenant ∧ fitsText 100 t = true then some (current.getD "free") else current
  | .updateSubscription t planTier =>
    if t = tenant ∧ fitsText 100 t = true ∧ planTier ∈ ["free", "growth", "enterprise"] then
      some planTier
    else current
  | .stripeWebhook true (.json event) => match readEvent rt event with
    | .ok e => e.tier tenant current
    | .error _ => current
  | _ => current

variable {db db' : BillingDb} {tenant t planTier status : String}

theorem tierIn_setPlan : tierIn (db.setPlan tenant planTier status) t =
    if t = tenant then (tierIn db t).map fun _ => planTier else tierIn db t := by
  unfold tierIn BillingDb.setPlan
  rw [Table.get_modify]
  split
  · rw [Option.map_map, Option.map_map]
    rfl
  · rfl

theorem tierIn_setStatus : tierIn (db.setStatus tenant status) t = tierIn db t := by
  unfold tierIn BillingDb.setStatus
  rw [Table.get_modify]
  split
  · rw [Option.map_map]
    rfl
  · rfl

theorem addSubscription_new {s : Subscription} (hnone : db.subscriptions.get s.tenantId = none)
    (hfits : s.storable = true) : ∃ db', db.addSubscription s = .ok db' ∧
      ∀ t, tierIn db' t = if t = s.tenantId then some s.planTier else tierIn db t := by
  obtain ⟨subscriptions, hext⟩ := Table.extend_eq_some (Table.get_eq_none_iff.mp hnone)
  refine ⟨{ db with subscriptions }, ?_, fun t => ?_⟩
  · unfold BillingDb.addSubscription
    rw [if_pos hfits, hext]
  · unfold tierIn
    rw [Table.get_extend hext]
    by_cases ht : t = s.tenantId
    · subst ht
      simp [hnone]
    · simp [ht, Ne.symm ht]

theorem selectTenant_of_nul (h : hasNul tenant = true) :
    db.selectTenant tenant = .error .databaseError := if_pos h

theorem selectTenant_of_text (h : hasNul tenant = false) :
    db.selectTenant tenant = .ok (db.subscriptions.get tenant) :=
  if_neg (by rw [h]; exact Bool.false_ne_true)

theorem provision_of_nul (h : hasNul tenant = true) :
    db.provision tenant planTier = .error .databaseError := by
  unfold BillingDb.provision
  rw [selectTenant_of_nul h]
  rfl

theorem provision_of_text (h : hasNul tenant = false) : db.provision tenant planTier =
    match db.subscriptions.get tenant with
    | some _ => .ok (db.setPlan tenant planTier "active")
    | none => db.addSubscription { tenantId := tenant, planTier, status := "active" } := by
  unfold BillingDb.provision
  rw [selectTenant_of_text h]
  rfl

/-- A subscription is provisioned for a tenant that has one or whose id fits the column. -/
theorem after_provision (t : String) : tierIn (db.after (db.provision tenant planTier)) t =
    if tenant = t ∧ hasNul tenant = false ∧
      ((tierIn db t).isSome = true ∨ tenant.length ≤ 100) then some planTier
    else tierIn db t := by
  cases hnul : hasNul tenant with
  | true =>
    rw [provision_of_nul hnul]
    simp [BillingDb.after]
  | false =>
    rw [provision_of_text hnul]
    cases hget : db.subscriptions.get tenant with
    | some sub =>
      show tierIn (db.setPlan tenant planTier "active") t = _
      rw [tierIn_setPlan]
      by_cases ht : t = tenant
      · subst ht
        simp [tierIn, hget]
      · simp [ht, Ne.symm ht]
    | none =>
      by_cases hlength : tenant.length ≤ 100
      · have hfits : Subscription.storable { tenantId := tenant, planTier, status := "active" } =
            true := fitsText_iff.mpr ⟨hlength, hnul⟩
        obtain ⟨db', hadd, htier⟩ := addSubscription_new hget hfits
        show tierIn (db.after (db.addSubscription _)) t = _
        rw [hadd]
        show tierIn db' t = _
        rw [htier]
        by_cases ht : t = tenant
        · simp [ht, hlength]
        · simp [ht, Ne.symm ht]
      · have hunfit : db.addSubscription { tenantId := tenant, planTier, status := "active" } =
            .error .databaseError := by
          unfold BillingDb.addSubscription Subscription.storable
          rw [if_neg (mt fitsText_iff.mp fun h => hlength h.1)]
        show tierIn (db.after (db.addSubscription _)) t = _
        rw [hunfit]
        show tierIn db t = _
        by_cases ht : tenant = t
        · subst ht
          simp [tierIn, hget, hlength]
        · simp [ht]

theorem after_getActive (rt : StripeRuntime) :
    tierIn (db.after ((BillingRequest.getActiveSubscription tenant).handle rt db)) t =
      if tenant = t ∧ fitsText 100 tenant = true then some ((tierIn db t).getD "free")
      else tierIn db t := by
  show tierIn (db.after ((getActiveSubscription tenant db).map (·.2))) t = _
  cases hnul : hasNul tenant with
  | true =>
    have hunfit : fitsText 100 tenant ≠ true := fun h => by simp [(fitsText_iff.mp h).2] at hnul
    unfold getActiveSubscription
    rw [selectTenant_of_nul hnul, if_neg fun h => hunfit h.2]
    rfl
  | false =>
    cases hget : db.subscriptions.get tenant with
    | some sub =>
      have hsame : (getActiveSubscription tenant db).map Prod.snd = .ok db := by
        unfold getActiveSubscription
        rw [selectTenant_of_text hnul, hget]
        rfl
      rw [hsame]
      show tierIn db t = _
      split
      · next h => simp [tierIn, ← h.1, hget]
      · rfl
    | none =>
      have hprovision : (getActiveSubscription tenant db).map Prod.snd =
          db.provision tenant "free" := by
        unfold getActiveSubscription
        rw [selectTenant_of_text hnul, provision_of_text hnul, hget]
        show Except.map Prod.snd (db.addSubscription _ >>= _) = db.addSubscription _
        cases db.addSubscription { tenantId := tenant, planTier := "free", status := "active" } <;>
          rfl
      rw [hprovision, after_provision]
      by_cases ht : tenant = t
      · subst ht
        simp [tierIn, hget, fitsText_iff, hnul]
      · simp [ht]

theorem planInvoice_storable :
    Invoice.storable { tenantId := tenant, amount := .finite (invoiceAmount planTier) } =
      fitsText 100 tenant := by
  have hamount : (PyDecimal.finite (invoiceAmount planTier)).fits = true := by
    unfold invoiceAmount
    split
    · decide +kernel
    · split <;> decide +kernel
  have hcurrency : fitsText 10 "USD" = true := by decide
  unfold Invoice.storable
  rw [hamount, hcurrency, Bool.and_true, Bool.and_true]

theorem provision_ok (hfits : fitsText 100 tenant = true) :
    ∃ db', db.provision tenant planTier = .ok db' := by
  rw [provision_of_text (fitsText_iff.mp hfits).2]
  cases hget : db.subscriptions.get tenant with
  | some sub => exact ⟨_, rfl⟩
  | none =>
    have hstorable : Subscription.storable { tenantId := tenant, planTier, status := "active" } =
        true := hfits
    obtain ⟨db', hadd, -⟩ := addSubscription_new hget hstorable
    exact ⟨db', hadd⟩

/-- The subscription and its invoice are committed together. -/
theorem after_update (rt : StripeRuntime) :
    tierIn (db.after ((BillingRequest.updateSubscription tenant planTier).handle rt db)) t =
      if tenant = t ∧ fitsText 100 tenant = true ∧ planTier ∈ ["free", "growth", "enterprise"] then
        some planTier
      else tierIn db t := by
  show tierIn (db.after ((updateSubscription tenant planTier db).map (·.2))) t = _
  unfold updateSubscription
  by_cases hvalid : planTier ∈ ["free", "growth", "enterprise"]
  · rw [if_pos hvalid]
    by_cases hfits : fitsText 100 tenant = true
    · obtain ⟨hlength, hnul⟩ := fitsText_iff.mp hfits
      obtain ⟨db', hprovision⟩ : ∃ db', db.provision tenant planTier = .ok db' :=
        provision_ok hfits
      have htier : tierIn (db.after (db.provision tenant planTier)) t = _ := after_provision t
      rw [hprovision] at htier ⊢
      simp only [bind, Except.bind, BillingDb.addInvoice, planInvoice_storable, hfits, if_true,
        pure, Except.pure, Except.map]
      show tierIn db' t = _
      simpa [hlength, hnul, hvalid, BillingDb.after] using htier
    · rw [if_neg fun h => hfits h.2.1]
      cases db.provision tenant planTier with
      | error e => rfl
      | ok db' => simp [bind, Except.bind, BillingDb.addInvoice, planInvoice_storable, hfits,
          Except.map, BillingDb.after]
  · rw [if_neg hvalid, if_neg fun h => hvalid h.2.2]
    rfl

/-- A tenant id with a NUL is refused by every statement that names it. -/
theorem applyEvent_of_nul (action : StripeAction) (haction : action ≠ .unhandled)
    (hnul : hasNul tenant = true) :
    applyEvent ⟨.str tenant, action⟩ db = .error .databaseError := by
  have hselect : selectSubscription db (.str tenant) = .error .databaseError :=
    selectTenant_of_nul hnul
  cases action with
  | subscriptionCreated planTier => exact provision_of_nul hnul
  | subscriptionUpdated planTier cancel =>
    show (selectSubscription db (.str tenant) >>= _) = _
    rw [hselect]
    rfl
  | paymentSucceeded amount currency =>
    have hunfit : Invoice.storable { tenantId := tenant, amount, currency, status := "paid" } =
        false := by simp [Invoice.storable, fitsText, hnul]
    show db.addInvoice _ = _
    rw [BillingDb.addInvoice, hunfit]
    rfl
  | paymentFailed =>
    show (selectSubscription db (.str tenant) >>= _) = _
    rw [hselect]
    rfl
  | unhandled => exact absurd rfl haction

theorem applyEvent_updated (cancel : Bool) (hnul : hasNul tenant = false) :
    applyEvent ⟨.str tenant, .subscriptionUpdated planTier cancel⟩ db =
      match db.subscriptions.get tenant with
      | some sub =>
        .ok (db.setPlan sub.tenantId planTier (if cancel then "cancelled" else "active"))
      | none => .ok db := by
  show (db.selectTenant tenant >>= _) = _
  rw [selectTenant_of_text hnul]
  rfl

theorem applyEvent_failed (hnul : hasNul tenant = false) :
    applyEvent ⟨.str tenant, .paymentFailed⟩ db =
      match db.subscriptions.get tenant with
      | some sub => .ok (db.setStatus sub.tenantId "past_due")
      | none => .ok db := by
  show (db.selectTenant tenant >>= _) = _
  rw [selectTenant_of_text hnul]
  rfl

/-- What an event does to the tiers. -/
theorem after_applyEvent (e : StripeEvent) :
    tierIn (db.after (applyEvent e db)) t = e.tier t (tierIn db t) := by
  obtain ⟨tenantId, action⟩ := e
  cases action with
  | subscriptionCreated planTier =>
    cases tenantId with
    | str tenant => exact after_provision t
    | _ => rfl
  | subscriptionUpdated planTier cancel =>
    cases tenantId with
    | str tenant =>
      show _ = if tenant = t ∧ hasNul tenant = false then _ else tierIn db t
      cases hnul : hasNul tenant with
      | true =>
        rw [applyEvent_of_nul (.subscriptionUpdated planTier cancel) nofun hnul]
        simp [BillingDb.after]
      | false =>
        rw [applyEvent_updated cancel hnul]
        cases hget : db.subscriptions.get tenant with
        | none =>
          show tierIn db t = _
          by_cases ht : tenant = t
          · simp [tierIn, ← ht, hget]
          · simp [ht]
        | some sub =>
          have hkey : sub.tenantId = tenant := Table.get_key hget
          show tierIn (db.setPlan sub.tenantId planTier _) t = _
          rw [tierIn_setPlan, hkey]
          by_cases ht : tenant = t
          · simp [ht]
          · simp [ht, Ne.symm ht]
    | _ => rfl
  | paymentSucceeded amount currency =>
    cases tenantId with
    | str tenant =>
      show tierIn (db.after (db.addInvoice _)) t = _
      unfold BillingDb.addInvoice
      split <;> rfl
    | _ => rfl
  | paymentFailed =>
    cases tenantId with
    | str tenant =>
      cases hnul : hasNul tenant with
      | true =>
        rw [applyEvent_of_nul .paymentFailed nofun hnul]
        rfl
      | false =>
        rw [applyEvent_failed hnul]
        cases hget : db.subscriptions.get tenant with
        | none => rfl
        | some sub =>
          show tierIn (db.setStatus sub.tenantId "past_due") t = _
          exact tierIn_setStatus
    | _ => rfl
  | unhandled => cases tenantId <;> rfl

/-- The endpoints do to the tiers what their requests say. -/
theorem tierIn_handle (rt : StripeRuntime) (r : BillingRequest) :
    tierIn (db.after (r.handle rt db)) t = r.tier rt t (tierIn db t) := by
  cases r with
  | getActiveSubscription tenant => exact after_getActive rt
  | updateSubscription tenant planTier => exact after_update rt
  | stripeWebhook verified body =>
    show tierIn (db.after (handleStripeWebhook rt verified body db)) t = _
    cases verified with
    | false => rfl
    | true =>
      cases body with
      | undecodable => rfl
      | invalid => rfl
      | json event =>
        show tierIn (db.after ((readEvent rt event).bind fun e => applyEvent e db)) t =
          match readEvent rt event with
          | .ok e => e.tier t (tierIn db t)
          | .error _ => tierIn db t
        cases readEvent rt event with
        | error e => rfl
        | ok e => exact after_applyEvent e

end CloudScale.PaymentService
