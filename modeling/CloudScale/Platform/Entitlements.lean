/-
  Entitlements across three services: the payment service keeps a tenant's plan in `subscriptions`,
  the order service and the catalog read it under `tenant:plan:<tenant>` in a Redis database each.

  The quota of a service is what its own code enforces: the number of rows from which a request is
  refused (`OrderQuota`, `ProductQuota`), the same for every request of the tenant. Nothing in the
  payment service reaches Redis, so a billing request leaves both keys as they are (`Stores.bill`).

  `entitlements_agree_iff`: after any billing requests both quotas are those of the tenant's current
  subscription exactly when both keys name its plan.
-/
import CloudScale.Lib.Alone
import CloudScale.PaymentService.Billing
import CloudScale.CatalogService.Handlers
import CloudScale.OrderService.Handlers

namespace CloudScale.Platform

open CloudScale.Lib CloudScale.Shared CloudScale.PaymentService

/-! ## Plans -/

inductive Plan where
  | free
  | growth
  | enterprise
deriving DecidableEq

/-- The plan that a tier stands for; an unknown tier counts as free. -/
def planOf (tier : String) : Plan :=
  if tier = "growth" then .growth else if tier = "enterprise" then .enterprise else .free

def Plan.limits : Plan → PlanLimits
  | .free => { maxProducts := 10, maxOrders := 15 }
  | .growth => { maxProducts := 100, maxOrders := 200 }
  | .enterprise => { maxProducts := 10000, maxOrders := 20000 }

/-- The three tables of limits are one. -/
theorem planLimits_eq (tier : String) : planLimits tier = (planOf tier).limits ∧
    CatalogService.planLimit tier = (planOf tier).limits.maxProducts ∧
    OrderService.planLimit tier = (planOf tier).limits.maxOrders := by
  unfold planLimits CatalogService.planLimit OrderService.planLimit planOf
  by_cases hgrowth : tier = "growth"
  · simp [hgrowth, Plan.limits]
  · by_cases henterprise : tier = "enterprise"
    · simp [henterprise, Plan.limits]
    · simp [hgrowth, henterprise, Plan.limits]

theorem maxOrders_injective {p q : Plan} (h : p.limits.maxOrders = q.limits.maxOrders) : p = q := by
  cases p <;> cases q <;> first | rfl | simp [Plan.limits] at h

theorem maxProducts_injective {p q : Plan} (h : p.limits.maxProducts = q.limits.maxProducts) :
    p = q := by
  cases p <;> cases q <;> first | rfl | simp [Plan.limits] at h

/-! ## Quotas as enforced -/

section Orders

open CloudScale.OrderService

/-- `create_order` refuses the tenant's checkouts from `limit` orders on. -/
def OrderQuota (plan : Option String) (tenant : String) (limit : ℕ) : Prop :=
  ∀ (tid : ℕ) (c : Checkout) (answers : (q : OrderQuery) → OrderAnswer q) (count : ℕ),
    c.tenant = tenant → c.redis = true → answers (.plan tenant) = plan →
    answers (.count tenant) = count →
    ((∃ message, ((createOrder tid c).exec (fun _ q => answers q) (fun _ x => x) ()).1 =
      .error (.validationException message)) ↔ limit ≤ count)

theorem placeOrder_returns (tid : ℕ) (c : Checkout) (answers : (q : OrderQuery) → OrderAnswer q) :
    ∃ w, ((placeOrder tid c).exec (fun _ q => answers q) (fun _ x => x) ()).1 = .ok w := by
  simp only [placeOrder, getByIdempotencyKey, Txn.query, bind, Txn.bind, Txn.exec]
  generalize answers (.byKey c.payload.idempotencyKey c.tenant) = existing
  rcases (existing : Option Order) with _ | o
  · exact ⟨_, rfl⟩
  · exact ⟨_, rfl⟩

/-- What a checkout compares is the limit of the plan under its Redis key. -/
theorem createOrder_quota (plan : Option String) (tenant : String) :
    OrderQuota plan tenant (planLimit (planTier plan)) := by
  rintro tid c answers count rfl hredis rfl rfl
  simp only [createOrder, redisPlan, countTenantOrders, Txn.query, bind, Txn.bind, Txn.exec, hredis,
    if_true]
  split
  · next hfull => exact iff_of_true ⟨_, rfl⟩ hfull
  · next hroom =>
    obtain ⟨w, hw⟩ := placeOrder_returns tid c answers
    refine iff_of_false (fun ⟨message, hmessage⟩ => ?_) hroom
    cases hw.symm.trans hmessage

/-- A checkout of one item. -/
def someCheckout (tenant : String) : Checkout :=
  { user := .text "user", tenant, now := 0, redis := true, correlationId := none
    payload :=
      { items := [⟨0, 1, 1, Int.one_pos, OrderService.OrderItemCreate.one_unitPrice_pos⟩]
        idempotencyKey := "checkout-key", items_nonempty := nofun, key_length := by decide } }

/-- The answers of a database with `count` orders and no order under the key. -/
def counted (plan : Option String) (count : ℕ) : (q : OrderQuery) → OrderAnswer q
  | .inbox _ => false
  | .order _ => none
  | .stale _ _ => []
  | .plan _ => plan
  | .count _ => count
  | .byKey _ _ => none

/-- The quota is the limit of the plan, and no other number. -/
theorem orderQuota_iff {plan : Option String} {tenant : String} {limit : ℕ} :
    OrderQuota plan tenant limit ↔ limit = planLimit (planTier plan) := by
  refine ⟨fun h => ?_, fun h => h ▸ createOrder_quota plan tenant⟩
  have hsame : ∀ count : ℕ, limit ≤ count ↔ planLimit (planTier plan) ≤ count := fun count =>
    (h 0 (someCheckout tenant) (counted plan count) count rfl rfl rfl rfl).symm.trans
      (createOrder_quota plan tenant 0 (someCheckout tenant) (counted plan count) count
        rfl rfl rfl rfl)
  exact Nat.le_antisymm ((hsame _).mpr (Nat.le_refl _)) ((hsame _).mp (Nat.le_refl _))

end Orders

section Products

open CloudScale.CatalogService

/-- `create_product` refuses the tenant's products from `limit` active products on. -/
def ProductQuota (plan : Option String) (tenant : String) (limit : ℕ) : Prop :=
  ∀ (rt : CatalogService.Runtime) (tid : ℕ) (c : NewProduct)
    (answers : (q : CatalogQuery) → CatalogAnswer q) (count : ℕ),
    c.tenant = tenant → c.redis = true → answers (.plan tenant) = plan →
    answers (.countActive tenant) = count →
    ((∃ message, ((createProduct rt tid c).exec (fun _ q => answers q) (fun _ x => x) ()).1 =
      .error (.validationException message)) ↔ limit ≤ count)

theorem addProduct_unrefused (rt : CatalogService.Runtime) (tid : ℕ) (c : NewProduct)
    (answers : (q : CatalogQuery) → CatalogAnswer q) (message : String) :
    ((addProduct rt tid c).exec (fun _ q => answers q) (fun _ x => x) ()).1 ≠
      .error (.validationException message) := by
  simp only [addProduct, skuCount, CatalogService.flush, Txn.query, bind, Txn.bind, Txn.exec]
  split
  · simp [Txn.exec]
  · simp only [Txn.exec]
    split
    · simp [invalidateListCaches, CatalogService.redisUp, evictLists, Txn.query, bind, Txn.bind,
        Txn.exec, pure]
    · simp [Txn.exec]

theorem createProduct_quota (plan : Option String) (tenant : String) :
    ProductQuota plan tenant (planLimit (planTier plan)) := by
  rintro rt tid c answers count rfl hredis rfl rfl
  simp only [createProduct, resolveTier, redisPlan, countTenantProducts, Txn.query, bind, Txn.bind,
    Txn.exec, pure, hredis, if_true]
  split
  · next hfull => exact iff_of_true ⟨_, rfl⟩ hfull
  · next hroom =>
    refine iff_of_false (fun ⟨message, hmessage⟩ => ?_) hroom
    exact addProduct_unrefused rt tid c answers message hmessage

/-- A product of the tenant. -/
def anyProduct (tenant : String) : NewProduct :=
  { tenant, redis := true
    payload := { sku := "sku-0", name := "lamp", description := none, price := 1
                 sku_length := CatalogService.ProductCreate.sku_0_length
                 name_length := CatalogService.ProductCreate.lamp_length
                 price_pos := CatalogService.ProductCreate.one_price_pos } }

/-- The answers of a catalog with `count` active products. -/
def stocked (plan : Option String) (count : ℕ) : (q : CatalogQuery) → CatalogAnswer q
  | .plan _ => plan
  | .countActive _ => count
  | q => ({} : CatalogEnv).answer {} .empty q

theorem productQuota_iff {plan : Option String} {tenant : String} {limit : ℕ} :
    ProductQuota plan tenant limit ↔ limit = planLimit (planTier plan) := by
  refine ⟨fun h => ?_, fun h => h ▸ createProduct_quota plan tenant⟩
  have hsame : ∀ count : ℕ, limit ≤ count ↔ planLimit (planTier plan) ≤ count := fun count =>
    (h ⟨id, toString⟩ 0 (anyProduct tenant) (stocked plan count) count rfl rfl rfl rfl).symm.trans
      (createProduct_quota plan tenant ⟨id, toString⟩ 0 (anyProduct tenant) (stocked plan count)
        count rfl rfl rfl rfl)
  exact Nat.le_antisymm ((hsame _).mpr (Nat.le_refl _)) ((hsame _).mp (Nat.le_refl _))

end Products

/-! ## The three stores -/

/-- The billing database and the two Redis databases with the plan keys, by tenant. -/
structure Stores where
  billing : BillingDb
  orderPlans : String → Option String
  catalogPlans : String → Option String

/-- The payment service handles a request. -/
def Stores.bill (rt : StripeRuntime) (s : Stores) (r : BillingRequest) : Stores :=
  { s with billing := s.billing.after (r.handle rt s.billing) }

/-- Both services enforce what the tenant's subscription grants. -/
def Agree (s : Stores) (tenant : String) : Prop :=
  OrderQuota (s.orderPlans tenant) tenant (getEntitlements tenant s.billing).limits.maxOrders ∧
    ProductQuota (s.catalogPlans tenant) tenant
      (getEntitlements tenant s.billing).limits.maxProducts

/-- Both plan keys name the plan of the tenant's subscription. -/
def Published (s : Stores) (tenant : String) : Prop :=
  planOf (OrderService.planTier (s.orderPlans tenant)) = planOf (currentTier s.billing tenant) ∧
    planOf (CatalogService.planTier (s.catalogPlans tenant)) =
      planOf (currentTier s.billing tenant)

theorem agree_iff {s : Stores} {tenant : String} : Agree s tenant ↔ Published s tenant := by
  obtain ⟨hbilling, -, -⟩ := planLimits_eq (currentTier s.billing tenant)
  obtain ⟨-, -, horders⟩ := planLimits_eq (OrderService.planTier (s.orderPlans tenant))
  obtain ⟨-, hproducts, -⟩ := planLimits_eq (CatalogService.planTier (s.catalogPlans tenant))
  unfold Agree getEntitlements
  rw [orderQuota_iff, productQuota_iff, hbilling, horders, hproducts]
  refine and_congr ⟨fun h => ?_, fun h => ?_⟩ ⟨fun h => ?_, fun h => ?_⟩
  · exact (maxOrders_injective h).symm
  · rw [h]
  · exact (maxProducts_injective h).symm
  · rw [h]

/-- The tier that the requests leave a tenant with. -/
def tierAfter (rt : StripeRuntime) (s : Stores) (rs : List BillingRequest) (tenant : String) :
    String :=
  (rs.foldl (fun current r => r.tier rt tenant current) (tierIn s.billing tenant)).getD "free"

/-- Billing requests set the tiers that they name and publish nothing. -/
theorem foldl_bill (rt : StripeRuntime) (s : Stores) (rs : List BillingRequest) :
    (rs.foldl (Stores.bill rt) s).orderPlans = s.orderPlans ∧
      (rs.foldl (Stores.bill rt) s).catalogPlans = s.catalogPlans ∧
      ∀ tenant, currentTier (rs.foldl (Stores.bill rt) s).billing tenant =
        tierAfter rt s rs tenant := by
  induction rs generalizing s with
  | nil => exact ⟨rfl, rfl, fun tenant => rfl⟩
  | cons r rs ih =>
    obtain ⟨horder, hcatalog, htier⟩ := ih (s.bill rt r)
    refine ⟨horder, hcatalog, fun tenant => (htier tenant).trans ?_⟩
    have hstep : tierIn (s.bill rt r).billing tenant = r.tier rt tenant (tierIn s.billing tenant) :=
      tierIn_handle rt r
    unfold tierAfter
    rw [hstep, List.foldl_cons]

/-- The quotas agree with the subscription exactly when both keys name the plan that the billing
    requests have left. -/
theorem entitlements_agree_iff (rt : StripeRuntime) (s : Stores) (rs : List BillingRequest)
    (tenant : String) :
    Agree (rs.foldl (Stores.bill rt) s) tenant ↔
      planOf (OrderService.planTier (s.orderPlans tenant)) = planOf (tierAfter rt s rs tenant) ∧
        planOf (CatalogService.planTier (s.catalogPlans tenant)) =
          planOf (tierAfter rt s rs tenant) := by
  obtain ⟨horder, hcatalog, htier⟩ := foldl_bill rt s rs
  rw [agree_iff, Published, horder, hcatalog, htier]

/-- A runtime that knows integers and ASCII. -/
def asciiRuntime : StripeRuntime where
  decimal
    | .int n => some (.finite n)
    | _ => none
  upper := String.toUpper

/-- After an upgrade to growth the order quota is still that of the free plan. -/
theorem upgrade_not_published :
    ¬ Agree ([.updateSubscription "tenant-a" "growth"].foldl (Stores.bill asciiRuntime)
      { billing := .empty, orderPlans := fun _ => none, catalogPlans := fun _ => none })
      "tenant-a" := by
  rintro ⟨horders, -⟩
  have hlimit := orderQuota_iff.mp horders
  have hfree : OrderService.planLimit (OrderService.planTier none) = 15 := by decide
  have hgrowth : (getEntitlements "tenant-a"
      ([.updateSubscription "tenant-a" "growth"].foldl (Stores.bill asciiRuntime)
        { billing := .empty, orderPlans := fun _ => none, catalogPlans := fun _ => none }).billing
      ).limits.maxOrders = 200 := by decide +kernel
  rw [hgrowth] at hlimit
  exact absurd (hlimit.trans hfree) (by decide)

end CloudScale.Platform
