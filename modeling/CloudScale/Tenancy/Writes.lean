/-
  Writes of one tenant, and the other tenants' rows.

  `create_order` and `create_product` look an existing key up among the tenant's own rows, but the
  indexes on `idempotency_key` and `sku` are unique over all tenants. `writes_noninterference`: two
  databases that agree on the tenant's rows give the request the same outcome, and agree on the
  tenant's rows afterwards, exactly when in both of them, or in neither, the request gets as far as
  its insertion and finds the key with another tenant (`KeyBlocked`, `SkuBlocked`).
-/
import CloudScale.Lib.Alone
import CloudScale.Lib.Owned
import CloudScale.OrderService.Idempotency
import CloudScale.CatalogService.Handlers

namespace CloudScale.Tenancy

open CloudScale.Lib
open CloudScale.Shared (Exc Outcome)

/-! ## Orders -/

section Orders

open OrderService

variable {B : String} {tid : ℕ} {ω : OrderEnv} {c : Checkout} {db db₁ db₂ : OrderDb}

/-- The tenant's orders are as many as the plan allows. -/
def QuotaReached (ω : OrderEnv) (c : Checkout) (db : OrderDb) : Prop :=
  c.redis = true ∧ planLimit (planTier ω.plan) ≤
    db.orders.rows.countP fun o => o.tenantId == c.tenant

instance (ω : OrderEnv) (c : Checkout) (db : OrderDb) : Decidable (QuotaReached ω c db) :=
  inferInstanceAs (Decidable (_ ∧ _))

/-- The request inserts an order whose key another tenant has used. -/
def KeyBlocked (ω : OrderEnv) (tid : ℕ) (c : Checkout) (db : OrderDb) : Prop :=
  ¬ QuotaReached ω c db ∧ db.orderByKey c.payload.idempotencyKey c.tenant = none ∧
    (placed tid c).storable = true ∧
    ∃ o ∈ db.orders.rows, o.idempotencyKey = c.payload.idempotencyKey ∧ o.tenantId ≠ c.tenant

/-- The databases agree on the tenant's orders; keys are unique in both, and the identifiers that
    the transaction draws are new to both. -/
structure OrderStates (B : String) (tid : ℕ) (db₁ db₂ : OrderDb) : Prop where
  agree : Agree (·.tenantId) B db₁.orders db₂.orders
  keys₁ : (db₁.orders.rows.map (·.idempotencyKey)).Nodup
  keys₂ : (db₂.orders.rows.map (·.idempotencyKey)).Nodup
  undrawn₁ : Undrawn db₁ tid
  undrawn₂ : Undrawn db₂ tid

/-- What `create_order` computes when it runs alone. -/
def checkoutResult (ω : OrderEnv) (tid : ℕ) (c : Checkout) (db : OrderDb) :
    Except Exc (Outcome OrderWrites) :=
  if QuotaReached ω c db then .error (.validationException (quotaMessage (planTier ω.plan)))
  else match db.orderByKey c.payload.idempotencyKey c.tenant with
    | some o => .ok (.handled { returned := some o })
    | none => .ok (.handled (placed tid c))

theorem placeOrder_exec (x : Unit) :
    (placeOrder tid c).exec (fun _ q => db.answer ω q) (fun _ y => y) x =
      (.ok (match db.orderByKey c.payload.idempotencyKey c.tenant with
        | some o => { returned := some o }
        | none => placed tid c), x) := by
  show Txn.exec _ _ (match db.orderByKey _ _ with | some existingOrder => _ | none => _) x = _
  cases db.orderByKey c.payload.idempotencyKey c.tenant with
  | some o => rfl
  | none => rfl

theorem createOrder_exec (x : Unit) :
    (createOrder tid c).exec (fun _ q => db.answer ω q) (fun _ y => y) x =
      if QuotaReached ω c db then
        (.error (.validationException (quotaMessage (planTier ω.plan))), x)
      else (placeOrder tid c).exec (fun _ q => db.answer ω q) (fun _ y => y) x := by
  unfold createOrder
  by_cases hredis : c.redis = true
  · rw [if_pos hredis]
    show Txn.exec _ _ (if planLimit (planTier ω.plan) ≤
      db.orders.rows.countP (fun o => o.tenantId == c.tenant) then _ else _) x = _
    by_cases hcount : planLimit (planTier ω.plan) ≤
        db.orders.rows.countP fun o => o.tenantId == c.tenant
    · rw [if_pos hcount, if_pos ⟨hredis, hcount⟩]
      rfl
    · rw [if_neg hcount, if_neg fun h => hcount h.2]
  · rw [if_neg hredis, if_neg fun h => hredis h.1]

theorem checkout_exec (x : Unit) :
    (service.prog tid (.checkout c)).exec (fun y q => service.answer ω y db q) service.effect x =
      (checkoutResult ω tid c db, x) := by
  have hprog : service.prog tid (.checkout c) = createOrder tid c >>= fun w =>
      Txn.done (.handled w) := rfl
  have hcreate :
      (createOrder tid c).exec (fun y q => service.answer ω y db q) service.effect x = _ :=
    createOrder_exec x
  rw [hprog, exec_bind, hcreate, checkoutResult]
  by_cases hquota : QuotaReached ω c db
  · rw [if_pos hquota, if_pos hquota]
  · rw [if_neg hquota, if_neg hquota, placeOrder_exec]
    cases db.orderByKey c.payload.idempotencyKey c.tenant with
    | some o => rfl
    | none => rfl

theorem own_of_find {key tenant : String} (o : Order)
    (h : (o.idempotencyKey == key && o.tenantId == tenant) = true) :
    o.idempotencyKey = key ∧ o.tenantId = tenant := by
  simpa using h

/-- The request computes the same from databases that agree on its tenant's orders. -/
theorem checkoutResult_eq (h : OrderStates B tid db₁ db₂) (hc : c.tenant = B) :
    (QuotaReached ω c db₁ ↔ QuotaReached ω c db₂) ∧
      db₁.orderByKey c.payload.idempotencyKey c.tenant =
        db₂.orderByKey c.payload.idempotencyKey c.tenant := by
  subst hc
  have hcount := h.agree.countP (p := fun o => o.tenantId == c.tenant) fun o ho => by simpa using ho
  refine ⟨by unfold QuotaReached; rw [hcount], h.agree.find? (fun o ho => (own_of_find o ho).2) ?_⟩
  intro o ho o' ho' hkey hkey'
  have heq : o.idempotencyKey = o'.idempotencyKey :=
    (own_of_find o hkey).1.trans (own_of_find o' hkey').1.symm
  exact List.inj_on_of_nodup_map h.keys₂ ho ho' heq

/-- A new order is committed unless another order has its key. -/
theorem commit_placed_iff (hkeys : (db.orders.rows.map (·.idempotencyKey)).Nodup)
    (hu : Undrawn db tid) (hfits : (placed tid c).storable = true) :
    (db.commit (placed tid c)).isSome ↔
      ∀ o ∈ db.orders.rows, o.idempotencyKey ≠ c.payload.idempotencyKey := by
  constructor
  · intro hsome o ho heq
    obtain ⟨db', hcommit⟩ := Option.isSome_iff_exists.mp hsome
    have hnodup := commit_keys hcommit
    rw [Table.rows_extend (commit_eq_some hcommit).1, List.map_append] at hnodup
    exact (List.nodup_append.mp hnodup).2.2 _ (List.mem_map_of_mem ho) _
      (List.mem_singleton_self _) heq
  · intro hkey
    obtain ⟨db', hcommit⟩ := commit_placed hkeys hu hkey hfits
    rw [hcommit]
    rfl

/-- The verdict and the database of a checkout that runs alone. -/
def checkoutAlone (ω : OrderEnv) (tid : ℕ) (c : Checkout) (db : OrderDb) :
    Verdict Exc (Outcome OrderWrites) × OrderDb :=
  let result := service.alone ω tid (.checkout c) () db
  (result.1, result.2.1)

/-- It is what an idle server does with the request. -/
theorem checkoutAlone_reaches {srv : OrderServer} (h : srv.active = []) : ∃ ls srv',
    Reaches service.step anyStep srv ls srv' ∧ srv'.active = [] ∧
      srv'.log = ⟨srv.next, .checkout c, (checkoutAlone ω srv.next c srv.db).1⟩ :: srv.log ∧
      srv'.db = (checkoutAlone ω srv.next c srv.db).2 := by
  obtain ⟨ls, srv', hrun, hidle, hlog, hend⟩ :=
    Service.alone_reaches (S := service) ω (.checkout c) h
  exact ⟨ls, srv', hrun, hidle, hlog, congrArg Prod.fst hend⟩

/-- The two runs end alike and leave the same orders of the tenant. -/
def SameOrders (B : String) (r₁ r₂ : Verdict Exc (Outcome OrderWrites) × OrderDb) : Prop :=
  r₁.1 = r₂.1 ∧ Agree (·.tenantId) B r₁.2.orders r₂.2.orders

theorem alone_checkout : checkoutAlone ω tid c db = match checkoutResult ω tid c db with
    | .ok o => settle o db (OrderService.commit o db)
    | .error e => (.raised e, db) := by
  have hexec : (service.prog tid (.checkout c)).exec (fun y q => service.answer ω y db q)
      service.effect () = (checkoutResult ω tid c db, ()) := checkout_exec ()
  unfold checkoutAlone
  cases hres : checkoutResult ω tid c db with
  | error e =>
    rw [hres] at hexec
    rw [Service.alone_of_error hexec]
  | ok o =>
    rw [hres] at hexec
    rw [Service.alone_of_ok hexec]
    rfl

/-- A request that gets as far as its insertion is blocked exactly when the commit fails. -/
theorem keyBlocked_iff (hkeys : (db.orders.rows.map (·.idempotencyKey)).Nodup)
    (hu : Undrawn db tid) (hquota : ¬ QuotaReached ω c db)
    (hnone : db.orderByKey c.payload.idempotencyKey c.tenant = none)
    (hfits : (placed tid c).storable = true) :
    KeyBlocked ω tid c db ↔ db.commit (placed tid c) = none := by
  rw [← Option.not_isSome_iff_eq_none, commit_placed_iff hkeys hu hfits]
  constructor
  · rintro ⟨-, -, -, o, ho, hkey, -⟩ hall
    exact hall o ho hkey
  · intro h
    obtain ⟨o, ho, hkey⟩ : ∃ o ∈ db.orders.rows,
        o.idempotencyKey = c.payload.idempotencyKey := by
      simpa using h
    refine ⟨hquota, hnone, hfits, o, ho, hkey, fun htenant => ?_⟩
    exact List.find?_eq_none.mp hnone o ho (by simp [hkey, htenant])

/-- The outcome of a checkout depends on the other tenants only through the key. -/
theorem checkout_same_iff (h : OrderStates B tid db₁ db₂) (hc : c.tenant = B) :
    SameOrders B (checkoutAlone ω tid c db₁) (checkoutAlone ω tid c db₂) ↔
      (KeyBlocked ω tid c db₁ ↔ KeyBlocked ω tid c db₂) := by
  obtain ⟨hquota, hkey⟩ := checkoutResult_eq (ω := ω) h hc
  have hunblocked : ∀ {P : Prop}, P → (∀ db, db = db₁ ∨ db = db₂ → ¬ KeyBlocked ω tid c db) →
      (P ↔ (KeyBlocked ω tid c db₁ ↔ KeyBlocked ω tid c db₂)) := fun hP hno =>
    iff_of_true hP (iff_of_false (hno db₁ (Or.inl rfl)) (hno db₂ (Or.inr rfl)))
  rw [alone_checkout, alone_checkout, checkoutResult, checkoutResult]
  by_cases hreached : QuotaReached ω c db₁
  · rw [if_pos hreached, if_pos (hquota.mp hreached)]
    refine hunblocked ⟨rfl, h.agree⟩ fun db hdb hblocked => ?_
    rcases hdb with rfl | rfl
    · exact hblocked.1 hreached
    · exact hblocked.1 (hquota.mp hreached)
  · rw [if_neg hreached, if_neg fun h => hreached (hquota.mpr h), ← hkey]
    cases hfind : db₁.orderByKey c.payload.idempotencyKey c.tenant with
    | some o =>
      have hcommit : ∀ db : OrderDb, (db.orders.rows.map (·.idempotencyKey)).Nodup →
          OrderService.commit (.handled { returned := some o }) db = some db :=
        fun db hkeys => commit_returned hkeys
      dsimp only
      rw [hcommit db₁ h.keys₁, hcommit db₂ h.keys₂]
      refine hunblocked ⟨rfl, h.agree⟩ fun db hdb hblocked => ?_
      rcases hdb with rfl | rfl
      · exact Option.some_ne_none o (hfind.symm.trans hblocked.2.1)
      · exact Option.some_ne_none o (hfind.symm.trans (hkey.trans hblocked.2.1))
    | none =>
      cases hfits : (placed tid c).storable with
      | false =>
        have hcommit : ∀ db : OrderDb, OrderService.commit (.handled (placed tid c)) db = none :=
          fun db => commit_unfit hfits
        dsimp only
        rw [hcommit, hcommit]
        exact hunblocked ⟨rfl, h.agree⟩ fun db _ hblocked =>
          Bool.false_ne_true (hfits.symm.trans hblocked.2.2.1)
      | true =>
        rw [keyBlocked_iff h.keys₁ h.undrawn₁ hreached hfind hfits,
          keyBlocked_iff h.keys₂ h.undrawn₂ (fun h => hreached (hquota.mpr h))
            (hkey ▸ hfind) hfits]
        have hextend : ∀ u₁ u₂, db₁.commit (placed tid c) = some u₁ →
            db₂.commit (placed tid c) = some u₂ → Agree (·.tenantId) B u₁.orders u₂.orders :=
          fun u₁ u₂ h₁ h₂ => h.agree.extend (commit_eq_some h₁).1 (commit_eq_some h₂).1
        exact settle_same_iff (P := fun d d' : OrderDb => Agree (·.tenantId) B d.orders d'.orders)
          h.agree hextend

/-- The database without the orders of other tenants. -/
def onlyOrders (B : String) (db : OrderDb) : OrderDb :=
  { db with orders := db.orders.only (·.tenantId) B }

theorem onlyOrders_states (h : OrderStates B tid db₁ db₂) :
    OrderStates B tid db₁ (onlyOrders B db₁) where
  agree := agree_only _ _ _
  keys₁ := h.keys₁
  keys₂ := h.keys₁.sublist (List.filter_sublist.map _)
  undrawn₁ := h.undrawn₁
  undrawn₂ := ⟨fun o ho => h.undrawn₁.orders o (Table.mem_only.mp ho).1, h.undrawn₁.outbox⟩

theorem not_keyBlocked_only (hc : c.tenant = B) : ¬ KeyBlocked ω tid c (onlyOrders B db) := by
  rintro ⟨-, -, -, o, ho, -, hother⟩
  exact hother ((Table.mem_only.mp ho).2.trans hc.symm)

/-- A checkout ends alike in both databases, and as if there were no other tenants, exactly when it
    is not blocked in either. -/
theorem checkout_isolated_iff (h : OrderStates B tid db₁ db₂) (hc : c.tenant = B) :
    SameOrders B (checkoutAlone ω tid c db₁) (checkoutAlone ω tid c db₂) ∧
      SameOrders B (checkoutAlone ω tid c db₁) (checkoutAlone ω tid c (onlyOrders B db₁)) ↔
      ¬ KeyBlocked ω tid c db₁ ∧ ¬ KeyBlocked ω tid c db₂ := by
  have honly : ¬ KeyBlocked ω tid c (onlyOrders B db₁) := not_keyBlocked_only hc
  rw [checkout_same_iff h hc, checkout_same_iff (onlyOrders_states h) hc]
  tauto

end Orders

/-! ## Products -/

section Products

open CatalogService

variable {B : String} {rt : Runtime} {tid : ℕ} {ω : CatalogEnv} {c : NewProduct}
  {x : Caches} {products products₁ products₂ : Products}

def ownProducts (c : NewProduct) (products : Products) : ℕ :=
  products.rows.countP fun p => p.isActive && decide (p.tenantId = c.tenant)

def ownSkus (c : NewProduct) (products : Products) : ℕ :=
  products.rows.countP fun p => decide (p.sku = c.payload.sku) && decide (p.tenantId = c.tenant)

/-- The tier whose quota `create_product` checks. -/
def tierOf (ω : CatalogEnv) (c : NewProduct) : String :=
  if c.redis then planTier ω.plan else "free"

/-- The request inserts a product whose SKU another tenant has used. -/
def SkuBlocked (rt : Runtime) (ω : CatalogEnv) (tid : ℕ) (c : NewProduct) (products : Products) :
    Prop :=
  ownProducts c products < planLimit (tierOf ω c) ∧ ownSkus c products = 0 ∧
    (newProduct rt tid c).storable = true ∧
    ∃ p ∈ products.rows, p.sku = c.payload.sku ∧ p.tenantId ≠ c.tenant

/-- The databases agree on the tenant's products, and the uuid that the transaction draws is new to
    both. -/
structure ProductStates (B : String) (rt : Runtime) (tid : ℕ) (products₁ products₂ : Products) :
    Prop where
  agree : Agree (·.tenantId) B products₁ products₂
  undrawn₁ : rt.uuid4 tid ∉ products₁.rows.map (·.id)
  undrawn₂ : rt.uuid4 tid ∉ products₂.rows.map (·.id)

/-- What `create_product` computes after the quota check. -/
def addResult (rt : Runtime) (tid : ℕ) (c : NewProduct) (products : Products) :
    Except CatalogExc Product :=
  if 0 < ownSkus c products then .error (.conflictException "SKU already exists")
  else if insertable products (newProduct rt tid c) then .ok (newProduct rt tid c)
  else .error .integrityError

/-- What `create_product` computes when it runs alone. -/
def productResult (rt : Runtime) (ω : CatalogEnv) (tid : ℕ) (c : NewProduct) (products : Products) :
    Except CatalogExc Product :=
  if planLimit (tierOf ω c) ≤ ownProducts c products then
    .error (.validationException (quotaMessage (tierOf ω c)))
  else addResult rt tid c products

theorem addProduct_exec (x : Caches) : ∃ x',
    (addProduct rt tid c).exec (fun y q => ω.answer y products q) CatalogQuery.effect x =
      (addResult rt tid c products, x') := by
  show ∃ x', Txn.exec _ _ (if 0 < ownSkus c products then _ else _) x = _
  unfold addResult
  by_cases hsku : 0 < ownSkus c products
  · rw [if_pos hsku, if_pos hsku]
    exact ⟨x, rfl⟩
  · rw [if_neg hsku, if_neg hsku]
    show ∃ x', Txn.exec _ _ (if insertable products (newProduct rt tid c) then _ else _) x = _
    by_cases hnew : insertable products (newProduct rt tid c) = true
    · rw [if_pos hnew, if_pos hnew]
      exact ⟨_, rfl⟩
    · rw [if_neg hnew, if_neg hnew]
      exact ⟨x, rfl⟩

theorem resolveTier_exec (x : Caches) :
    (resolveTier c).exec (fun y q => ω.answer y products q) CatalogQuery.effect x =
      (.ok (tierOf ω c), x) := by
  unfold resolveTier tierOf
  split
  · rfl
  · rfl

theorem createProduct_exec (x : Caches) : ∃ x',
    (createProduct rt tid c).exec (fun y q => ω.answer y products q) CatalogQuery.effect x =
      (productResult rt ω tid c products, x') := by
  unfold createProduct productResult
  rw [exec_bind, resolveTier_exec]
  show ∃ x', Txn.exec _ _ (if planLimit (tierOf ω c) ≤ ownProducts c products then _ else _) x = _
  split
  · exact ⟨x, rfl⟩
  · exact addProduct_exec x

/-- The verdict and the products of a `create_product` that runs alone. -/
def productAlone (rt : Runtime) (ω : CatalogEnv) (tid : ℕ) (c : NewProduct) (x : Caches)
    (products : Products) : Verdict CatalogExc CatalogResult × Products :=
  let result := (service rt).alone ω tid (.createProduct c) x products
  (result.1, result.2.1)

theorem alone_product (x : Caches) : productAlone rt ω tid c x products =
    match productResult rt ω tid c products with
    | .ok p => settle (.created p) products (CatalogService.commit (.created p) products)
    | .error e => (.raised e, products) := by
  obtain ⟨x', hexec⟩ : ∃ x', (createProduct rt tid c).exec
      (fun y q => (service rt).answer ω y products q) (service rt).effect x =
        (productResult rt ω tid c products, x') := createProduct_exec x
  have hprog : (service rt).prog tid (.createProduct c) = createProduct rt tid c >>= fun p =>
      Txn.done (CatalogResult.created p) := rfl
  have hrun : ((service rt).prog tid (.createProduct c)).exec
      (fun y q => (service rt).answer ω y products q) (service rt).effect x =
        ((productResult rt ω tid c products).map CatalogResult.created, x') := by
    rw [hprog, exec_bind, hexec]
    cases productResult rt ω tid c products with
    | ok p => rfl
    | error e => rfl
  unfold productAlone
  cases hres : productResult rt ω tid c products with
  | ok p =>
    rw [hres] at hrun
    rw [Service.alone_of_ok hrun]
    rfl
  | error e =>
    rw [hres] at hrun
    rw [Service.alone_of_error hrun]

/-- It is what an idle server does with the request. -/
theorem productAlone_reaches {srv : CatalogServer} (h : srv.active = []) : ∃ ls srv',
    Reaches (service rt).step anyStep srv ls srv' ∧ srv'.active = [] ∧
      srv'.log = ⟨srv.next, .createProduct c,
        (productAlone rt ω srv.next c srv.world srv.db).1⟩ :: srv.log ∧
      srv'.db = (productAlone rt ω srv.next c srv.world srv.db).2 := by
  obtain ⟨ls, srv', hrun, hidle, hlog, hend⟩ :=
    Service.alone_reaches (S := service rt) ω (.createProduct c) h
  exact ⟨ls, srv', hrun, hidle, hlog, congrArg Prod.fst hend⟩

/-- The two runs end alike and leave the same products of the tenant. -/
def SameProducts (B : String) (r₁ r₂ : Verdict CatalogExc CatalogResult × Products) : Prop :=
  r₁.1 = r₂.1 ∧ Agree (·.tenantId) B r₁.2 r₂.2

/-- A request that gets as far as its insertion is blocked exactly when the row cannot be
    inserted. -/
theorem skuBlocked_iff (hu : rt.uuid4 tid ∉ products.rows.map (·.id))
    (hquota : ownProducts c products < planLimit (tierOf ω c)) (hsku : ownSkus c products = 0)
    (hfits : (newProduct rt tid c).storable = true) :
    SkuBlocked rt ω tid c products ↔ insertable products (newProduct rt tid c) = false := by
  have hinsert : insertable products (newProduct rt tid c) = true ↔
      c.payload.sku ∉ products.rows.map (·.sku) := by
    unfold insertable
    rw [hfits, Bool.and_true, Bool.and_eq_true, decide_eq_true_eq, decide_eq_true_eq]
    exact and_iff_right hu
  rw [← Bool.not_eq_true, hinsert, not_not, List.mem_map]
  constructor
  · rintro ⟨-, -, -, p, hp, hkey, -⟩
    exact ⟨p, hp, hkey⟩
  · rintro ⟨p, hp, hkey⟩
    refine ⟨hquota, hsku, hfits, p, hp, hkey, fun htenant => ?_⟩
    have hcount := List.countP_eq_zero.mp hsku p hp
    simp [hkey, htenant] at hcount

theorem commit_created (hu : rt.uuid4 tid ∉ products.rows.map (·.id))
    (h : insertable products (newProduct rt tid c) = true) : ∃ u,
      products.extend [newProduct rt tid c] = some u ∧
        CatalogService.commit (.created (newProduct rt tid c)) products = some u := by
  obtain ⟨u, hextend⟩ := Table.extend_eq_some (t := products)
    (x := newProduct rt tid c) hu
  exact ⟨u, hextend, by rw [CatalogService.commit, if_pos h, hextend]⟩

/-- The outcome of a new product depends on the other tenants only through the SKU. -/
theorem product_same_iff (h : ProductStates B rt tid products₁ products₂) (hc : c.tenant = B)
    (x₁ x₂ : Caches) :
    SameProducts B (productAlone rt ω tid c x₁ products₁) (productAlone rt ω tid c x₂ products₂) ↔
      (SkuBlocked rt ω tid c products₁ ↔ SkuBlocked rt ω tid c products₂) := by
  subst hc
  have hown : ownProducts c products₁ = ownProducts c products₂ :=
    h.agree.countP fun p hp => by simpa using (Bool.and_eq_true_iff.mp hp).2
  have hskus : ownSkus c products₁ = ownSkus c products₂ :=
    h.agree.countP fun p hp => by simpa using (Bool.and_eq_true_iff.mp hp).2
  rw [alone_product, alone_product, productResult, productResult, addResult, addResult, ← hown,
    ← hskus]
  by_cases hquota : planLimit (tierOf ω c) ≤ ownProducts c products₁
  · rw [if_pos hquota, if_pos hquota]
    exact iff_of_true ⟨rfl, h.agree⟩ (iff_of_false (fun hb => by have := hb.1; omega)
      fun hb => by have := hb.1; omega)
  · rw [if_neg hquota, if_neg hquota]
    by_cases hsku : 0 < ownSkus c products₁
    · rw [if_pos hsku, if_pos hsku]
      exact iff_of_true ⟨rfl, h.agree⟩ (iff_of_false (fun hb => by have := hb.2.1; omega)
        fun hb => by have := hb.2.1; omega)
    · rw [if_neg hsku, if_neg hsku]
      cases hfits : (newProduct rt tid c).storable with
      | false =>
        have hnot : ∀ products, insertable products (newProduct rt tid c) = false := fun products =>
          by rw [insertable, hfits, Bool.and_false]
        rw [hnot, hnot]
        exact iff_of_true ⟨rfl, h.agree⟩ (iff_of_false
          (fun hb => Bool.false_ne_true (hfits.symm.trans hb.2.2.1))
          fun hb => Bool.false_ne_true (hfits.symm.trans hb.2.2.1))
      | true =>
        rw [skuBlocked_iff h.undrawn₁ (by omega) (by omega) hfits,
          skuBlocked_iff h.undrawn₂ (by omega) (by omega) hfits]
        cases h₁ : insertable products₁ (newProduct rt tid c) with
        | false =>
          cases h₂ : insertable products₂ (newProduct rt tid c) with
          | false => exact iff_of_true ⟨rfl, h.agree⟩ Iff.rfl
          | true =>
            obtain ⟨u₂, -, hcommit₂⟩ := commit_created h.undrawn₂ h₂
            simp [SameProducts, hcommit₂, settle]
        | true =>
          obtain ⟨u₁, hu₁, hcommit₁⟩ := commit_created h.undrawn₁ h₁
          cases h₂ : insertable products₂ (newProduct rt tid c) with
          | false => simp [SameProducts, hcommit₁, settle]
          | true =>
            obtain ⟨u₂, hu₂, hcommit₂⟩ := commit_created h.undrawn₂ h₂
            simp [SameProducts, hcommit₁, hcommit₂, settle, h.agree.extend hu₁ hu₂]

theorem only_states (h : ProductStates B rt tid products₁ products₂) :
    ProductStates B rt tid products₁ (products₁.only (·.tenantId) B) where
  agree := agree_only _ _ _
  undrawn₁ := h.undrawn₁
  undrawn₂ hmem := by
    obtain ⟨p, hp, hid⟩ := List.mem_map.mp hmem
    exact h.undrawn₁ (List.mem_map.mpr ⟨p, (Table.mem_only.mp hp).1, hid⟩)

/-- A new product ends alike in both databases, and as if there were no other tenants, exactly when
    it is not blocked in either. -/
theorem product_isolated_iff (h : ProductStates B rt tid products₁ products₂) (hc : c.tenant = B)
    (x₁ x₂ : Caches) :
    SameProducts B (productAlone rt ω tid c x₁ products₁) (productAlone rt ω tid c x₂ products₂) ∧
      SameProducts B (productAlone rt ω tid c x₁ products₁)
        (productAlone rt ω tid c x₁ (products₁.only (·.tenantId) B)) ↔
      ¬ SkuBlocked rt ω tid c products₁ ∧ ¬ SkuBlocked rt ω tid c products₂ := by
  have honly : ¬ SkuBlocked rt ω tid c (products₁.only (·.tenantId) B) := by
    rintro ⟨-, -, -, p, hp, -, hother⟩
    exact hother ((Table.mem_only.mp hp).2.trans hc.symm)
  rw [product_same_iff h hc, product_same_iff (only_states h) hc]
  tauto

end Products

/-! ## Both services -/

open OrderService (OrderEnv Checkout OrderDb) in
open CatalogService (Runtime CatalogEnv NewProduct Caches Products) in
/-- Two databases that agree on the tenant's rows give its request the same outcome and the same
    rows afterwards, which are those without the other tenants' rows, exactly when the key or the
    SKU that the request inserts is not another tenant's in either. -/
theorem writes_noninterference (B : String) :
    (∀ (ω : OrderEnv) (tid : ℕ) (c : Checkout) (db₁ db₂ : OrderDb), c.tenant = B →
      OrderStates B tid db₁ db₂ →
      (SameOrders B (checkoutAlone ω tid c db₁) (checkoutAlone ω tid c db₂) ∧
        SameOrders B (checkoutAlone ω tid c db₁) (checkoutAlone ω tid c (onlyOrders B db₁)) ↔
        ¬ KeyBlocked ω tid c db₁ ∧ ¬ KeyBlocked ω tid c db₂)) ∧
    ∀ (rt : Runtime) (ω : CatalogEnv) (tid : ℕ) (c : NewProduct) (x₁ x₂ : Caches)
      (products₁ products₂ : Products), c.tenant = B → ProductStates B rt tid products₁ products₂ →
      (SameProducts B (productAlone rt ω tid c x₁ products₁)
          (productAlone rt ω tid c x₂ products₂) ∧
        SameProducts B (productAlone rt ω tid c x₁ products₁)
          (productAlone rt ω tid c x₁ (products₁.only (·.tenantId) B)) ↔
        ¬ SkuBlocked rt ω tid c products₁ ∧ ¬ SkuBlocked rt ω tid c products₂) :=
  ⟨fun _ _ _ _ _ hc h => checkout_isolated_iff h hc,
    fun _ _ _ _ x₁ x₂ _ _ hc h => product_isolated_iff h hc x₁ x₂⟩

/-- An order of another tenant with the given key. -/
def otherOrder (key : String) : OrderService.Order :=
  { id := .text "order-b", userId := .text "user-b", totalAmount := 1, idempotencyKey := key
    createdAt := 0, tenantId := "tenant-b", items := [⟨0, 1, 1⟩] }

def otherOrders (key : String) : OrderService.OrderDb :=
  { OrderService.OrderDb.empty with orders := ⟨[otherOrder key], List.nodup_singleton _⟩ }

theorem otherOrders_states (key : String) :
    OrderStates "tenant-a" 0 (otherOrders key) OrderService.OrderDb.empty where
  agree o ho := by
    refine iff_of_false (fun hmem => ?_) List.not_mem_nil
    rw [List.mem_singleton.mp hmem] at ho
    have htenant : "tenant-b" = "tenant-a" := ho
    exact absurd htenant (by decide)
  keys₁ := List.nodup_singleton _
  keys₂ := List.nodup_nil
  undrawn₁ := by
    refine ⟨fun o ho n h => ?_, fun r hr => absurd hr List.not_mem_nil⟩
    rw [List.mem_singleton.mp ho] at h
    cases h
  undrawn₂ := OrderService.empty_undrawn 0

def otherProducts (sku : String) : CatalogService.Products :=
  ⟨[{ id := "product-b", sku, name := "lamp", description := none, price := 1
      tenantId := "tenant-b" }], List.nodup_singleton _⟩

/-- A uuid for each transaction that none of the rows here has. -/
def someRuntime : CatalogService.Runtime := { md5 := id, uuid4 := fun n => "uuid-" ++ toString n }

theorem otherProducts_states (sku : String) :
    ProductStates "tenant-a" someRuntime 0 (otherProducts sku) Table.empty where
  agree p hp := by
    refine iff_of_false (fun hmem => ?_) List.not_mem_nil
    rw [List.mem_singleton.mp hmem] at hp
    have htenant : "tenant-b" = "tenant-a" := hp
    exact absurd htenant (by decide)
  undrawn₁ := by
    show _ ∉ ["product-b"]
    decide
  undrawn₂ := List.not_mem_nil

/-- A product of the tenant. -/
def someProduct : CatalogService.NewProduct :=
  { tenant := "tenant-a", redis := false
    payload := { sku := "sku-0", name := "lamp", description := none, price := 1
                 sku_length := CatalogService.ProductCreate.sku_0_length
                 name_length := CatalogService.ProductCreate.lamp_length
                 price_pos := CatalogService.ProductCreate.one_price_pos } }

/-- The other tenant has used another key and another SKU. -/
theorem writes_noninterference_apart :
    (SameOrders "tenant-a"
        (checkoutAlone ⟨[], none⟩ 0 (OrderService.freeCheckout 0) (otherOrders "checkout-key-1"))
        (checkoutAlone ⟨[], none⟩ 0 (OrderService.freeCheckout 0) .empty) ∧
      SameOrders "tenant-a"
        (checkoutAlone ⟨[], none⟩ 0 (OrderService.freeCheckout 0) (otherOrders "checkout-key-1"))
        (checkoutAlone ⟨[], none⟩ 0 (OrderService.freeCheckout 0)
          (onlyOrders "tenant-a" (otherOrders "checkout-key-1")))) ∧
    SameProducts "tenant-a" (productAlone someRuntime {} 0 someProduct {} (otherProducts "sku-1"))
      (productAlone someRuntime {} 0 someProduct {} Table.empty) := by
  obtain ⟨horders, hproducts⟩ := writes_noninterference "tenant-a"
  constructor
  · refine (horders _ _ _ _ _ rfl (otherOrders_states _)).mpr ⟨?_, ?_⟩
    · rintro ⟨-, -, -, o, ho, hkey, -⟩
      rw [List.mem_singleton.mp ho] at hkey
      exact absurd hkey (by decide)
    · rintro ⟨-, -, -, o, ho, -⟩
      exact absurd ho List.not_mem_nil
  · refine ((hproducts _ _ _ _ _ _ _ _ rfl (otherProducts_states _)).mpr ⟨?_, ?_⟩).1
    · rintro ⟨-, -, -, p, hp, hsku, -⟩
      rw [List.mem_singleton.mp hp] at hsku
      exact absurd hsku (by decide)
    · rintro ⟨-, -, -, p, hp, -⟩
      exact absurd hp List.not_mem_nil

def isCommitted {ε W : Type} : Verdict ε W → Bool
  | .committed _ => true
  | _ => false

/-- Another tenant has used the key: the request, which succeeds without it, fails. -/
theorem key_of_another_tenant_blocks :
    OrderStates "tenant-a" 0 (otherOrders "checkout-key-0") .empty ∧
      isCommitted (checkoutAlone ⟨[], none⟩ 0 (OrderService.freeCheckout 0)
        (otherOrders "checkout-key-0")).1 = false ∧
      isCommitted (checkoutAlone ⟨[], none⟩ 0 (OrderService.freeCheckout 0) .empty).1 = true ∧
      ¬ SameOrders "tenant-a"
        (checkoutAlone ⟨[], none⟩ 0 (OrderService.freeCheckout 0) (otherOrders "checkout-key-0"))
        (checkoutAlone ⟨[], none⟩ 0 (OrderService.freeCheckout 0) .empty) := by
  have hfails : isCommitted (checkoutAlone ⟨[], none⟩ 0 (OrderService.freeCheckout 0)
      (otherOrders "checkout-key-0")).1 = false := by decide +kernel
  have hsucceeds : isCommitted (checkoutAlone ⟨[], none⟩ 0 (OrderService.freeCheckout 0)
      .empty).1 = true := by decide +kernel
  refine ⟨otherOrders_states _, hfails, hsucceeds, fun hsame => ?_⟩
  rw [hsame.1, hsucceeds] at hfails
  cases hfails

end CloudScale.Tenancy
