/-
  The product quota over sequences of `create_product` and `bulk_create_products` that do not
  overlap (`catalog/app/service.py`), the plans in Redis fixed.

  `create_product` compares the tenant's active products with the limit of its plan;
  `bulk_create_products` compares nothing. `withinQuota_iff`: a tenant that was within its limit
  still is after a sequence of calls exactly when every import that stored its rows had room for
  them.
-/
import CloudScale.CatalogService.BulkImport
import CloudScale.Tenancy.Writes

namespace CloudScale.CatalogService

open CloudScale.Lib CloudScale.Tenancy

/-- The catalog, the plan keys of all tenants, and how many uuids were drawn. -/
structure CatalogState where
  products : Products
  caches : Caches := {}
  plans : String → Option String
  drawn : ℕ := 0

/-- A call that creates products; `redisUp`: Redis answers when the cached lists are evicted. A
    call whose plan key cannot be read raises before it has done anything, and is left out. -/
inductive CreateCall where
  | createProduct (redisUp : Bool) (c : NewProduct)
  | bulkCreateProducts (redisUp : Bool) (b : BulkImport)

def create (rt : Runtime) (s : CatalogState) : CreateCall → CatalogState
  | .createProduct redisUp c =>
    let ω : CatalogEnv := { plan := s.plans c.tenant, redisUp }
    let (_, products, caches) :=
      (service rt).alone ω s.drawn (.createProduct c) s.caches s.products
    { s with products, caches, drawn := s.drawn + 1 }
  | .bulkCreateProducts redisUp b =>
    match bulkCreateProducts rt s.drawn b s.products with
    | .ok (_, products) =>
      { s with
        products
        caches := (CatalogQuery.evictLists (b.redis && redisUp)).effect s.caches
        drawn := s.drawn + b.items.length }
    | .error _ => { s with drawn := s.drawn + b.items.length }

def createStep (rt : Runtime) (s : CatalogState) (a : CreateCall) : Option CatalogState :=
  some (create rt s a)

/-- `count_tenant_products`, of a tenant. -/
def activeProducts (tenant : String) (products : Products) : ℕ :=
  products.rows.countP fun p => p.isActive && decide (p.tenantId = tenant)

/-- The product limit of a tenant's plan. -/
def maxProducts (s : CatalogState) (tenant : String) : ℕ := planLimit (planTier (s.plans tenant))

def WithinQuota (tenant : String) (s : CatalogState) : Prop :=
  activeProducts tenant s.products ≤ maxProducts s tenant

instance (tenant : String) (s : CatalogState) : Decidable (WithinQuota tenant s) :=
  inferInstanceAs (Decidable (_ ≤ _))

/-- If the call is an import of the tenant whose rows can all be stored, there is room for them. -/
def HasRoom (rt : Runtime) (tenant : String) (s : CatalogState) : CreateCall → Prop
  | .createProduct _ _ => True
  | .bulkCreateProducts _ b => b.tenant = tenant → 0 < b.batchSize →
    Fits s.products (newProducts rt b s.drawn b.items) →
    activeProducts tenant s.products + b.items.length ≤ maxProducts s tenant

instance (rt : Runtime) (tenant : String) (s : CatalogState) (a : CreateCall) :
    Decidable (HasRoom rt tenant s a) :=
  match a with
  | .createProduct _ _ => isTrue trivial
  | .bulkCreateProducts _ b => inferInstanceAs (Decidable (b.tenant = tenant → 0 < b.batchSize →
      Fits s.products (newProducts rt b s.drawn b.items) →
      activeProducts tenant s.products + b.items.length ≤ maxProducts s tenant))

/-! ## What a call adds -/

theorem planLimit_ge (tier : String) : 10 ≤ planLimit tier := by
  unfold planLimit
  split
  · decide
  · split
    · decide
    · exact le_refl 10

@[simp] theorem plans_create (rt : Runtime) (s : CatalogState) (a : CreateCall) :
    (create rt s a).plans = s.plans := by
  cases a with
  | createProduct redisUp c => rfl
  | bulkCreateProducts redisUp b =>
    simp only [create]
    split
    · rfl
    · rfl

theorem activeProducts_append (tenant owner : String) {products t : Products}
    {rows : List Product} (h : t.rows = products.rows ++ rows)
    (hrows : ∀ p ∈ rows, p.isActive = true ∧ p.tenantId = owner) :
    activeProducts tenant t =
      activeProducts tenant products + if owner = tenant then rows.length else 0 := by
  have hcount : (rows.countP fun p => p.isActive && decide (p.tenantId = tenant)) =
      if owner = tenant then rows.length else 0 := by
    split
    · next heq =>
      refine List.countP_eq_length.mpr fun p hp => ?_
      obtain ⟨hactive, howner⟩ := hrows p hp
      simp [hactive, howner, heq]
    · next hne =>
      refine List.countP_eq_zero.mpr fun p hp => ?_
      obtain ⟨-, howner⟩ := hrows p hp
      simp [howner, hne]
  unfold activeProducts
  rw [h, List.countP_append, hcount]

/-- `create_product` adds a product only where the tenant has room for it. -/
theorem products_createProduct (rt : Runtime) (s : CatalogState) (redisUp : Bool) (c : NewProduct) :
    (create rt s (.createProduct redisUp c)).products = s.products ∨
      activeProducts c.tenant s.products < maxProducts s c.tenant ∧
        (create rt s (.createProduct redisUp c)).products.rows =
          s.products.rows ++ [newProduct rt s.drawn c] := by
  have hproducts : (create rt s (.createProduct redisUp c)).products =
      (productAlone rt { plan := s.plans c.tenant, redisUp } s.drawn c s.caches s.products).2 := rfl
  rw [hproducts, alone_product]
  have hlimit : planLimit (tierOf { plan := s.plans c.tenant, redisUp } c) ≤
      maxProducts s c.tenant := by
    unfold tierOf maxProducts
    split
    · exact le_refl _
    · exact planLimit_ge _
  unfold productResult
  split
  · next p hp =>
    split at hp
    · cases hp
    · next hroom =>
      have hnew : p = newProduct rt s.drawn c := by
        unfold addResult at hp
        split at hp
        · cases hp
        · split at hp
          · exact (Except.ok.inj hp).symm
          · cases hp
      subst hnew
      rw [settle_snd]
      simp only [CatalogService.commit]
      split
      · cases hext : s.products.extend [newProduct rt s.drawn c] with
        | none => exact .inl rfl
        | some t => exact .inr ⟨lt_of_lt_of_le (not_le.mp hroom) hlimit, Table.rows_extend hext⟩
      · exact .inl rfl
  · exact .inl rfl

/-- `bulk_create_products` adds all rows, whenever they fit the table. -/
theorem products_bulkCreateProducts (rt : Runtime) (s : CatalogState) (redisUp : Bool)
    (b : BulkImport) :
    (0 < b.batchSize ∧ Fits s.products (newProducts rt b s.drawn b.items)) ∧
        (create rt s (.bulkCreateProducts redisUp b)).products.rows =
          s.products.rows ++ newProducts rt b s.drawn b.items ∨
      ¬ (0 < b.batchSize ∧ Fits s.products (newProducts rt b s.drawn b.items)) ∧
        (create rt s (.bulkCreateProducts redisUp b)).products = s.products := by
  have hproducts : (create rt s (.bulkCreateProducts redisUp b)).products =
      (bulkCreateProducts rt s.drawn b s.products).toOption.elim s.products (·.2) := by
    simp only [create]
    split
    · next heq => rw [heq]; rfl
    · next heq => rw [heq]; rfl
  rw [hproducts]
  by_cases hsize : 0 < b.batchSize
  · rw [bulkCreateProducts_toOption rt s.drawn b s.products hsize]
    dsimp only
    cases hflush : flushAll s.products (newProducts rt b s.drawn b.items) with
    | some t =>
      obtain ⟨hfits, hrows⟩ := flushAll_eq_some_iff.mp hflush
      exact .inl ⟨⟨hsize, hfits⟩, hrows⟩
    | none =>
      refine .inr ⟨fun h => ?_, rfl⟩
      obtain ⟨t, ht⟩ := flushAll_of_fits h.2
      cases hflush.symm.trans ht
  · rw [bulkCreateProducts_nonpos rt s.drawn b s.products (by omega)]
    refine .inr ⟨fun h => hsize h.1, ?_⟩
    split
    · rfl
    · rfl

/-! ## The quota -/

/-- A call leaves a tenant within its limit exactly when it was and the call had room. -/
theorem withinQuota_create (rt : Runtime) (tenant : String) (s : CatalogState) (a : CreateCall) :
    WithinQuota tenant (create rt s a) ↔ WithinQuota tenant s ∧ HasRoom rt tenant s a := by
  have hlimit : maxProducts (create rt s a) tenant = maxProducts s tenant := by
    simp [maxProducts]
  unfold WithinQuota
  rw [hlimit]
  cases a with
  | createProduct redisUp c =>
    rcases products_createProduct rt s redisUp c with hsame | ⟨hroom, hrows⟩
    · simp [hsame, HasRoom]
    · rw [activeProducts_append tenant c.tenant hrows (by simp [newProduct])]
      by_cases heq : c.tenant = tenant
      · subst heq
        simp [HasRoom]
        omega
      · simp [heq, HasRoom]
  | bulkCreateProducts redisUp b =>
    rcases products_bulkCreateProducts rt s redisUp b with ⟨⟨hsize, hfits⟩, hrows⟩ | ⟨hnot, hsame⟩
    · rw [activeProducts_append tenant b.tenant hrows fun p hp => newProducts_spec hp,
        length_newProducts]
      by_cases heq : b.tenant = tenant
      · simp [HasRoom, heq, hsize, hfits]
        omega
      · simp [HasRoom, heq]
    · rw [hsame]
      refine (and_iff_left ?_).symm
      intro _ hsize hfits
      exact absurd ⟨hsize, hfits⟩ hnot

/-- A tenant within its limit stays within it, in every state of a run, exactly as long as there is
    room for the rows of every import that stores its rows. -/
theorem withinQuota_iff (rt : Runtime) (tenant : String) {s t : CatalogState}
    {calls : List CreateCall} (h : WithinQuota tenant s)
    (hrun : runFrom (createStep rt) s calls = some t) :
    WithinQuota tenant t ↔ AllSteps (createStep rt) (HasRoom rt tenant) s calls := by
  have hinv : ∀ s a s', True → createStep rt s a = some s' → True := fun _ _ _ _ _ => trivial
  have hstep : ∀ s a s', True → createStep rt s a = some s' →
      (WithinQuota tenant s' ↔ WithinQuota tenant s ∧ HasRoom rt tenant s a) := by
    intro s a s' _ hs
    obtain rfl := Option.some.inj hs
    exact withinQuota_create rt tenant s a
  rw [runFrom_iff_allSteps hinv hstep calls s t trivial hrun]
  exact and_iff_right h

/-! ## An import past the limit -/

/-- The `n`-th of some items with SKUs of their own. -/
def importItem (n : Fin 26) : ProductCreate :=
  { sku := "SKU-" ++ String.singleton (Char.ofNat (97 + n)), name := "lamp", description := none
    price := 1, sku_length := by revert n; decide +kernel
    name_length := ProductCreate.lamp_length, price_pos := ProductCreate.one_price_pos }

def importOf (tenant : String) (items : List (Fin 26)) : BulkImport :=
  { tenant, redis := true, items := items.map importItem }

def freshIds : Runtime := { md5 := id, uuid4 := fun n => "uuid-" ++ toString n }

/-- No products, and every tenant on the free plan. -/
def freePlans : CatalogState := { products := .empty, plans := fun _ => none }

/-- Two imports, the second of which is refused. -/
def twoImports : List CreateCall :=
  [.bulkCreateProducts true (importOf "acme" [0, 1, 2]),
    .bulkCreateProducts true (importOf "acme" [2, 3])]

theorem withinQuota_iff_twoImports :
    ∃ t, runFrom (createStep freshIds) freePlans twoImports = some t ∧ WithinQuota "acme" t := by
  have hstart : WithinQuota "acme" freePlans := by decide
  have hroom : AllSteps (createStep freshIds) (HasRoom freshIds "acme") freePlans twoImports := by
    decide +kernel
  exact ⟨_, rfl, (withinQuota_iff freshIds "acme" hstart rfl).mpr hroom⟩

/-- The quota does not hold on every creation path. -/
theorem import_exceeds_quota :
    ¬ ∀ (rt : Runtime) (tenant : String) (s t : CatalogState) (calls : List CreateCall),
      WithinQuota tenant s → runFrom (createStep rt) s calls = some t → WithinQuota tenant t := by
  intro h
  have hover : ¬ WithinQuota "acme" (create freshIds freePlans
      (.bulkCreateProducts true (importOf "acme" [0, 1, 2, 3, 4, 5, 6, 7, 8, 9, 10]))) := by
    decide +kernel
  exact hover (h freshIds "acme" freePlans _ [_] (by decide) rfl)

end CloudScale.CatalogService
