/-
  The catalog's operations: `create_product` and the reads through `cache_aside`
  (`catalog/app/service.py`), and the search service's reads with its own Redis keys
  (`catalog/app/ai.py`).

  The tenant of a request is that of its database session and of `get_current_tenant()`. The
  single-flight lock of `cache_aside` is left out: it only orders the fetches of one key, and every
  order of them is allowed here. A read that the database fails raises and returns no product.
-/
import CloudScale.CatalogService.Model

namespace CloudScale.CatalogService

open CloudScale.Lib

inductive CatalogExc where
  | validationException (message : String)
  | conflictException (message : String)
  | notFoundException (message : String)
  | integrityError
deriving DecidableEq

abbrev CatalogTxn (R : Type) := Txn CatalogQuery CatalogAnswer CatalogExc R

/-- The parts of the runtime that are given: `hashlib.md5(..).hexdigest()` and the text of the uuid
    a transaction draws. -/
structure Runtime where
  md5 : String → String
  uuid4 : ℕ → String

/-! ## Queries -/

def redisPlan (tenant : String) : CatalogTxn (Option String) := Txn.query (CatalogQuery.plan tenant)

/-- `time.time()`. -/
def time : CatalogTxn Int := Txn.query CatalogQuery.clock

def redisUp : CatalogTxn Bool := Txn.query CatalogQuery.redisUp

def evictLists (redis : Bool) : CatalogTxn Unit := Txn.query (CatalogQuery.evictLists redis)

/-- `count_tenant_products`. -/
def countTenantProducts (tenant : String) : CatalogTxn ℕ :=
  Txn.query (CatalogQuery.countActive tenant)

def skuCount (sku tenant : String) : CatalogTxn ℕ := Txn.query (CatalogQuery.skuCount sku tenant)

/-- `session.flush()` with a new product; `false` when the row cannot be inserted. -/
def flush (p : Product) : CatalogTxn Bool := Txn.query (CatalogQuery.flush p)

/-- `session.get(Product, id)`, and `select(Product).where(Product.id == id)`. -/
def getById (tenant id : String) : CatalogTxn (Option Product) :=
  Txn.query (CatalogQuery.byId tenant id)

/-- `list_active_paginated`: two statements, the total first, then the rows of the page. -/
def listActivePaginated (tenant : String) (page size : ℕ) : CatalogTxn (List Product × ℕ) := do
  let total ← Txn.query (CatalogQuery.countActive tenant)
  let items ← Txn.query (CatalogQuery.activePage tenant page size)
  return (items, total)

/-- `select(Product).where(Product.is_active == True)`. -/
def selectActive (tenant : String) : CatalogTxn (List Product) :=
  Txn.query (CatalogQuery.active tenant)

/-- `select(Product).where(Product.id.in_(ids))`. -/
def selectIn (tenant : String) (ids : List String) : CatalogTxn (List Product) :=
  Txn.query (CatalogQuery.byIds tenant ids)

/-- The ids of the index by descending score, and how many scores pass the threshold. -/
def ranking (ids : List String) : CatalogTxn (List String × ℕ) :=
  Txn.query (CatalogQuery.ranking ids)

def getL1 (key : String) : CatalogTxn (Option CacheValue) := do
  let now ← time
  Txn.query (CatalogQuery.getL1 key now)

/-- `redis.get`; an exception counts as a miss. -/
def getRedis (key : String) : CatalogTxn (Option CacheValue) := do
  let now ← time
  Txn.query (CatalogQuery.getRedis key now)

/-- `l1_cache.set`, in a request of the tenant. -/
def setL1 (tenant key : String) (v : CacheValue) (ttl : Int) : CatalogTxn Unit := do
  let now ← time
  Txn.query (CatalogQuery.setL1 key { value := v, expiry := now + ttl, storedBy := tenant })

/-- `redis.setex` of the dumped value, in a request of the tenant; exceptions are caught. -/
def setex (tenant key : String) (ttl : Int) (v : CacheValue) : CatalogTxn Unit := do
  if (← redisUp) && v.dumps then
    let now ← time
    Txn.query (CatalogQuery.setRedis key { value := v, expiry := now + ttl, storedBy := tenant })

/-! ## Products -/

structure ProductCreate where
  sku : String
  name : String
  description : Option String
  price : ℚ
  sku_length : 3 ≤ sku.length ∧ sku.length ≤ 50
  name_length : 1 ≤ name.length ∧ name.length ≤ 200
  price_pos : 0 < price

theorem ProductCreate.lamp_length : 1 ≤ "lamp".length ∧ "lamp".length ≤ 200 := by decide

theorem ProductCreate.sku_0_length : 3 ≤ "sku-0".length ∧ "sku-0".length ≤ 50 := by decide

theorem ProductCreate.one_price_pos : (0 : ℚ) < 1 := by decide

/-- The request of `create_product` with its context: the tenant and whether Redis is configured. -/
structure NewProduct where
  tenant : String
  redis : Bool
  payload : ProductCreate

/-- `plan_raw or "free"`. -/
def planTier : Option String → String
  | none => "free"
  | some tier => if tier.isEmpty then "free" else tier

/-- `limits.get(plan_tier, 10)`. -/
def planLimit (tier : String) : ℕ :=
  if tier = "growth" then 100 else if tier = "enterprise" then 10000 else 10

def quotaMessage (tier : String) : String :=
  "Catalog item quota limit of " ++ toString (planLimit tier) ++ " exceeded for plan '" ++ tier ++
    "'. Please upgrade."

def newProduct (rt : Runtime) (tid : ℕ) (c : NewProduct) : Product :=
  { id := rt.uuid4 tid, sku := c.payload.sku, name := c.payload.name
    description := c.payload.description, price := c.payload.price, isActive := true
    tenantId := c.tenant }

/-- `_invalidate_list_caches`. -/
def invalidateListCaches (redis : Bool) : CatalogTxn Unit := do
  let up ← redisUp
  evictLists (redis && up)

/-- The part of `create_product` after the quota check. -/
def addProduct (rt : Runtime) (tid : ℕ) (c : NewProduct) : CatalogTxn Product := do
  if 0 < (← skuCount c.payload.sku c.tenant) then .raise (.conflictException "SKU already exists")
  else if ← flush (newProduct rt tid c) then
    invalidateListCaches c.redis
    return newProduct rt tid c
  else .raise .integrityError

/-- The tier of a request whose quota is checked. -/
def resolveTier (c : NewProduct) : CatalogTxn String := do
  if c.redis then return planTier (← redisPlan c.tenant) else return "free"

/-- `create_product`. -/
def createProduct (rt : Runtime) (tid : ℕ) (c : NewProduct) : CatalogTxn Product := do
  let tier ← resolveTier c
  if planLimit tier ≤ (← countTenantProducts c.tenant) then
    .raise (.validationException (quotaMessage tier))
  else addProduct rt tid c

/-- `create_product` puts nothing into a cache. -/
theorem createProduct_unstored (rt : Runtime) (tid : ℕ) (c : NewProduct) :
    (createProduct rt tid c).Asks fun q => q.stored = none := by
  have hadd : (addProduct rt tid c).Asks fun q => q.stored = none := by
    refine ⟨rfl, fun skus : ℕ => ?_⟩
    show Txn.Asks _ (if 0 < skus then _ else _)
    split
    · trivial
    · refine ⟨rfl, fun flushed : Bool => ?_⟩
      show Txn.Asks _ (if flushed = true then _ else _)
      split
      · exact ⟨rfl, fun _ => ⟨rfl, fun _ => trivial⟩⟩
      · trivial
  have hcount : ∀ tier, (countTenantProducts c.tenant >>= fun n : ℕ =>
      if planLimit tier ≤ n then Txn.raise (.validationException (quotaMessage tier))
      else addProduct rt tid c).Asks fun q => q.stored = none := by
    refine fun tier => ⟨rfl, fun n : ℕ => ?_⟩
    show Txn.Asks _ (if planLimit tier ≤ n then _ else _)
    split
    · trivial
    · exact hadd
  unfold createProduct resolveTier
  split
  · exact ⟨rfl, fun plan => hcount (planTier plan)⟩
  · exact hcount "free"

/-! ## Reads through `cache_aside` -/

/-- `cache_aside`: both layers, then (inside the single-flight lock) both again, then the fetch,
    whose result warms both. -/
def cacheAside (tenant key : String) (ttl l1Ttl : Int) (fetch : CatalogTxn CacheValue) :
    CatalogTxn CacheValue := do
  match ← getL1 key with
  | some v => return v
  | none => match ← getRedis key with
    | some v =>
      setL1 tenant key v l1Ttl
      return v
    | none => match ← getL1 key with
      | some v => return v
      | none => match ← getRedis key with
        | some v =>
          setL1 tenant key v l1Ttl
          return v
        | none =>
          let v ← fetch
          setL1 tenant key v l1Ttl
          setex tenant key ttl v
          return v

def productKey (id : String) : String :=
  "v1:catalog_product:_get_cached_product:" ++ id ++ ":"

def listKey (tenant : String) (page size : ℕ) : String :=
  "v1:catalog_list:_get_cached_list:" ++ tenant ++ ":" ++ toString page ++ ":" ++ toString size ++
    ":"

/-- `_fetch_product_from_db`. -/
def fetchProductFromDb (tenant id : String) : CatalogTxn Product := do
  match ← getById tenant id with
  | some product =>
    if product.isActive then return product else .raise (.notFoundException "Product not found")
  | none => .raise (.notFoundException "Product not found")

/-- `get_product_by_id`. -/
def getProductById (tenant id : String) : CatalogTxn CacheValue :=
  cacheAside tenant (productKey id) 300 5 do
    let product ← fetchProductFromDb tenant id
    return .product (modelValidate product)

/-- `list_products`. -/
def listProducts (tenant : String) (page size : ℕ) : CatalogTxn CacheValue :=
  cacheAside tenant (listKey tenant page size) 60 5 do
    let (items, total) ← listActivePaginated tenant page size
    return .page (Page.create (items.map modelValidate) total page size)

/-! ## The search service -/

/-- A product as the search service shows it: `description or ""`. -/
def showProduct (p : Product) : ProductResponse :=
  { modelValidate p with description := some (p.description.getD "") }

def recsKey (id : String) (limit : ℕ) : String := "ai:recs:" ++ id ++ ":" ++ toString limit

def searchKey (rt : Runtime) (query : String) (limit : ℕ) : String :=
  "ai:search:" ++ rt.md5 query ++ ":" ++ toString limit

/-- The details of the products with the given ids, in their order. -/
def productsInOrder (ids : List String) (products : List Product) : List ProductResponse :=
  ids.filterMap fun id => (products.find? fun p => decide (p.id = id)).map showProduct

/-- The target of a recommendation is in the index, or else in the database. -/
def targetKnown (tenant id : String) (index : List String) : CatalogTxn Bool := do
  if id ∈ index then return true else return (← getById tenant id).isSome

/-- `get_recommendations`; the index is built from the products that the session reads. -/
def getRecommendations (tenant id : String) (limit : ℕ) : CatalogTxn CacheValue := do
  match ← getRedis (recsKey id limit) with
  | some v => return v
  | none =>
    let products ← selectActive tenant
    let index := products.map (·.id)
    if ← targetKnown tenant id index then
      let (ranked, _) ← ranking (index.filter fun x => x != id)
      let neighbors := ranked.take limit
      if neighbors.isEmpty then return .products []
      else
        let found ← selectIn tenant neighbors
        let results := productsInOrder neighbors found
        setex tenant (recsKey id limit) 600 (.products results)
        return .products results
    else return .products []

/-- `semantic_search`. -/
def semanticSearch (rt : Runtime) (tenant query : String) (limit : ℕ) : CatalogTxn CacheValue := do
  match ← getRedis (searchKey rt query limit) with
  | some v => return v
  | none =>
    let products ← selectActive tenant
    let (ranked, above) ← ranking (products.map (·.id))
    let filtered := ((ranked.take (limit * 2)).take above).take limit
    if filtered.isEmpty then
      let fallback ← selectActive tenant
      return .products ((fallback.take limit).map showProduct)
    else
      let found ← selectIn tenant filtered
      let results := productsInOrder filtered found
      setex tenant (searchKey rt query limit) 300 (.products results)
      return .products results

/-! ## The service -/

inductive CatalogRequest where
  | createProduct (c : NewProduct)
  | getProductById (tenant id : String)
  | listProducts (tenant : String) (page size : ℕ)
  | getRecommendations (tenant id : String) (limit : ℕ)
  | semanticSearch (tenant query : String) (limit : ℕ)

def CatalogRequest.tenant : CatalogRequest → String
  | .createProduct c => c.tenant
  | .getProductById tenant _ => tenant
  | .listProducts tenant _ _ => tenant
  | .getRecommendations tenant _ _ => tenant
  | .semanticSearch tenant _ _ => tenant

/-- What a request returns. -/
inductive CatalogResult where
  | created (p : Product)
  | read (v : CacheValue)
deriving DecidableEq

def program (rt : Runtime) (tid : ℕ) : CatalogRequest → CatalogTxn CatalogResult
  | .createProduct c => do return .created (← createProduct rt tid c)
  | .getProductById tenant id => do return .read (← getProductById tenant id)
  | .listProducts tenant page size => do return .read (← listProducts tenant page size)
  | .getRecommendations tenant id limit => do return .read (← getRecommendations tenant id limit)
  | .semanticSearch tenant query limit => do return .read (← semanticSearch rt tenant query limit)

/-- `session.commit()`; the indexes are checked again, for what was committed since the flush. -/
def commit : CatalogResult → Products → Option Products
  | .created p, products =>
    if insertable products p then products.extend [p] else none
  | .read _, products => some products

def service (rt : Runtime) : Service Products Caches CatalogRequest CatalogEnv CatalogQuery
    CatalogAnswer CatalogExc CatalogResult where
  prog := program rt
  answer env caches products q := env.answer caches products q
  effect := CatalogQuery.effect
  commit := commit

abbrev CatalogServer := Server Products Caches CatalogRequest CatalogQuery CatalogAnswer CatalogExc
  CatalogResult

end CloudScale.CatalogService
