/-
  The catalog's products (`catalog/app/models.py`), the two cache layers in front of them
  (`cloudscale_shared/cache.py`) and what the catalog's transactions ask and write.

  A session reads the rows of its own tenant only (`visible`): that is what the row-level security
  policy of `products` leaves of a SELECT. The caches are outside the database: `L1LocalCache` lives
  in the process, the other layer is Redis; no rollback touches either. Every entry remembers the
  tenant in whose request it was stored (`storedBy`), for the statements only: no program reads it.

  Scope: every query is answered from the rows that are committed at that moment (read committed),
  so two queries of one request may be answered from two states of the database. Prices are exact
  rationals. The scores that rank products are floating point: their order is a parameter.
-/
import Mathlib.Algebra.Order.Ring.Rat
import Mathlib.Data.List.Sort
import CloudScale.Lib.Server
import CloudScale.Lib.Table
import CloudScale.Shared.Columns

namespace CloudScale.CatalogService

open CloudScale.Lib CloudScale.Shared

/-! ## Rows -/

structure Product where
  id : String
  sku : String
  name : String
  description : Option String
  price : ℚ
  isActive : Bool := true
  tenantId : String
deriving DecidableEq

abbrev Products := Table String Product Product.id

structure ProductResponse where
  id : String
  sku : String
  name : String
  description : Option String
  price : ℚ
  isActive : Bool
deriving DecidableEq

/-- `ProductResponse.model_validate`. -/
def modelValidate (p : Product) : ProductResponse :=
  { id := p.id, sku := p.sku, name := p.name, description := p.description, price := p.price
    isActive := p.isActive }

structure Page where
  items : List ProductResponse
  total : ℕ
  page : ℕ
  size : ℕ
  pages : ℕ
deriving DecidableEq

/-- `Page.create`. -/
def Page.create (items : List ProductResponse) (total page size : ℕ) : Page :=
  { items, total, page, size, pages := if 0 < total then (total + size - 1) / size else 0 }

/-! ## Caches -/

/-- What the caches hold: a dumped product, a dumped page, or a list of products as JSON. -/
inductive CacheValue where
  | product (p : ProductResponse)
  | page (p : Page)
  | products (ps : List ProductResponse)
deriving DecidableEq

/-- The products in a cached value. -/
def CacheValue.items : CacheValue → List ProductResponse
  | .product p => [p]
  | .page p => p.items
  | .products ps => ps

/-- `json.dumps` succeeds: it knows neither uuids nor decimals, and only the search service dumps
    its products in JSON mode. -/
def CacheValue.dumps : CacheValue → Bool
  | .product _ => false
  | .page p => p.items.isEmpty
  | .products _ => true

structure CacheEntry where
  value : CacheValue
  expiry : Int
  storedBy : String
deriving DecidableEq

/-- Latest first; a key may occur again further down. -/
abbrev Cache := List (String × CacheEntry)

/-- The entry of a key that has not expired. -/
def Cache.live (c : Cache) (key : String) (now : Int) : Option CacheEntry :=
  (c.lookup key).filter fun e => decide (now ≤ e.expiry)

def Cache.put (c : Cache) (key : String) (e : CacheEntry) : Cache := (key, e) :: c

structure Caches where
  l1 : Cache := []
  redis : Cache := []

/-! ## Queries -/

inductive CatalogQuery where
  | plan (tenant : String)
  | clock
  | redisUp
  | getL1 (key : String) (now : Int)
  | setL1 (key : String) (e : CacheEntry)
  | getRedis (key : String) (now : Int)
  | setRedis (key : String) (e : CacheEntry)
  | evictLists (redis : Bool)
  | countActive (tenant : String)
  | skuCount (sku tenant : String)
  | flush (p : Product)
  | byId (tenant id : String)
  | activePage (tenant : String) (page size : ℕ)
  | active (tenant : String)
  | byIds (tenant : String) (ids : List String)
  | ranking (ids : List String)

def CatalogAnswer : CatalogQuery → Type
  | .plan _ => Option String
  | .clock => Int
  | .redisUp => Bool
  | .getL1 _ _ => Option CacheValue
  | .setL1 _ _ => Unit
  | .getRedis _ _ => Option CacheValue
  | .setRedis _ _ => Unit
  | .evictLists _ => Unit
  | .countActive _ => ℕ
  | .skuCount _ _ => ℕ
  | .flush _ => Bool
  | .byId _ _ => Option Product
  | .activePage _ _ _ => List Product
  | .active _ => List Product
  | .byIds _ _ => List Product
  | .ranking _ => List String × ℕ

/-- What neither the database nor the caches determine: the tenant's plan, the time, whether Redis
    answers, the order in which a scan meets the rows, and how the scores, which are floating point,
    rank products and how many of them pass a threshold. -/
structure CatalogEnv where
  plan : Option String := none
  now : Int := 0
  redisUp : Bool := true
  scan : List Product := []
  ranked : List String := []
  above : ℕ := 0

/-- The rows of the session's tenant, in the order of the scan. -/
def visible (products : Products) (scan : List Product) (tenant : String) : List Product :=
  let rows := products.rows.filter fun p => decide (p.tenantId = tenant)
  if scan.Perm rows then scan else rows

/-- The rows of a page: active, by name, from the offset on and no more than the limit. -/
def pageRows (products : Products) (scan : List Product) (tenant : String) (page size : ℕ) :
    List Product :=
  let rows := (visible products scan tenant).filter (·.isActive)
  ((rows.insertionSort fun p q => p.name ≤ q.name).drop ((page - 1) * size)).take size

/-- `SELECT count(*)` of the tenant's active rows. -/
def activeTotal (products : Products) (tenant : String) : ℕ :=
  products.rows.countP fun p => p.isActive && decide (p.tenantId = tenant)

/-- The values fit the columns. -/
def Product.storable (p : Product) : Bool :=
  fitsText 100 p.sku && fitsText 255 p.name && p.description.all (fitsText 1000) &&
    fitsNumeric p.price && fitsText 100 p.tenantId

/-- The row can be inserted: its id and its SKU are new in the whole table, and its values fit. -/
def insertable (products : Products) (p : Product) : Bool :=
  decide (p.id ∉ products.rows.map (·.id)) && decide (p.sku ∉ products.rows.map (·.sku)) &&
    p.storable

def CatalogEnv.answer (env : CatalogEnv) (caches : Caches) (products : Products) :
    (q : CatalogQuery) → CatalogAnswer q
  | .plan _ => env.plan
  | .clock => env.now
  | .redisUp => env.redisUp
  | .getL1 key now => (caches.l1.live key now).map (·.value)
  | .setL1 _ _ => ()
  | .getRedis key now =>
    if env.redisUp then (caches.redis.live key now).map (·.value) else none
  | .setRedis _ _ => ()
  | .evictLists _ => ()
  | .countActive tenant => activeTotal products tenant
  | .skuCount sku tenant =>
    products.rows.countP fun p => decide (p.sku = sku) && decide (p.tenantId = tenant)
  | .flush p => insertable products p
  | .byId tenant id => (visible products env.scan tenant).find? fun p => decide (p.id = id)
  | .activePage tenant page size => pageRows products env.scan tenant page size
  | .active tenant => (visible products env.scan tenant).filter (·.isActive)
  | .byIds tenant ids => (visible products env.scan tenant).filter fun p => decide (p.id ∈ ids)
  | .ranking ids => (if env.ranked.Perm ids then env.ranked else ids, env.above)

/-- `v1:catalog_list:*`. -/
def isListKey (key : String) : Bool := "v1:catalog_list:".toList.isPrefixOf key.toList

/-- What a query does to the caches. An expired entry is dropped when it is found. -/
def CatalogQuery.effect : CatalogQuery → Caches → Caches
  | .getL1 key now, c => match c.l1.lookup key with
    | some e => if e.expiry < now then { c with l1 := c.l1.filter fun x => x.1 != key } else c
    | none => c
  | .setL1 key e, c => { c with l1 := c.l1.put key e }
  | .setRedis key e, c => { c with redis := c.redis.put key e }
  | .evictLists redis, c =>
    { l1 := [], redis := if redis then c.redis.filter fun x => !isListKey x.1 else c.redis }
  | _, c => c

/-- The entry that a query puts into a cache. -/
def CatalogQuery.stored : CatalogQuery → Option (String × CacheEntry)
  | .setL1 key e => some (key, e)
  | .setRedis key e => some (key, e)
  | _ => none

/-- What is in the caches after a query was there before, or the query puts it there. -/
theorem mem_effect {q : CatalogQuery} {c : Caches} {x : String × CacheEntry}
    (hx : x ∈ (q.effect c).l1 ++ (q.effect c).redis) : x ∈ c.l1 ++ c.redis ∨ q.stored = some x := by
  rw [List.mem_append] at hx ⊢
  cases q with
  | getL1 key now =>
    left
    simp only [CatalogQuery.effect] at hx
    split at hx
    · split at hx
      · exact hx.imp_left List.mem_of_mem_filter
      · exact hx
    · exact hx
  | setL1 key e =>
    obtain hl1 | hredis := hx
    · obtain rfl | hold := List.mem_cons.mp hl1
      · exact .inr rfl
      · exact .inl (.inl hold)
    · exact .inl (.inr hredis)
  | setRedis key e =>
    obtain hl1 | hredis := hx
    · exact .inl (.inl hl1)
    · obtain rfl | hold := List.mem_cons.mp hredis
      · exact .inr rfl
      · exact .inl (.inr hold)
  | evictLists redis =>
    obtain hl1 | hredis := hx
    · exact absurd hl1 List.not_mem_nil
    · simp only [CatalogQuery.effect] at hredis
      split at hredis
      · exact .inl (.inr (List.mem_of_mem_filter hredis))
      · exact .inl (.inr hredis)
  | _ => exact .inl hx

end CloudScale.CatalogService
