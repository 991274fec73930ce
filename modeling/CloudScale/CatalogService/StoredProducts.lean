/-
  What the catalog's cached reads leave in Redis (`get_product_by_id` and `list_products` of
  `catalog/app/service.py`, with the schemas of `catalog/app/schemas.py` and
  `cloudscale_shared/query.py`).

  The cached functions return `model_dump()`, which keeps the uuid and the decimal of every product,
  and `cache_aside` gives that to `json.dumps`; the `TypeError` is logged. So `served_iff`: Redis
  has the entry, and serves the response, exactly for a page without products; `product_not_served`
  is the smallest other case.

  Of pydantic's conversions only one fact is used, that an instance of a field's type is taken as it
  is (`Conversions`).
-/
import CloudScale.CatalogService.Model
import CloudScale.Shared.PyValue
import CloudScale.Shared.SingleFlight

namespace CloudScale.CatalogService

open CloudScale.Lib CloudScale.Shared CloudScale.SingleFlight

/-! ## Schemas -/

def dumpOption : Option String → PyValue
  | none => .none
  | some s => .str s

/-- `ProductResponse.model_dump()`. -/
def ProductResponse.modelDump (p : ProductResponse) : PyValue :=
  .dict [("id", .uuid p.id), ("sku", .str p.sku), ("name", .str p.name),
    ("description", dumpOption p.description), ("price", .decimal p.price),
    ("is_active", .bool p.isActive)]

/-- `Page.model_dump()`. -/
def Page.modelDump (p : Page) : PyValue :=
  .dict [("items", .list (p.items.map ProductResponse.modelDump)), ("total", .int p.total),
    ("page", .int p.page), ("size", .int p.size), ("pages", .int p.pages)]

/-- Pydantic's conversions to the types of the fields. -/
structure Conversions where
  toUuid : PyValue → Option String
  toStr : PyValue → Option String
  toDecimal : PyValue → Option ℚ
  toBool : PyValue → Option Bool
  toNat : PyValue → Option ℕ
  toUuid_uuid : ∀ text, toUuid (.uuid text) = some text
  toStr_str : ∀ s, toStr (.str s) = some s
  toDecimal_decimal : ∀ q, toDecimal (.decimal q) = some q
  toBool_bool : ∀ b, toBool (.bool b) = some b
  toNat_int : ∀ n : ℕ, toNat (.int n) = some n

/-- No conversion beyond these. -/
def Conversions.instances : Conversions where
  toUuid
    | .uuid text => some text
    | _ => none
  toStr
    | .str s => some s
    | _ => none
  toDecimal
    | .decimal q => some q
    | _ => none
  toBool
    | .bool b => some b
    | _ => none
  toNat
    | .int n => n.toNat?
    | _ => none
  toUuid_uuid _ := rfl
  toStr_str _ := rfl
  toDecimal_decimal _ := rfl
  toBool_bool _ := rfl
  toNat_int _ := rfl

variable (c : Conversions)

def Conversions.toOptionalStr : PyValue → Option (Option String)
  | .none => some none
  | v => (c.toStr v).map some

/-- `ProductResponse.model_validate`, of a dict. -/
def ProductResponse.ofDump : PyValue → Option ProductResponse
  | .dict d => do
    let id ← c.toUuid (← d.lookup "id")
    let sku ← c.toStr (← d.lookup "sku")
    let name ← c.toStr (← d.lookup "name")
    let description ← c.toOptionalStr (← d.lookup "description")
    let price ← c.toDecimal (← d.lookup "price")
    let isActive ← c.toBool (← d.lookup "is_active")
    return { id, sku, name, description, price, isActive }
  | _ => none

def ofDumps : List PyValue → Option (List ProductResponse)
  | [] => some []
  | v :: vs => do return (← ProductResponse.ofDump c v) :: (← ofDumps vs)

/-- `Page[ProductResponse].model_validate`, of a dict. -/
def Page.ofDump : PyValue → Option Page
  | .dict d => do
    let items ← match ← d.lookup "items" with
      | .list vs => ofDumps c vs
      | _ => none
    let total ← c.toNat (← d.lookup "total")
    let page ← c.toNat (← d.lookup "page")
    let size ← c.toNat (← d.lookup "size")
    let pages ← c.toNat (← d.lookup "pages")
    return { items, total, page, size, pages }
  | _ => none

theorem productOfDump_modelDump (p : ProductResponse) :
    ProductResponse.ofDump c p.modelDump = some p := by
  obtain ⟨id, sku, name, description, price, isActive⟩ := p
  cases description <;>
    simp [ProductResponse.ofDump, ProductResponse.modelDump, dumpOption,
      Conversions.toOptionalStr, List.lookup_cons, c.toUuid_uuid, c.toStr_str, c.toDecimal_decimal,
      c.toBool_bool]

theorem ofDumps_modelDump (ps : List ProductResponse) :
    ofDumps c (ps.map ProductResponse.modelDump) = some ps := by
  induction ps with
  | nil => rfl
  | cons p ps ih => simp [ofDumps, productOfDump_modelDump, ih]

theorem pageOfDump_modelDump (p : Page) : Page.ofDump c p.modelDump = some p := by
  simp [Page.ofDump, Page.modelDump, List.lookup_cons, ofDumps_modelDump, c.toNat_int]

/-! ## The cached functions -/

/-- What a cached function fetches from the database: a row, or the rows of a page and their total.
    -/
inductive Fetched where
  | product (row : Product)
  | page (rows : List Product) (total number size : ℕ)

/-- The response computed from the database. -/
def Fetched.response : Fetched → CacheValue
  | .product row => .product (modelValidate row)
  | .page rows total number size => .page (Page.create (rows.map modelValidate) total number size)

/-- What `_get_cached_product` or `_get_cached_list` returns. -/
def Fetched.dump : Fetched → PyValue
  | .product row => (modelValidate row).modelDump
  | .page rows total number size =>
    (Page.create (rows.map modelValidate) total number size).modelDump

/-- What `get_product_by_id` or `list_products` makes of the cached value. -/
def Fetched.validate : Fetched → PyValue → Option CacheValue
  | .product _, v => (ProductResponse.ofDump c v).map .product
  | .page _ _ _ _, v => (Page.ofDump c v).map .page

theorem validate_dump (f : Fetched) : f.validate c f.dump = some f.response := by
  cases f with
  | product row => simp [Fetched.validate, Fetched.dump, Fetched.response, productOfDump_modelDump]
  | page rows total number size =>
    simp [Fetched.validate, Fetched.dump, Fetched.response, pageOfDump_modelDump]

/-- A page without products. -/
def Fetched.Empty (f : Fetched) : Prop := ∃ total number size, f = .page [] total number size

theorem foreign_modelDump (p : ProductResponse) : p.modelDump.Foreign := Or.inl trivial

theorem foreign_dump_iff (f : Fetched) : f.dump.Foreign ↔ ¬ f.Empty := by
  cases f with
  | product row =>
    exact iff_of_true (foreign_modelDump _) (by simp [Fetched.Empty])
  | page rows total number size =>
    cases rows with
    | nil =>
      refine iff_of_false ?_ (not_not_intro ⟨total, number, size, rfl⟩)
      simp [Fetched.dump, Page.create, Page.modelDump, PyValue.Foreign, PyValue.ForeignFields,
        PyValue.ForeignList]
    | cons row rows =>
      refine iff_of_true ?_ (by simp [Fetched.Empty])
      exact Or.inl (Or.inl (foreign_modelDump _))

/-- The cache's model stores the responses that `json.dumps` encodes. -/
theorem dumps_response (f : Fetched) : f.response.dumps = f.dump.dumps.isSome := by
  rw [Bool.eq_iff_iff, Option.isSome_iff_ne_none, Ne, PyValue.dumps_eq_none_iff, foreign_dump_iff,
    not_not]
  cases f with
  | product row => simp [Fetched.response, CacheValue.dumps, Fetched.Empty]
  | page rows total number size =>
    simp [Fetched.response, CacheValue.dumps, Fetched.Empty, Page.create]

/-! ## Redis -/

def isNone : PyValue → Bool
  | .none => true
  | _ => false

/-- The values of the cached functions, with the round trip through JSON. -/
def pyValues : Values PyValue where
  null := .none
  isNull := isNone
  roundTrip v := v.dumps.map PyValue.loads
  isNull_iff v := by cases v <;> simp [isNone]
  roundTrip_null := rfl

/-- After a miss with Redis the entry is there, and a later call that misses L1 reads the response
    back. -/
def Served (f : Fetched) : Prop :=
  ∀ ls s i, Reaches (step pyValues) (Allowed (· = f.dump) true) {} ls s →
    (∃ v, s.calls i = some (.returned v)) → s.locked = none →
      s.redis ≠ none ∧ ∀ j, s.calls j = none →
        ∃ t v, runFrom (step pyValues) { s with l1 := none } [.call j true, .read j true] = some t ∧
          t.calls j = some (.returned v) ∧ f.validate c v = some f.response

theorem roundTrip_eq_none_iff (v : PyValue) : pyValues.roundTrip v = none ↔ v.Foreign := by
  rw [← PyValue.dumps_eq_none_iff]
  exact Option.map_eq_none_iff

theorem kept (v : PyValue) : Kept pyValues true v := by
  rw [Kept, if_pos rfl]
  intro w hw
  obtain ⟨text, htext, rfl⟩ := Option.map_eq_some_iff.mp hw
  exact PyValue.loads_dumps htext

theorem not_served {f : Fetched} (h : f.dump.Foreign) : ¬ Served c f := by
  intro hserved
  have htext := (roundTrip_eq_none_iff f.dump).mpr h
  obtain ⟨s, hs, hv, hfree, hredis⟩ := refused (· = f.dump) rfl htext
  exact (hserved _ s 0 hs ⟨f.dump, hv⟩ hfree).1 hredis

/-- Redis serves the response exactly if it is a page without products. -/
theorem served_iff (f : Fetched) : Served c f ↔ f.Empty := by
  refine ⟨fun h => ?_, fun hempty ls s i hreach ⟨v, hv⟩ hfree => ?_⟩
  · by_contra hne
    exact not_served c ((foreign_dump_iff f).mpr hne) h
  · have hinv := inv_of_reaches (fun r _ => kept r) hreach
    obtain rfl : v = f.dump := (hinv.filled_of_returned hv).1
    have htext : pyValues.roundTrip f.dump ≠ none := fun hnone =>
      (foreign_dump_iff f).mp ((roundTrip_eq_none_iff f.dump).mp hnone) hempty
    have hredis := hinv.redis_eq hv hfree htext
    refine ⟨by simp [hredis], fun j hj => ?_⟩
    obtain ⟨t, ht, hcall⟩ := read_again hredis hj
    exact ⟨t, f.dump, ht, hcall, validate_dump c f⟩

theorem product_not_served : ¬ ∀ c f, Served c f := fun h =>
  not_served .instances (f := .product ⟨"e4eaaaf2", "SKU-1", "Desk", none, 5, true, "acme"⟩)
    (foreign_modelDump _) (h _ _)

end CloudScale.CatalogService
