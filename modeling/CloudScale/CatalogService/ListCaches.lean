/-
  Cached product lists after a create (`catalog/app/service.py`).

  `create_product` evicts the cached pages and commits afterwards, when its session ends. In between
  another request may read a page that the new product is not on, and store it. `Undisturbed` says
  of a commit that neither layer holds a page of the tenant by then, and that no `list_products`
  call of the tenant has counted, or read a page, and has still to store it. `lists_created`: in
  every run of such commits each page that is returned was computed, total and rows, from a state of
  the database that has all products committed when the call started. `stale_after_create` is a page
  cached between the eviction and the commit.
-/
import CloudScale.Lib.Joined
import CloudScale.Lib.Relay
import CloudScale.Tenancy.Reads

namespace CloudScale.CatalogService

open CloudScale.Lib Tenancy

/-! ## Pages -/

/-- The page that `list_products` computes, with the rows in the order of the scan. -/
def pageOf (products : Products) (scan : List Product) (tenant : String) (page size : ℕ) :
    CacheValue :=
  .page (Page.create ((pageRows products scan tenant page size).map modelValidate)
    (activeTotal products tenant) page size)

/-- The value is the page as the database has it. -/
def ComputedFrom (products : Products) (tenant : String) (page size : ℕ) (v : CacheValue) : Prop :=
  ∃ scan, v = pageOf products scan tenant page size

def tenantRows (products : Products) (tenant : String) : List Product :=
  products.rows.filter fun p => decide (p.tenantId = tenant)

theorem activeTotal_eq (products : Products) (tenant : String) :
    activeTotal products tenant = (tenantRows products tenant).countP (·.isActive) :=
  (List.countP_filter ..).symm

theorem pageRows_congr {products products' : Products} {scan : List Product} {tenant : String}
    {page size : ℕ} (hrows : tenantRows products tenant = tenantRows products' tenant) :
    pageRows products scan tenant page size = pageRows products' scan tenant page size := by
  have hvisible : visible products scan tenant = visible products' scan tenant := by
    show (if scan.Perm (tenantRows products tenant) then scan else tenantRows products tenant) = _
    rw [hrows]
    rfl
  unfold pageRows
  rw [hvisible]

/-- A page depends on the tenant's products only. -/
theorem ComputedFrom.congr {products products' : Products} {tenant : String} {page size : ℕ}
    {v : CacheValue} (h : ComputedFrom products tenant page size v)
    (hrows : tenantRows products tenant = tenantRows products' tenant) :
    ComputedFrom products' tenant page size v := by
  obtain ⟨scan, rfl⟩ := h
  refine ⟨scan, ?_⟩
  unfold pageOf
  rw [pageRows_congr hrows, activeTotal_eq, activeTotal_eq, hrows]

theorem field_inj {a b b' : List Char} (h : a ++ ':' :: b = a ++ ':' :: b') : b = b' :=
  (List.cons.inj (List.append_cancel_left h)).2

/-- The key of a page names its tenant, its number and its size. -/
theorem listKey_injective {tenant tenant' : String} {page size page' size' : ℕ}
    (h : listKey tenant page size = listKey tenant' page' size') :
    tenant = tenant' ∧ page = page' ∧ size = size' := by
  have htenant := listKey_tenant h
  subst htenant
  have hlist := congrArg String.toList h
  unfold listKey at hlist
  rw [fields_toList, fields_toList] at hlist
  have hfields := List.append_cancel_right hlist
  have hfront := last_field hfields (colon_not_mem_toString size) (colon_not_mem_toString size')
  rw [hfront] at hfields
  have hpage := String.toList_injective (field_inj hfront)
  have hsize := String.toList_injective (field_inj hfields)
  exact ⟨rfl, toString_injective hpage, toString_injective hsize⟩

/-! ## What is read and stored -/

/-- The queries with which a page begins: it is found in a cache, or its total is. -/
def CatalogQuery.reads : CatalogQuery → Prop
  | .getL1 _ _ => True
  | .getRedis _ _ => True
  | .countActive _ => True
  | _ => False

/-- A value under the key of a page is that page. -/
def PageAt (products : Products) (key : String) (v : CacheValue) : Prop :=
  ∀ tenant page size, key = listKey tenant page size → ComputedFrom products tenant page size v

/-- The pages in the caches are as the database has them. -/
def PagesCurrent (caches : Caches) (products : Products) : Prop :=
  ∀ x ∈ caches.l1 ++ caches.redis, PageAt products x.1 x.2.value

/-- What a request is answered is as the database has it. -/
def Gives (r : CatalogRequest) (products : Products) : (q : CatalogQuery) → CatalogAnswer q → Prop
  | .getL1 key _, (found : Option CacheValue) => ∀ v ∈ found, PageAt products key v
  | .getRedis key _, (found : Option CacheValue) => ∀ v ∈ found, PageAt products key v
  | .countActive tenant, (total : ℕ) => total = activeTotal products tenant
  | .activePage tenant page size, (items : List Product) =>
    r = .listProducts tenant page size → ∃ scan, items = pageRows products scan tenant page size
  | _, _ => True

/-- A list call stores its page only, another request no page. -/
def StoresOwn (r : CatalogRequest) (products : Products) (q : CatalogQuery) : Prop :=
  ∀ x, q.stored = some x → KeyFits r x.1 ∧ ∀ tenant page size,
    r = .listProducts tenant page size → ComputedFrom products tenant page size x.2.value

/-- A list call returns its page. -/
def ReturnsPage (r : CatalogRequest) (products : Products) (w : CatalogResult) : Prop :=
  ∀ tenant page size v, r = .listProducts tenant page size → w = .read v →
    ComputedFrom products tenant page size v

theorem pageAt_of_storesOwn {r : CatalogRequest} {products : Products} {q : CatalogQuery}
    {x : String × CacheEntry} (h : StoresOwn r products q) (hq : q.stored = some x) :
    PageAt products x.1 x.2.value := by
  intro tenant page size hkey
  obtain ⟨hfits, hpage⟩ := h x hq
  cases r with
  | listProducts tenant' page' size' =>
    obtain ⟨rfl, rfl, rfl⟩ := listKey_injective (hkey.symm.trans hfits)
    exact hpage _ _ _ rfl
  | _ => exact absurd hkey (hfits tenant page size)

theorem pagesCurrent_effect {caches : Caches} {products : Products} {q : CatalogQuery}
    (h : PagesCurrent caches products)
    (hq : ∀ x, q.stored = some x → PageAt products x.1 x.2.value) :
    PagesCurrent (q.effect caches) products := by
  intro x hx
  obtain hold | hnew := mem_effect hx
  · exact h x hold
  · exact hq x hnew

theorem pageAt_of_live {layer : Cache} {products : Products} {key : String} {now : Int}
    {v : CacheValue} (h : ∀ x ∈ layer, PageAt products x.1 x.2.value)
    (hv : (layer.live key now).map (·.value) = some v) : PageAt products key v := by
  obtain ⟨e, he, rfl⟩ := Option.map_eq_some_iff.mp hv
  exact h _ (mem_of_live he)

/-- What is answered to a read is as the database has it, when the caches are. -/
theorem gives_answer {rt : Runtime} {caches : Caches} {products : Products} (r : CatalogRequest)
    (ω : CatalogEnv) {q : CatalogQuery} (h : PagesCurrent caches products) :
    Gives r products q ((service rt).answer ω caches products q) := by
  have hl1 : ∀ x ∈ caches.l1, PageAt products x.1 x.2.value :=
    fun x hx => h x (List.mem_append_left _ hx)
  have hredis : ∀ x ∈ caches.redis, PageAt products x.1 x.2.value :=
    fun x hx => h x (List.mem_append_right _ hx)
  cases q with
  | getL1 key now => exact fun v hv => pageAt_of_live hl1 hv
  | getRedis key now =>
    show ∀ v ∈ (if ω.redisUp then (caches.redis.live key now).map (·.value) else none), _
    split
    · exact fun v hv => pageAt_of_live hredis hv
    · exact fun v hv => absurd hv (Option.not_mem_none v)
  | countActive tenant => rfl
  | activePage tenant page size => exact fun _ => ⟨ω.scan, rfl⟩
  | _ => trivial

/-! ## Programs -/

section Programs

variable {rt : Runtime}

abbrev Passes {R : Type} (r : CatalogRequest) (post : Products → R → Prop) (p : CatalogTxn R) :
    Prop :=
  p.Relays CatalogQuery.reads (Gives r) (StoresOwn r) post

theorem storesOwn_of_unstored {r : CatalogRequest} {products : Products} {q : CatalogQuery}
    (h : q.stored = none) : StoresOwn r products q := by
  intro x hx
  rw [h] at hx
  cases hx

/-- The query reads no page, and if it stores, then this value under this key. -/
def Keeps (key : String) (v : CacheValue) (q : CatalogQuery) : Prop :=
  ¬ q.reads ∧ ∀ x, q.stored = some x → x.1 = key ∧ x.2.value = v

/-- The program stores this value only, and returns it. -/
abbrev Hands (key : String) (v : CacheValue) (p : CatalogTxn CacheValue) : Prop :=
  p.Until (fun _ => False) (Keeps key v) (fun _ _ => True) (· = v)

theorem keeps_of_unstored {key : String} {v : CacheValue} {q : CatalogQuery} (hreads : ¬ q.reads)
    (h : q.stored = none) : Keeps key v q :=
  ⟨hreads, fun x hx => by simp [h] at hx⟩

theorem setL1_hands {tenant key : String} {v : CacheValue} {ttl : Int}
    {f : Unit → CatalogTxn CacheValue} (h : Hands key v (f ())) :
    Hands key v (setL1 tenant key v ttl >>= f) := by
  refine .inr ⟨keeps_of_unstored id rfl, fun now _ => .inr ⟨⟨id, fun x hx => ?_⟩, fun _ _ => h⟩⟩
  cases hx
  exact ⟨rfl, rfl⟩

theorem setex_hands {tenant key : String} {v : CacheValue} {ttl : Int}
    {f : Unit → CatalogTxn CacheValue} (h : Hands key v (f ())) :
    Hands key v (setex tenant key ttl v >>= f) := by
  refine .inr ⟨keeps_of_unstored id rfl, fun (up : Bool) _ => ?_⟩
  show Hands key v ((if (up && v.dumps) = true then _ else _) >>= f)
  split
  · refine .inr ⟨keeps_of_unstored id rfl, fun now _ => .inr ⟨⟨id, fun x hx => ?_⟩, fun _ _ => h⟩⟩
    cases hx
    exact ⟨rfl, rfl⟩
  · exact h

section Lists

variable {tenant : String} {page size : ℕ} {products : Products} {v : CacheValue}
  {p : CatalogTxn CacheValue}

/-- Until it reads again, a list call stores and returns pages as the database has them. -/
abbrev UntilRead (tenant : String) (page size : ℕ) (products : Products)
    (p : CatalogTxn CacheValue) : Prop :=
  p.Until CatalogQuery.reads (StoresOwn (.listProducts tenant page size) products)
    (Gives (.listProducts tenant page size) products) (ComputedFrom products tenant page size)

theorem Hands.until (h : Hands (listKey tenant page size) v p)
    (hv : ComputedFrom products tenant page size v) : UntilRead tenant page size products p := by
  refine (h.stop_imp fun _ => False.elim).imp (fun q _ hq => ⟨fun x hx => ?_, fun _ _ => trivial⟩)
    fun w hw => hw ▸ hv
  obtain ⟨hkey, hvalue⟩ := hq.2 x hx
  refine ⟨hkey, fun tenant' page' size' heq => ?_⟩
  cases heq
  exact hvalue ▸ hv

theorem Hands.passes {post : Products → CacheValue → Prop}
    (h : Hands (listKey tenant page size) v p) :
    Passes (.listProducts tenant page size) post p :=
  Txn.relays_of_unread (h.unstopped.imp fun _ hq => hq.1)

variable {f : Option CacheValue → CatalogTxn CacheValue}

abbrev PassesPage (tenant : String) (page size : ℕ) (p : CatalogTxn CacheValue) : Prop :=
  Passes (.listProducts tenant page size) (fun d => ComputedFrom d tenant page size) p

section Lookup

variable (hsome : ∀ v, Hands (listKey tenant page size) v (f (some v)))
  (hnone : PassesPage tenant page size (f none) ∧ ∀ d, UntilRead tenant page size d (f none))

include hsome hnone

/-- What a lookup finds is returned, or handed on. -/
theorem found_passes (found : Option CacheValue) :
    (∀ d, (∀ v ∈ found, PageAt d (listKey tenant page size) v) →
      UntilRead tenant page size d (f found)) ∧ PassesPage tenant page size (f found) := by
  cases found with
  | none => exact ⟨fun d _ => hnone.2 d, hnone.1⟩
  | some v => exact ⟨fun d hd => (hsome v).until (hd v rfl _ _ _ rfl), (hsome v).passes⟩

theorem getL1_passes : PassesPage tenant page size (getL1 (listKey tenant page size) >>= f) :=
  fun _ => ⟨fun h => h.elim, fun (found : Option CacheValue) =>
    ⟨fun _ => (found_passes hsome hnone found).1, (found_passes hsome hnone found).2⟩⟩

theorem getRedis_passes : PassesPage tenant page size (getRedis (listKey tenant page size) >>= f) :=
  fun _ => ⟨fun h => h.elim, fun (found : Option CacheValue) =>
    ⟨fun _ => (found_passes hsome hnone found).1, (found_passes hsome hnone found).2⟩⟩

end Lookup

theorem until_lookup (key : String) :
    UntilRead tenant page size products (getL1 key >>= f) ∧
      UntilRead tenant page size products (getRedis key >>= f) :=
  ⟨.inr ⟨storesOwn_of_unstored rfl, fun _ _ => .inl trivial⟩,
    .inr ⟨storesOwn_of_unstored rfl, fun _ _ => .inl trivial⟩⟩

theorem listProducts_passes (tenant : String) (page size : ℕ) :
    PassesPage tenant page size (listProducts tenant page size) := by
  have hstored : ∀ v, Hands (listKey tenant page size) v
      (setL1 tenant (listKey tenant page size) v 5 >>= fun _ => pure v) := fun v => setL1_hands rfl
  refine getL1_passes (fun v => rfl) ⟨?_, fun d => (until_lookup _).2⟩
  refine getRedis_passes hstored ⟨?_, fun d => (until_lookup _).1⟩
  refine getL1_passes (fun v => rfl) ⟨?_, fun d => (until_lookup _).2⟩
  refine getRedis_passes hstored ⟨?_, fun d => .inl trivial⟩
  have hfetched : ∀ v, Hands (listKey tenant page size) v
      (setL1 tenant (listKey tenant page size) v 5 >>= fun _ =>
        setex tenant (listKey tenant page size) 60 v >>= fun _ => pure v) :=
    fun v => setL1_hands (setex_hands rfl)
  -- the rows fit the total if they come from the database that was counted
  refine fun (total : ℕ) => ⟨fun _ d htotal => .inr ⟨storesOwn_of_unstored rfl, ?_⟩, ?_⟩
  · intro (items : List Product) hitems
    obtain ⟨scan, rfl⟩ := hitems rfl
    exact (hfetched _).until ⟨scan, by rw [htotal]; rfl⟩
  · exact fun (items : List Product) => ⟨fun h => h.elim, (hfetched _).passes⟩

end Lists

/-! ## Other requests -/

/-- The query stores under keys of the request only. -/
def UnderOwnKey (r : CatalogRequest) (q : CatalogQuery) : Prop :=
  ∀ x, q.stored = some x → KeyFits r x.1

theorem underOwnKey_of_unstored {r : CatalogRequest} {q : CatalogQuery} (h : q.stored = none) :
    UnderOwnKey r q := by
  intro x hx
  rw [h] at hx
  cases hx

section Keys

variable {r : CatalogRequest} {key : String}

theorem getL1_asks (key : String) : (getL1 key).Asks (UnderOwnKey r) :=
  ⟨underOwnKey_of_unstored rfl, fun _ => ⟨underOwnKey_of_unstored rfl, fun _ => trivial⟩⟩

theorem getRedis_asks (key : String) : (getRedis key).Asks (UnderOwnKey r) :=
  ⟨underOwnKey_of_unstored rfl, fun _ => ⟨underOwnKey_of_unstored rfl, fun _ => trivial⟩⟩

theorem setL1_asks (hkey : KeyFits r key) (tenant : String) (v : CacheValue) (ttl : Int) :
    (setL1 tenant key v ttl).Asks (UnderOwnKey r) := by
  refine ⟨underOwnKey_of_unstored rfl, fun now => ⟨fun x hx => ?_, fun _ => trivial⟩⟩
  cases hx
  exact hkey

theorem setex_asks (hkey : KeyFits r key) (tenant : String) (ttl : Int) (v : CacheValue) :
    (setex tenant key ttl v).Asks (UnderOwnKey r) := by
  refine ⟨underOwnKey_of_unstored rfl, fun (up : Bool) => ?_⟩
  show Txn.Asks _ (if (up && v.dumps) = true then _ else _)
  split
  · refine ⟨underOwnKey_of_unstored rfl, fun now => ⟨fun x hx => ?_, fun _ => trivial⟩⟩
    cases hx
    exact hkey
  · trivial

theorem cacheAside_asks (hkey : KeyFits r key) (tenant : String) (ttl l1Ttl : Int)
    {fetch : CatalogTxn CacheValue} (hfetch : fetch.Asks (UnderOwnKey r)) :
    (cacheAside tenant key ttl l1Ttl fetch).Asks (UnderOwnKey r) := by
  have hwarm : ∀ v, (setL1 tenant key v l1Ttl >>= fun _ => pure v).Asks (UnderOwnKey r) :=
    fun v => (setL1_asks hkey tenant v l1Ttl).bind fun _ => trivial
  refine (getL1_asks key).bind fun found => ?_
  cases found with
  | some v => trivial
  | none =>
    refine (getRedis_asks key).bind fun found => ?_
    cases found with
    | some v => exact hwarm v
    | none =>
      refine (getL1_asks key).bind fun found => ?_
      cases found with
      | some v => trivial
      | none =>
        refine (getRedis_asks key).bind fun found => ?_
        cases found with
        | some v => exact hwarm v
        | none =>
          refine hfetch.bind fun v => (setL1_asks hkey tenant v l1Ttl).bind fun _ => ?_
          exact (setex_asks hkey tenant ttl v).bind fun _ => trivial

theorem asks_query {R : Type} {q : CatalogQuery} {f : CatalogAnswer q → CatalogTxn R}
    (hq : q.stored = none) (hf : ∀ x, (f x).Asks (UnderOwnKey r)) :
    (Txn.query q >>= f).Asks (UnderOwnKey r) :=
  ⟨underOwnKey_of_unstored hq, hf⟩

end Keys

theorem getProductById_asks (tenant id : String) :
    (getProductById tenant id).Asks (UnderOwnKey (.getProductById tenant id)) := by
  have hkey : KeyFits (.getProductById tenant id) (productKey id) := productKey_ne id
  refine cacheAside_asks hkey tenant 300 5 ?_
  refine Txn.Asks.bind (asks_query rfl fun (found : Option Product) => ?_) fun _ => trivial
  cases found with
  | none => trivial
  | some product =>
    show Txn.Asks _ (if product.isActive = true then _ else _)
    split
    · trivial
    · trivial

theorem getRecommendations_asks (tenant id : String) (limit : ℕ) :
    (getRecommendations tenant id limit).Asks
      (UnderOwnKey (.getRecommendations tenant id limit)) := by
  have hkey : KeyFits (.getRecommendations tenant id limit) (recsKey id limit) :=
    recsKey_ne id limit
  refine (getRedis_asks _).bind fun found => ?_
  cases found with
  | some v => trivial
  | none =>
    refine asks_query rfl fun (products : List Product) => ?_
    refine Txn.Asks.bind ?_ fun known => ?_
    · unfold targetKnown
      split
      · trivial
      · exact asks_query rfl fun _ => trivial
    · cases known with
      | false => trivial
      | true =>
        refine asks_query rfl fun (ranked : List String × ℕ) => ?_
        dsimp only
        split
        · trivial
        · refine asks_query rfl fun (found : List Product) => ?_
          exact (setex_asks hkey tenant _ _).bind fun _ => trivial

theorem semanticSearch_asks (tenant query : String) (limit : ℕ) :
    (semanticSearch rt tenant query limit).Asks
      (UnderOwnKey (.semanticSearch tenant query limit)) := by
  have hkey : KeyFits (.semanticSearch tenant query limit) (searchKey rt query limit) :=
    searchKey_ne rt query limit
  refine (getRedis_asks _).bind fun found => ?_
  cases found with
  | some v => trivial
  | none =>
    refine asks_query rfl fun (products : List Product) => ?_
    refine asks_query rfl fun (ranked : List String × ℕ) => ?_
    dsimp only
    split
    · exact asks_query rfl fun _ => trivial
    · refine asks_query rfl fun (found : List Product) => ?_
      exact (setex_asks hkey tenant _ _).bind fun _ => trivial

theorem program_asks (tid : ℕ) (r : CatalogRequest)
    (hr : ∀ tenant page size, r ≠ .listProducts tenant page size) :
    (program rt tid r).Asks (UnderOwnKey r) := by
  cases r with
  | createProduct c =>
    exact ((createProduct_unstored rt tid c).imp fun _ => underOwnKey_of_unstored).bind
      fun _ => trivial
  | getProductById tenant id => exact (getProductById_asks tenant id).bind fun _ => trivial
  | listProducts tenant page size => exact absurd rfl (hr tenant page size)
  | getRecommendations tenant id limit =>
    exact (getRecommendations_asks tenant id limit).bind fun _ => trivial
  | semanticSearch tenant query limit =>
    exact (semanticSearch_asks tenant query limit).bind fun _ => trivial

theorem storesOwn_of_other {r : CatalogRequest} {products : Products} {q : CatalogQuery}
    (hr : ∀ tenant page size, r ≠ .listProducts tenant page size) (hq : UnderOwnKey r q) :
    StoresOwn r products q :=
  fun x hx => ⟨hq x hx, fun tenant page size heq => absurd heq (hr tenant page size)⟩

theorem listOrOther (r : CatalogRequest) :
    (∃ tenant page size, r = .listProducts tenant page size) ∨
      ∀ tenant page size, r ≠ .listProducts tenant page size := by
  cases r with
  | listProducts tenant page size => exact .inl ⟨tenant, page, size, rfl⟩
  | _ => exact .inr fun _ _ _ => nofun

end Programs

/-! ## Runs -/

/-- Requests over the caches pass on the pages that they read. -/
def pageRelay (rt : Runtime) : Relay (service rt) where
  reads := CatalogQuery.reads
  right := PagesCurrent
  gives := Gives
  asks := StoresOwn
  post := ReturnsPage
  grows d d' := d.rows <+: d'.rows
  refl _ := List.prefix_refl _
  trans _ _ _ := List.IsPrefix.trans
  commit w d d' h := by
    cases w with
    | read v =>
      cases h
      exact List.prefix_refl _
    | created p =>
      simp only [service, commit, Option.ite_none_right_eq_some] at h
      exact Table.rows_extend h.2 ▸ List.prefix_append _ _
  starts tid r := by
    rcases listOrOther r with ⟨tenant, page, size, rfl⟩ | hr
    · exact .inr ⟨fun _ => storesOwn_of_unstored rfl, fun _ _ => .inl trivial⟩
    · refine Txn.until_of_asks ((program_asks tid r hr).imp fun q hq d =>
        storesOwn_of_other hr hq) ?_
      exact fun w d tenant page size v heq => absurd heq (hr tenant page size)
  relays tid r := by
    rcases listOrOther r with ⟨tenant, page, size, rfl⟩ | hr
    · refine ((listProducts_passes tenant page size).imp fun d v hv => ?_).bind fun _ => trivial
      intro tenant' page' size' v' heq hread
      cases heq
      cases hread
      exact hv
    · refine Txn.relays_of_asks ((program_asks tid r hr).imp fun q hq d =>
        storesOwn_of_other hr hq) ?_
      exact fun d w tenant page size v heq => absurd heq (hr tenant page size)
  answer r ω _ _ _ h := gives_answer r ω h
  read q x d h hq := by
    refine pagesCurrent_effect h fun x hx => ?_
    cases q with
    | setL1 key e => exact hq.elim
    | setRedis key e => exact hq.elim
    | _ => cases hx
  store _ _ _ _ h hq := pagesCurrent_effect h fun _ hx => pageAt_of_storesOwn hq hx

inductive Layer where
  | l1
  | redis

/-- An entry of a layer is gone: it has expired, or was evicted. -/
def Caches.drop : Layer × String → Caches → Option Caches
  | (.l1, key), c => some { c with l1 := c.l1.filter fun x => x.1 != key }
  | (.redis, key), c => some { c with redis := c.redis.filter fun x => x.1 != key }

theorem pagesCurrent_drop (e : Layer × String) (caches caches' : Caches) (products : Products)
    (h : PagesCurrent caches products) (hdrop : caches.drop e = some caches') :
    PagesCurrent caches' products := by
  obtain ⟨layer, key⟩ := e
  intro x hx
  rw [List.mem_append] at hx
  refine h x (List.mem_append.mpr ?_)
  cases layer with
  | l1 =>
    cases hdrop
    exact hx.imp_left List.mem_of_mem_filter
  | redis =>
    cases hdrop
    exact hx.imp_right List.mem_of_mem_filter

/-- The program neither reads rows nor stores anything before it looks the page up, or counts,
    again. -/
def ReadsFirst {R : Type} (p : CatalogTxn R) : Prop :=
  p.Until CatalogQuery.reads
    (fun q => q.stored = none ∧ ∀ tenant page size, q ≠ .activePage tenant page size)
    (fun _ _ => True) fun _ => True

/-- When a product is committed, neither layer holds a page of its tenant, and no list call of the
    tenant has counted, or read a page, and has still to read the rows or to store. -/
def Undisturbed (srv : CatalogServer) :
    EnvLabel (Layer × String) (Label CatalogRequest CatalogEnv) → Prop
  | .act (.move (.finish i)) => ∀ a, srv.active[i]? = some a → ∀ p, a.prog = .done (.created p) →
      (∀ x ∈ srv.world.l1 ++ srv.world.redis, ∀ page size,
        x.1 ≠ listKey p.tenantId page size) ∧
      ∀ b ∈ srv.active, ∀ page size, b.req = .listProducts p.tenantId page size →
        ReadsFirst b.prog
  | _ => True

theorem tenantRows_extend {products products' : Products} {p : Product} {tenant : String}
    (h : products.extend [p] = some products') (hne : tenant ≠ p.tenantId) :
    tenantRows products tenant = tenantRows products' tenant := by
  unfold tenantRows
  rw [Table.rows_extend h, List.filter_append, List.filter_singleton]
  simp [Ne.symm hne]

/-- Only a page's rows, of the queries that begin none, are answered from the database. -/
theorem gives_of_blind {r : CatalogRequest} {products products' : Products} {q : CatalogQuery}
    (hread : ¬ q.reads) (hq : ∀ tenant page size, q ≠ .activePage tenant page size)
    (x : CatalogAnswer q) (_ : Gives r products' q x) : Gives r products q x := by
  cases q with
  | getL1 key now => exact absurd trivial hread
  | getRedis key now => exact absurd trivial hread
  | countActive tenant => exact absurd trivial hread
  | activePage tenant page size => exact absurd rfl (hq tenant page size)
  | _ => trivial

/-- The rows of a page are the same in two databases with the same products of its tenant. -/
theorem gives_of_rows {r : CatalogRequest} {products products' : Products} {q : CatalogQuery}
    (hread : ¬ q.reads) (hrows : ∀ {tenant page size}, r = .listProducts tenant page size →
      tenantRows products tenant = tenantRows products' tenant)
    (x : CatalogAnswer q) (h : Gives r products' q x) : Gives r products q x := by
  cases q with
  | getL1 key now => exact absurd trivial hread
  | getRedis key now => exact absurd trivial hread
  | countActive tenant => exact absurd trivial hread
  | activePage tenant page size =>
    intro hr
    obtain ⟨scan, hscan⟩ := h hr
    exact ⟨scan, hscan.trans (pageRows_congr (hrows hr)).symm⟩
  | _ => trivial

/-- The commit of a product makes no page of another tenant wrong. -/
theorem calmCommit_of_undisturbed {rt : Runtime} {srv : CatalogServer} {m : Move CatalogEnv}
    (hcurrent : (pageRelay rt).Current srv) (h : Undisturbed srv (.act (.move m))) :
    (pageRelay rt).CalmCommit srv m := by
  cases m with
  | advance i ω => trivial
  | crash i => trivial
  | finish i =>
    intro a ha w d hp hc
    cases w with
    | read v =>
      cases hc
      exact ⟨hcurrent.right, fun b _ => .inl fun _ _ hq => ⟨hq, fun _ h => h⟩⟩
    | created p =>
      obtain ⟨hcaches, hcalls⟩ := h a ha p hp
      simp only [service, commit, Option.ite_none_right_eq_some] at hc
      refine ⟨fun x hx tenant page size hkey => ?_, fun b hb => ?_⟩
      · have hne : tenant ≠ p.tenantId := by
          rintro rfl
          exact hcaches x hx page size hkey
        exact (hcurrent.right x hx tenant page size hkey).congr (tenantRows_extend hc.2 hne)
      · rcases listOrOther b.req with ⟨tenant, page, size, hreq⟩ | hother
        · by_cases hne : tenant = p.tenantId
          · subst hne
            refine .inr ((hcalls b hb page size hreq).imp (fun q hread hq => ?_) fun _ h => h)
            exact ⟨⟨storesOwn_of_unstored hq.1, gives_of_blind hread hq.2⟩, fun _ _ => trivial⟩
          · have hrows : ∀ {tenant' page' size'}, b.req = .listProducts tenant' page' size' →
                tenantRows srv.db tenant' = tenantRows d tenant' := by
              intro tenant' page' size' heq
              rw [hreq] at heq
              cases heq
              exact tenantRows_extend hc.2 hne
            refine .inl fun q hread hq => ⟨fun x hx => ⟨(hq x hx).1, fun _ _ _ heq => ?_⟩, ?_⟩
            · exact ((hq x hx).2 _ _ _ heq).congr (hrows heq)
            · exact gives_of_rows hread fun heq => hrows heq
        · refine .inl fun q hread hq => ⟨fun x hx => ⟨(hq x hx).1, fun _ _ _ heq => ?_⟩, ?_⟩
          · exact absurd heq (hother _ _ _)
          · exact gives_of_rows hread fun heq => absurd heq (hother _ _ _)

/-- Each list call that is about to return a page has computed it, or found it as computed, from a
    state of the database that has all that was committed when the call started. -/
def ListsCurrent (srv : CatalogServer) : Prop :=
  ∀ a ∈ srv.active, ∀ tenant page size v, a.req = .listProducts tenant page size →
    a.prog = .done (.read v) → ∃ products : Products, a.begun.rows <+: products.rows ∧
      products.rows <+: srv.db.rows ∧ ComputedFrom products tenant page size v

/-- However requests interleave, no list is stale when no page of the tenant is cached, or still to
    be cached, at the commit of a product. -/
theorem lists_created {rt : Runtime} {products : Products} {caches : Caches}
    {ls : List (EnvLabel (Layer × String) (Label CatalogRequest CatalogEnv))} {srv : CatalogServer}
    (hcaches : PagesCurrent caches products)
    (h : Reaches ((service rt).stepIn Caches.drop) Undisturbed
      (Server.init products caches) ls srv) :
    ListsCurrent srv := by
  have hcurrent : (pageRelay rt).Current srv :=
    (pageRelay rt).reaches h hcaches pagesCurrent_drop
      fun s m hs hm => calmCommit_of_undisturbed hs hm
  intro a ha tenant page size v hreq hp
  obtain ⟨d, hbegun, hnow, hpost⟩ := hcurrent.since ha hp
  exact ⟨d, hbegun, hnow, hpost tenant page size v hreq rfl⟩

/-! ## Two runs -/

def resultOf {R : Type} : CatalogTxn R → Option R
  | .done r => some r
  | _ => none

theorem eq_done_of_resultOf {R : Type} {p : CatalogTxn R} {r : R} (h : resultOf p = some r) :
    p = .done r := by
  cases p with
  | done r' => exact congrArg Txn.done (Option.some.inj h)
  | raise e => cases h
  | ask q k => cases h

def lampPayload : ProductCreate where
  sku := "sku-1"
  name := "lamp"
  description := none
  price := 1
  sku_length := by decide
  name_length := ProductCreate.lamp_length
  price_pos := ProductCreate.one_price_pos

def lamp (redis : Bool) : NewProduct := { tenant := "a", redis, payload := lampPayload }

/-- The transaction at place `i` takes `n` steps. -/
def advances (i n : ℕ) : List (EnvLabel (Layer × String) (Label CatalogRequest CatalogEnv)) :=
  List.replicate n (.act (.move (.advance i {})))

/-- A product is committed alone, over empty caches. -/
def Quiet (srv : CatalogServer) :
    EnvLabel (Layer × String) (Label CatalogRequest CatalogEnv) → Prop
  | .act (.move (.finish i)) => match srv.active[i]? with
    | some a => match resultOf a.prog with
      | some (.created _) => srv.world.l1 = [] ∧ srv.world.redis = [] ∧ srv.active.length = 1
      | _ => True
    | none => True
  | _ => True

instance (srv : CatalogServer) (l : EnvLabel (Layer × String) (Label CatalogRequest CatalogEnv)) :
    Decidable (Quiet srv l) :=
  match l with
  | .drift _ => isTrue trivial
  | .act (.start _) => isTrue trivial
  | .act (.move (.advance _ _)) => isTrue trivial
  | .act (.move (.crash _)) => isTrue trivial
  | .act (.move (.finish i)) =>
    match h : srv.active[i]? with
    | none => isTrue (by simp only [Quiet, h])
    | some a =>
      match hresult : resultOf a.prog with
      | some (.created _) => decidable_of_iff
        (srv.world.l1 = [] ∧ srv.world.redis = [] ∧ srv.active.length = 1)
          (by simp only [Quiet, h, hresult])
      | some (.read _) => isTrue (by simp only [Quiet, h, hresult])
      | none => isTrue (by simp only [Quiet, h, hresult])

theorem undisturbed_of_quiet {srv : CatalogServer}
    {l : EnvLabel (Layer × String) (Label CatalogRequest CatalogEnv)} (h : Quiet srv l) :
    Undisturbed srv l := by
  unfold Undisturbed
  split
  · next i =>
    intro a ha p hp
    simp only [Quiet, ha, hp, resultOf] at h
    obtain ⟨hl1, hredis, hone⟩ := h
    refine ⟨fun x hx => ?_, fun b hb page size _ => ?_⟩
    · rw [hl1, hredis] at hx
      exact absurd hx List.not_mem_nil
    · obtain ⟨c, hc⟩ := List.length_eq_one_iff.mp hone
      have ha := List.mem_of_getElem? ha
      rw [hc, List.mem_singleton] at ha hb
      rw [hb, ← ha, hp]
      trivial
  · trivial

/-- The list is read and cached, a product is created, the list is read again. -/
def createBetweenLists : List (EnvLabel (Layer × String) (Label CatalogRequest CatalogEnv)) :=
  [.act (.start (.listProducts "a" 1 10))] ++ advances 0 15 ++ [.act (.move (.finish 0))] ++
    [.act (.start (.createProduct (lamp true)))] ++ advances 0 6 ++ [.act (.move (.finish 0))] ++
    [.act (.start (.listProducts "a" 1 10))] ++ advances 0 13

theorem lists_created_between : ∃ srv, Reaches ((service fixedRuntime).stepIn Caches.drop)
      Undisturbed (Server.init ⟨[], List.nodup_nil⟩ {}) createBetweenLists srv ∧
    srv.active.map (fun a => resultOf a.prog) = [some (.read (.page
      (Page.create [⟨"1", "sku-1", "lamp", none, 1, true⟩] 1 1 10)))] ∧ ListsCurrent srv := by
  obtain ⟨srv, hrun, hread⟩ : ∃ srv, Reaches ((service fixedRuntime).stepIn Caches.drop) Quiet
      (Server.init ⟨[], List.nodup_nil⟩ {}) createBetweenLists srv ∧
        srv.active.map (fun a => resultOf a.prog) = [some (.read (.page
          (Page.create [⟨"1", "sku-1", "lamp", none, 1, true⟩] 1 1 10)))] :=
    reaches_where (by decide +kernel) (by decide +kernel)
  have hrun' := hrun.imp fun _ _ _ h => undisturbed_of_quiet h
  exact ⟨srv, hrun', hread, lists_created (fun _ hx => absurd hx List.not_mem_nil) hrun'⟩

/-- The list is cached between the eviction and the commit. -/
def listBeforeCommit : List (EnvLabel (Layer × String) (Label CatalogRequest CatalogEnv)) :=
  [.act (.start (.createProduct (lamp false)))] ++ advances 0 5 ++
    [.act (.start (.listProducts "a" 1 10))] ++ advances 1 15 ++
    [.act (.move (.finish 1)), .act (.move (.finish 0))] ++
    [.act (.start (.listProducts "a" 1 10))] ++ advances 0 2

/-- The total of a page counts the tenant's active products. -/
theorem total_of_computedFrom {products : Products} {tenant : String} {page size : ℕ} {p : Page}
    (h : ComputedFrom products tenant page size (.page p)) :
    p.total = (tenantRows products tenant).countP (·.isActive) := by
  obtain ⟨scan, h⟩ := h
  rw [CacheValue.page.inj h]
  exact activeTotal_eq products tenant

/-- The page that a request asks for. -/
def pageAsked : CatalogRequest → Option (String × ℕ × ℕ)
  | .listProducts tenant page size => some (tenant, page, size)
  | _ => none

theorem eq_of_pageAsked {r : CatalogRequest} {tenant : String} {page size : ℕ}
    (h : pageAsked r = some (tenant, page, size)) : r = .listProducts tenant page size := by
  cases r with
  | listProducts tenant' page' size' =>
    cases h
    rfl
  | _ => cases h

/-- A call that started after the commit is about to return the empty page. -/
def Stale (srv : CatalogServer) : Prop :=
  ∃ a ∈ srv.active, pageAsked a.req = some ("a", 1, 10) ∧
    resultOf a.prog = some (.read (.page (Page.create [] 0 1 10))) ∧
    ∃ p ∈ a.begun.rows, p.isActive = true ∧ p.tenantId = "a"

theorem not_listsCurrent_of_stale {srv : CatalogServer} (h : Stale srv) : ¬ ListsCurrent srv := by
  obtain ⟨a, ha, hreq, hresult, p, hp, hactive, htenant⟩ := h
  intro hcurrent
  obtain ⟨products, hbegun, -, hpage⟩ :=
    hcurrent a ha _ _ _ _ (eq_of_pageAsked hreq) (eq_done_of_resultOf hresult)
  have htotal : 0 = (tenantRows products "a").countP (·.isActive) := total_of_computedFrom hpage
  have hmem : p ∈ tenantRows products "a" := by
    simp [tenantRows, hbegun.subset hp, htenant]
  have hpos : 0 < (tenantRows products "a").countP (·.isActive) :=
    List.countP_pos_iff.mpr ⟨p, hmem, hactive⟩
  omega

/-- A list read after a create need not show a state with the new product. -/
theorem stale_after_create : ¬ ∀ (rt : Runtime) (products : Products)
    (ls : List (EnvLabel (Layer × String) (Label CatalogRequest CatalogEnv))) (srv : CatalogServer),
    Reaches ((service rt).stepIn Caches.drop) anyStep (Server.init products {}) ls srv →
      ListsCurrent srv := by
  intro hevery
  obtain ⟨srv, hrun, hstale⟩ : ∃ srv, Reaches ((service fixedRuntime).stepIn Caches.drop) anyStep
      (Server.init ⟨[], List.nodup_nil⟩ {}) listBeforeCommit srv ∧ Stale srv :=
    reaches_where (allSteps_of_forall (fun _ _ _ => trivial) _) (by
      unfold Stale
      decide +kernel)
  exact not_listsCurrent_of_stale hstale (hevery _ _ _ srv hrun)

end CloudScale.CatalogService
