/-
  Catalog reads through the two cache layers.

  The database shows a session its own tenant's products only, but what one request stored in a
  cache another one may be given. The keys of pages name the tenant (`listKey_tenant`); the keys of
  a product, of recommendations and of a search do not. `OwnHits` says of a step that, on such a
  key, a request finds no live entry that another tenant's request stored. `reads_own_tenant`: in
  every run of such steps each product that is returned belongs to the tenant that asked.
  `product_of_another_tenant` is a run that returns one tenant's product to another.
-/
import CloudScale.Lib.Acting
import CloudScale.CatalogService.Handlers

namespace CloudScale.Tenancy

open CloudScale.Lib CatalogService

section Reads

/-! ## Keys -/

theorem colon_not_mem_toString (n : ℕ) : ':' ∉ (toString n).toList := by
  intro h
  have hdigit : ':' ∈ Nat.toDigits 10 n := by simpa [Nat.repr] using h
  exact absurd (Nat.isDigit_of_mem_toDigits (by decide) (by decide) hdigit) (by decide)

/-- The last colon of a key separates a field that has none. -/
theorem last_field {a b c d : List Char} (h : a ++ ':' :: b = c ++ ':' :: d) (hb : ':' ∉ b)
    (hd : ':' ∉ d) : a = c := by
  have hdrop : ∀ x y : List Char, ':' ∉ y →
      (x ++ ':' :: y).reverse.dropWhile (· != ':') = ':' :: x.reverse := by
    intro x y hy
    have hall : ∀ ch ∈ y.reverse, (ch != ':') = true := fun ch hch => by
      refine bne_iff_ne.mpr fun heq => hy ?_
      exact heq ▸ List.mem_reverse.mp hch
    rw [List.reverse_append, List.reverse_cons, List.append_assoc,
      List.dropWhile_append_of_pos hall]
    rfl
  have heq : ':' :: a.reverse = ':' :: c.reverse := by
    rw [← hdrop a b hb, ← hdrop c d hd, h]
  exact List.reverse_injective (List.cons.inj heq).2

theorem fields_toList (front tenant page size : String) :
    (front ++ tenant ++ ":" ++ page ++ ":" ++ size ++ ":").toList =
      ((front.toList ++ tenant.toList ++ ':' :: page.toList) ++ ':' :: size.toList) ++ [':'] := by
  have hcolon : ":".toList = [':'] := rfl
  simp only [String.toList_append, hcolon, List.append_assoc, List.cons_append, List.nil_append]

/-- The key of a page names its tenant. -/
theorem listKey_tenant {tenant tenant' : String} {page size page' size' : ℕ}
    (h : listKey tenant page size = listKey tenant' page' size') : tenant = tenant' := by
  have hlist := congrArg String.toList h
  unfold listKey at hlist
  rw [fields_toList, fields_toList] at hlist
  have hsize := last_field (List.append_cancel_right hlist) (colon_not_mem_toString size)
    (colon_not_mem_toString size')
  have hpage := last_field hsize (colon_not_mem_toString page) (colon_not_mem_toString page')
  exact String.toList_injective (List.append_cancel_left hpage)

/-- The key begins with these characters. -/
def Begins (front key : String) : Prop := front.toList <+: key.toList

theorem begins_append (front rest : String) : Begins front (front ++ rest) := by
  unfold Begins
  rw [String.toList_append]
  exact List.prefix_append _ _

theorem Begins.append {front key : String} (h : Begins front key) (rest : String) :
    Begins front (key ++ rest) := by
  unfold Begins
  rw [String.toList_append]
  exact h.trans (List.prefix_append _ _)

theorem ne_of_begins {front front' key key' : String} (h : Begins front key)
    (h' : Begins front' key')
    (hfronts : ¬ front.toList <+: front'.toList ∧ ¬ front'.toList <+: front.toList) :
    key ≠ key' := by
  rintro rfl
  exact (List.prefix_or_prefix_of_prefix h h').elim hfronts.1 hfronts.2

theorem listKey_begins (tenant : String) (page size : ℕ) :
    Begins "v1:catalog_list:_get_cached_list:" (listKey tenant page size) := by
  unfold listKey
  exact (((((begins_append _ tenant).append _).append _).append _).append _).append _

/-- The keys that a request reads and writes: its tenant's pages, or no pages. -/
def KeyFits : CatalogRequest → String → Prop
  | .listProducts tenant page size, key => key = listKey tenant page size
  | _, key => ∀ tenant page size, key ≠ listKey tenant page size

theorem productKey_ne (id tenant : String) (page size : ℕ) :
    productKey id ≠ listKey tenant page size :=
  ne_of_begins ((begins_append _ id).append _) (listKey_begins tenant page size) (by decide)

theorem recsKey_ne (id : String) (limit : ℕ) (tenant : String) (page size : ℕ) :
    recsKey id limit ≠ listKey tenant page size :=
  ne_of_begins (((begins_append _ id).append _).append _) (listKey_begins tenant page size)
    (by decide)

theorem searchKey_ne (rt : Runtime) (query : String) (limit : ℕ) (tenant : String)
    (page size : ℕ) : searchKey rt query limit ≠ listKey tenant page size :=
  ne_of_begins (((begins_append _ (rt.md5 query)).append _).append _)
    (listKey_begins tenant page size) (by decide)

/-! ## What the caches hold -/

/-- Every product of the value is the tenant's. -/
def OwnValue (tenant : String) (products : Products) (v : CacheValue) : Prop :=
  ∀ item ∈ v.items, ∃ p ∈ products.rows, p.id = item.id ∧ p.tenantId = tenant

instance (tenant : String) (products : Products) (v : CacheValue) :
    Decidable (OwnValue tenant products v) :=
  inferInstanceAs (Decidable (∀ item ∈ v.items, ∃ p ∈ products.rows, _ ∧ _))

/-- An entry holds products of the tenant whose request stored it; a page is stored under a key of
    that tenant. -/
structure GoodEntry (products : Products) (key : String) (e : CacheEntry) : Prop where
  own : OwnValue e.storedBy products e.value
  page : ∀ tenant page size, key = listKey tenant page size → e.storedBy = tenant

def SoundCaches (s : Caches × Products) : Prop :=
  ∀ x ∈ s.1.l1 ++ s.1.redis, GoodEntry s.2 x.1 x.2

/-- No product is lost. -/
def Grows (s t : Caches × Products) : Prop := ∀ p ∈ s.2.rows, p ∈ t.2.rows

/-- A cache is written with good entries only. -/
def Asks (s : Caches × Products) : CatalogQuery → Prop
  | .setL1 key e => GoodEntry s.2 key e
  | .setRedis key e => GoodEntry s.2 key e
  | _ => True

/-- On a key without a tenant, the live entry that is found was stored by a request of the tenant.
    -/
def OwnHit (r : CatalogRequest) (c : Caches) (q : CatalogQuery) (ω : CatalogEnv) : Prop :=
  match r, q with
  | .listProducts _ _ _, _ => True
  | _, .getL1 key now => ∀ e ∈ c.l1.live key now, e.storedBy = r.tenant
  | _, .getRedis key now => ω.redisUp = true → ∀ e ∈ c.redis.live key now, e.storedBy = r.tenant
  | _, _ => True

instance (r : CatalogRequest) (c : Caches) (q : CatalogQuery) (ω : CatalogEnv) :
    Decidable (OwnHit r c q ω) := by
  unfold OwnHit
  split <;> infer_instance

variable {rt : Runtime} {s t : Caches × Products} {r : CatalogRequest} {key : String}
  {v : CacheValue} {e : CacheEntry} {now : Int}

theorem Grows.refl (s : Caches × Products) : Grows s s := fun _ h => h

theorem Grows.trans {u : Caches × Products} (h : Grows s t) (h' : Grows t u) : Grows s u :=
  fun p hp => h' p (h p hp)

theorem OwnValue.mono {tenant : String} (h : OwnValue tenant s.2 v) (hst : Grows s t) :
    OwnValue tenant t.2 v := by
  intro item hitem
  obtain ⟨p, hp, hown⟩ := h item hitem
  exact ⟨p, hst p hp, hown⟩

theorem GoodEntry.mono (h : GoodEntry s.2 key e) (hst : Grows s t) : GoodEntry t.2 key e :=
  ⟨h.own.mono hst, h.page⟩

theorem mem_of_live {c : Cache} (h : c.live key now = some e) : (key, e) ∈ c := by
  have hlookup : c.lookup key = some e := (Option.filter_eq_some_iff.mp h).1
  obtain ⟨l₁, l₂, heq, -⟩ := List.lookup_eq_some_iff.mp hlookup
  rw [heq]
  exact List.mem_append_right l₁ List.mem_cons_self

/-- What a request finds under one of its keys is its tenant's. -/
theorem ownValue_of_hit (hkey : KeyFits r key) (he : GoodEntry s.2 key e)
    (hhit : (∃ tenant page size, r = .listProducts tenant page size) ∨ e.storedBy = r.tenant) :
    OwnValue r.tenant s.2 e.value := by
  obtain ⟨tenant, page, size, rfl⟩ | hown := hhit
  · exact he.page tenant page size hkey ▸ he.own
  · exact hown ▸ he.own

/-- What a request stores under one of its keys is a good entry. -/
theorem goodEntry_of_own {expiry : Int} (hkey : KeyFits r key) (hv : OwnValue r.tenant s.2 v) :
    GoodEntry s.2 key { value := v, expiry := expiry, storedBy := r.tenant } := by
  refine ⟨hv, fun tenant page size heq => ?_⟩
  cases r with
  | listProducts tenant' page' size' => exact listKey_tenant (hkey.symm.trans heq)
  | _ => exact absurd heq (hkey tenant page size)

theorem soundCaches_put {c c' : Caches} {products : Products} (hs : SoundCaches (c, products))
    (h : ∀ x ∈ c'.l1 ++ c'.redis, x ∈ c.l1 ++ c.redis ∨ GoodEntry products x.1 x.2) :
    SoundCaches (c', products) := by
  intro x hx
  obtain hold | hnew := h x hx
  · exact hs x hold
  · exact hnew

/-- The caches after an allowed query. -/
theorem soundCaches_act {q : CatalogQuery} (hs : SoundCaches s) (hq : Asks s q) :
    SoundCaches ((service rt).act q s) := by
  refine soundCaches_put hs fun x hx => ?_
  obtain hold | hnew := mem_effect hx
  · exact .inl hold
  · right
    cases q with
    | setL1 key e =>
      cases hnew
      exact hq
    | setRedis key e =>
      cases hnew
      exact hq
    | _ => cases hnew

theorem grows_act (rt : Runtime) (q : CatalogQuery) (s : Caches × Products) :
    Grows s ((service rt).act q s) := fun _ h => h

/-! ## Programs -/

section Programs

variable {R : Type} {post : Caches × Products → R → Prop}

/-- A program that writes good entries only, when what it finds on keys without a tenant was stored
    for its own. -/
abbrev Orderly (rt : Runtime) (r : CatalogRequest) (post : Caches × Products → R → Prop)
    (p : CatalogTxn R) (s : Caches × Products) : Prop :=
  Behaves (service rt).answers (service rt).act (Within SoundCaches Grows)
    (fun t q ω => OwnHit r t.1 q ω) Asks post p s

/-- The value that a program ends with. -/
theorem orderly_done {x : R} (h : ∀ t, Grows s t → SoundCaches t → post t x) :
    Orderly rt r post (pure x) s := fun t ht => h t ht.1 ht.2

theorem orderly_query {q : CatalogQuery} {f : CatalogAnswer q → CatalogTxn R}
    (h : ∀ t ω, Grows s t → SoundCaches t → Asks t q ∧ (OwnHit r t.1 q ω →
      ∀ u, u.2 = t.2 → SoundCaches u → Orderly rt r post (f ((service rt).answers ω t q)) u)) :
    Orderly rt r post (Txn.query q >>= f) s := by
  intro t ⟨hst, hs⟩
  refine ⟨(h t {} hst hs).1, fun ω hω => ?_⟩
  obtain ⟨hasks, hnext⟩ := h t ω hst hs
  exact hnext hω _ rfl (soundCaches_act hs hasks)

/-- A query that writes no cache. -/
theorem orderly_ask {q : CatalogQuery} {f : CatalogAnswer q → CatalogTxn R} (hq : ∀ t, Asks t q)
    (h : ∀ t (ω : CatalogEnv) c, Grows s t → SoundCaches t →
      Orderly rt r post (f (ω.answer c t.2 q)) t) :
    Orderly rt r post (Txn.query q >>= f) s := by
  refine orderly_query fun t ω hst hs => ⟨hq t, fun _ u heq hu => ?_⟩
  have hsu : Grows s u := fun p hp => heq ▸ hst p hp
  have hnext := h u ω t.1 hsu hu
  rw [heq] at hnext
  exact hnext

theorem ownValue_live {layer : Cache} (hkey : KeyFits r key)
    (hgood : ∀ x ∈ layer, GoodEntry s.2 x.1 x.2)
    (hhit : (∃ tenant page size, r = .listProducts tenant page size) ∨
      ∀ e ∈ layer.live key now, e.storedBy = r.tenant) :
    ∀ x ∈ (layer.live key now).map (·.value), OwnValue r.tenant s.2 x := by
  intro x hx
  obtain ⟨e, he, rfl⟩ := Option.map_eq_some_iff.mp hx
  exact ownValue_of_hit hkey (hgood _ (mem_of_live he)) (hhit.imp_right fun h => h e he)

theorem ownHit_l1 {c : Caches} {ω : CatalogEnv} (h : OwnHit r c (.getL1 key now) ω) :
    (∃ tenant page size, r = .listProducts tenant page size) ∨
      ∀ e ∈ c.l1.live key now, e.storedBy = r.tenant := by
  cases r with
  | listProducts tenant page size => exact .inl ⟨tenant, page, size, rfl⟩
  | _ => exact .inr h

theorem ownHit_redis {c : Caches} {ω : CatalogEnv} (h : OwnHit r c (.getRedis key now) ω)
    (hup : ω.redisUp = true) : (∃ tenant page size, r = .listProducts tenant page size) ∨
      ∀ e ∈ c.redis.live key now, e.storedBy = r.tenant := by
  cases r with
  | listProducts tenant page size => exact .inl ⟨tenant, page, size, rfl⟩
  | _ => exact .inr (h hup)

theorem orderly_getL1 {f : Option CacheValue → CatalogTxn R} (hkey : KeyFits r key)
    (h : ∀ t x, Grows s t → SoundCaches t → (∀ v ∈ x, OwnValue r.tenant t.2 v) →
      Orderly rt r post (f x) t) : Orderly rt r post (getL1 key >>= f) s := by
  have hclock : Orderly rt r post (Txn.query CatalogQuery.clock >>= fun now =>
      Txn.query (CatalogQuery.getL1 key now) >>= f) s := by
    refine orderly_ask (fun _ => trivial) fun t ω c hst hs => ?_
    refine orderly_query fun u ω' htu hu => ⟨trivial, fun hhit u' heq hu' => ?_⟩
    refine h u' _ (fun p hp => heq ▸ htu p (hst p hp)) hu' ?_
    rw [heq]
    exact ownValue_live hkey (fun x hx => hu x (List.mem_append_left _ hx)) (ownHit_l1 hhit)
  exact hclock

theorem orderly_getRedis {f : Option CacheValue → CatalogTxn R} (hkey : KeyFits r key)
    (h : ∀ t x, Grows s t → SoundCaches t → (∀ v ∈ x, OwnValue r.tenant t.2 v) →
      Orderly rt r post (f x) t) : Orderly rt r post (getRedis key >>= f) s := by
  have hclock : Orderly rt r post (Txn.query CatalogQuery.clock >>= fun now =>
      Txn.query (CatalogQuery.getRedis key now) >>= f) s := by
    refine orderly_ask (fun _ => trivial) fun t ω c hst hs => ?_
    refine orderly_query fun u ω' htu hu => ⟨trivial, fun hhit u' heq hu' => ?_⟩
    refine h u' _ (fun p hp => heq ▸ htu p (hst p hp)) hu' ?_
    rw [heq]
    show ∀ v ∈ (if ω'.redisUp = true then _ else none : Option CacheValue), _
    by_cases hup : ω'.redisUp = true
    · rw [if_pos hup]
      exact ownValue_live hkey (fun x hx => hu x (List.mem_append_right _ hx))
        (ownHit_redis hhit hup)
    · rw [if_neg hup]
      exact fun v hv => absurd hv.symm (Option.some_ne_none v)
  exact hclock

theorem orderly_setL1 {ttl : Int} {f : Unit → CatalogTxn R} (hkey : KeyFits r key)
    (hv : OwnValue r.tenant s.2 v)
    (h : ∀ t, Grows s t → SoundCaches t → Orderly rt r post (f ()) t) :
    Orderly rt r post (setL1 r.tenant key v ttl >>= f) s := by
  have hclock : Orderly rt r post (Txn.query CatalogQuery.clock >>= fun now : Int =>
      Txn.query (CatalogQuery.setL1 key
        { value := v, expiry := now + ttl, storedBy := r.tenant }) >>= f) s := by
    refine orderly_ask (fun _ => trivial) fun t ω c hst hs => ?_
    refine orderly_query fun u ω' htu hu => ⟨?_, fun _ u' heq hu' => ?_⟩
    · exact goodEntry_of_own hkey (hv.mono (hst.trans htu))
    · exact h u' (fun p hp => heq ▸ htu p (hst p hp)) hu'
  exact hclock

theorem orderly_setex {ttl : Int} {f : Unit → CatalogTxn R} (hkey : KeyFits r key)
    (hv : OwnValue r.tenant s.2 v)
    (h : ∀ t, Grows s t → SoundCaches t → Orderly rt r post (f ()) t) :
    Orderly rt r post (setex r.tenant key ttl v >>= f) s := by
  have hup : Orderly rt r post (Txn.query CatalogQuery.redisUp >>= fun up : Bool =>
      (if up && v.dumps then do
        let now ← time
        Txn.query (CatalogQuery.setRedis key
          { value := v, expiry := now + ttl, storedBy := r.tenant })
      else pure ()) >>= f) s := by
    refine orderly_ask (fun _ => trivial) fun t ω c hst hs => ?_
    split
    · have hclock : Orderly rt r post (Txn.query CatalogQuery.clock >>= fun now : Int =>
          Txn.query (CatalogQuery.setRedis key
            { value := v, expiry := now + ttl, storedBy := r.tenant }) >>= f) t := by
        refine orderly_ask (fun _ => trivial) fun u ω' c' htu hu => ?_
        refine orderly_query fun u₁ ω₁ hu₁ hs₁ => ⟨?_, fun _ u₂ heq hs₂ => ?_⟩
        · exact goodEntry_of_own hkey (hv.mono ((hst.trans htu).trans hu₁))
        · exact h u₂ (fun p hp => heq ▸ hu₁ p (htu p (hst p hp))) hs₂
      exact hclock
    · exact h t hst hs
  exact hup

/-- Sequencing. -/
theorem Orderly.bind {T : Type} {post₂ : Caches × Products → T → Prop} {p : CatalogTxn R}
    {f : R → CatalogTxn T} (h : Orderly rt r post p s) (hs : SoundCaches s)
    (hf : ∀ t x, post t x → Orderly rt r post₂ (f x) t) : Orderly rt r post₂ (p >>= f) s :=
  Behaves.bind h ⟨Grows.refl s, hs⟩
    (fun _ _ _ hst hq => ⟨Grows.refl _, soundCaches_act hst.2 hq⟩) hf

/-! ## The operations -/

/-- What a program returns is its tenant's. -/
def Own (r : CatalogRequest) (t : Caches × Products) (v : CacheValue) : Prop :=
  OwnValue r.tenant t.2 v

theorem orderly_return (hv : OwnValue r.tenant s.2 v) : Orderly rt r (Own r) (pure v) s :=
  orderly_done fun _ hst _ => hv.mono hst

theorem cacheAside_orderly {ttl l1Ttl : Int} {fetch : CatalogTxn CacheValue} (hkey : KeyFits r key)
    (hfetch : ∀ t, SoundCaches t → Orderly rt r (fun u v => SoundCaches u ∧ Own r u v) fetch t) :
    Orderly rt r (Own r) (cacheAside r.tenant key ttl l1Ttl fetch) s := by
  -- a value that was found in Redis is put into the process's own cache
  have hwarm : ∀ t v, OwnValue r.tenant t.2 v →
      Orderly rt r (Own r) (setL1 r.tenant key v l1Ttl >>= fun _ => pure v) t :=
    fun t v hv => orderly_setL1 hkey hv fun u htu _ => orderly_return (hv.mono htu)
  unfold cacheAside
  refine orderly_getL1 hkey fun t x _ _ hx => ?_
  cases x with
  | some v => exact orderly_return (hx v rfl)
  | none =>
    refine orderly_getRedis hkey fun t x _ _ hx => ?_
    cases x with
    | some v => exact hwarm t v (hx v rfl)
    | none =>
      refine orderly_getL1 hkey fun t x _ _ hx => ?_
      cases x with
      | some v => exact orderly_return (hx v rfl)
      | none =>
        refine orderly_getRedis hkey fun t x _ ht hx => ?_
        cases x with
        | some v => exact hwarm t v (hx v rfl)
        | none =>
          refine (hfetch t ht).bind ht fun u v hv => ?_
          refine orderly_setL1 hkey hv.2 fun u' huu' _ => ?_
          have hv' : OwnValue r.tenant u'.2 v := hv.2.mono huu'
          exact orderly_setex hkey hv' fun u'' hu'' _ => orderly_return (hv'.mono hu'')

theorem mem_visible {products : Products} {scan : List Product} {tenant : String} {p : Product}
    (h : p ∈ visible products scan tenant) : p ∈ products.rows ∧ p.tenantId = tenant := by
  have hrows : p ∈ products.rows.filter fun p => decide (p.tenantId = tenant) := by
    unfold visible at h
    dsimp only at h
    split at h
    · next hscan => exact hscan.mem_iff.mp h
    · exact h
  simpa using hrows

/-- The products are the tenant's. -/
def OwnRows (tenant : String) (products : Products) (ps : List Product) : Prop :=
  ∀ p ∈ ps, p ∈ products.rows ∧ p.tenantId = tenant

/-- What the session reads of the products. -/
theorem ownRows_active (ω : CatalogEnv) (c : Caches) (products : Products) (tenant : String) :
    OwnRows tenant products (ω.answer c products (.active tenant)) :=
  fun _ hp => mem_visible (List.mem_of_mem_filter hp)

theorem ownRows_byIds (ω : CatalogEnv) (c : Caches) (products : Products) (tenant : String)
    (ids : List String) : OwnRows tenant products (ω.answer c products (.byIds tenant ids)) :=
  fun _ hp => mem_visible (List.mem_of_mem_filter hp)

theorem ownRows_activePage (ω : CatalogEnv) (c : Caches) (products : Products) (tenant : String)
    (page size : ℕ) :
    OwnRows tenant products (ω.answer c products (.activePage tenant page size)) := by
  intro p hp
  have hsorted := List.mem_of_mem_drop (List.mem_of_mem_take hp)
  have hactive := (List.perm_insertionSort _ _).mem_iff.mp hsorted
  exact mem_visible (List.mem_of_mem_filter hactive)

/-- Products of the tenant, as they are shown. -/
theorem own_map {tenant : String} {products : Products} {ps : List Product}
    {f : Product → ProductResponse} (hid : ∀ p, (f p).id = p.id)
    (h : OwnRows tenant products ps) :
    ∀ item ∈ ps.map f, ∃ p ∈ products.rows, p.id = item.id ∧ p.tenantId = tenant := by
  intro item hitem
  obtain ⟨p, hp, rfl⟩ := List.mem_map.mp hitem
  exact ⟨p, (h p hp).1, (hid p).symm, (h p hp).2⟩

theorem own_inOrder {tenant : String} {products : Products} {ps : List Product}
    (ids : List String) (h : OwnRows tenant products ps) :
    OwnValue tenant products (.products (productsInOrder ids ps)) := by
  intro item hitem
  obtain ⟨id, -, hfound⟩ := List.mem_filterMap.mp hitem
  obtain ⟨p, hp, rfl⟩ := Option.map_eq_some_iff.mp hfound
  have hmem := h p (List.mem_of_find?_eq_some hp)
  exact ⟨p, hmem.1, rfl, hmem.2⟩

theorem ownValue_nil (tenant : String) (products : Products) :
    OwnValue tenant products (.products []) := fun _ h => absurd h List.not_mem_nil

theorem getProductById_orderly (tenant id : String) :
    Orderly rt (.getProductById tenant id) (Own (.getProductById tenant id))
      (getProductById tenant id) s := by
  refine cacheAside_orderly (productKey_ne id) fun t _ => ?_
  show Orderly rt _ _ ((fetchProductFromDb tenant id) >>= _) t
  refine orderly_ask (fun _ => trivial) fun u ω c _ hu => ?_
  have hread : ω.answer c u.2 (.byId tenant id) =
      (visible u.2 ω.scan tenant).find? fun p => decide (p.id = id) := rfl
  rw [hread]
  cases hfind : (visible u.2 ω.scan tenant).find? fun p => decide (p.id = id) with
  | none => trivial
  | some p =>
    have hp := mem_visible (List.mem_of_find?_eq_some hfind)
    have hown : OwnValue tenant u.2 (.product (modelValidate p)) := fun item hitem => by
      obtain rfl := List.mem_singleton.mp hitem
      exact ⟨p, hp.1, rfl, hp.2⟩
    show Orderly rt _ _ ((if p.isActive = true then pure p else .raise _) >>= _) u
    split
    · exact orderly_done fun u' huu' hu' => ⟨hu', hown.mono huu'⟩
    · trivial

theorem listProducts_orderly (tenant : String) (page size : ℕ) :
    Orderly rt (.listProducts tenant page size) (Own (.listProducts tenant page size))
      (listProducts tenant page size) s := by
  refine cacheAside_orderly rfl fun t _ => ?_
  show Orderly rt _ _ (Txn.query (CatalogQuery.countActive tenant) >>= _) t
  refine orderly_ask (fun _ => trivial) fun t' _ _ _ _ => ?_
  show Orderly rt _ _ (Txn.query (CatalogQuery.activePage tenant page size) >>= _) t'
  refine orderly_ask (fun _ => trivial) fun u ω c _ hu => ?_
  refine orderly_done fun u' huu' hu' => ⟨hu', OwnValue.mono ?_ huu'⟩
  exact own_map (fun _ => rfl) (ownRows_activePage ω c u.2 tenant page size)

theorem targetKnown_bind {tenant id : String} {index : List String} {f : Bool → CatalogTxn R}
    (h : ∀ t b, Grows s t → SoundCaches t → Orderly rt r post (f b) t) (hs : SoundCaches s) :
    Orderly rt r post (targetKnown tenant id index >>= f) s := by
  unfold targetKnown
  split
  · exact h s true (Grows.refl s) hs
  · exact orderly_ask (q := .byId tenant id) (fun _ => trivial) fun t ω c hst ht =>
      h t _ hst ht

theorem getRecommendations_orderly (tenant id : String) (limit : ℕ) :
    Orderly rt (.getRecommendations tenant id limit) (Own (.getRecommendations tenant id limit))
      (getRecommendations tenant id limit) s := by
  have hkey : KeyFits (.getRecommendations tenant id limit) (recsKey id limit) :=
    recsKey_ne id limit
  unfold getRecommendations
  refine orderly_getRedis hkey fun t x _ _ hx => ?_
  cases x with
  | some v => exact orderly_return (hx v rfl)
  | none =>
    refine orderly_ask (q := .active tenant) (fun _ => trivial) fun t ω c _ ht => ?_
    refine targetKnown_bind (fun t known _ _ => ?_) ht
    cases known with
    | false => exact orderly_return (ownValue_nil tenant t.2)
    | true =>
      refine orderly_ask (q := .ranking _) (fun _ => trivial) fun t ω' c' _ ht => ?_
      dsimp only
      split
      · exact orderly_return (ownValue_nil tenant t.2)
      · refine orderly_ask (q := .byIds tenant _) (fun _ => trivial) fun t ω'' c'' _ ht => ?_
        refine orderly_setex hkey (own_inOrder _ (ownRows_byIds ω'' c'' t.2 tenant _)) ?_
        exact fun u htu _ => orderly_return
          ((own_inOrder _ (ownRows_byIds ω'' c'' t.2 tenant _)).mono htu)

theorem semanticSearch_orderly (tenant query : String) (limit : ℕ) :
    Orderly rt (.semanticSearch tenant query limit) (Own (.semanticSearch tenant query limit))
      (semanticSearch rt tenant query limit) s := by
  have hkey : KeyFits (.semanticSearch tenant query limit) (searchKey rt query limit) :=
    searchKey_ne rt query limit
  unfold semanticSearch
  refine orderly_getRedis hkey fun t x _ _ hx => ?_
  cases x with
  | some v => exact orderly_return (hx v rfl)
  | none =>
    refine orderly_ask (q := .active tenant) (fun _ => trivial) fun t ω c _ ht => ?_
    refine orderly_ask (q := .ranking _) (fun _ => trivial) fun t ω' c' _ ht => ?_
    dsimp only
    split
    · refine orderly_ask (q := .active tenant) (fun _ => trivial) fun t ω'' c'' _ _ => ?_
      refine orderly_return (own_map (fun _ => rfl) fun p hp => ?_)
      exact ownRows_active ω'' c'' t.2 tenant p (List.mem_of_mem_take hp)
    · refine orderly_ask (q := .byIds tenant _) (fun _ => trivial) fun t ω'' c'' _ ht => ?_
      refine orderly_setex hkey (own_inOrder _ (ownRows_byIds ω'' c'' t.2 tenant _)) ?_
      exact fun u htu _ => orderly_return
        ((own_inOrder _ (ownRows_byIds ω'' c'' t.2 tenant _)).mono htu)

/-- A program that writes no cache. -/
theorem orderly_of_asks {p : CatalogTxn R} (h : p.Asks fun q => ∀ t, Asks t q)
    (hs : SoundCaches s) :
    Orderly rt r (fun _ _ => True) p s := by
  induction p generalizing s with
  | done x => exact fun _ _ => trivial
  | raise e => trivial
  | ask q k ih =>
    exact fun t ht => ⟨h.1 t, fun ω _ => ih _ (h.2 _) (soundCaches_act ht.2 (h.1 t))⟩

theorem createProduct_asks (tid : ℕ) (c : NewProduct) :
    (createProduct rt tid c).Asks fun q => ∀ t, Asks t q := by
  refine (createProduct_unstored rt tid c).imp fun q hq t => ?_
  cases q with
  | setL1 key e => cases hq
  | setRedis key e => cases hq
  | _ => trivial

/-- What a request ends with: a read returns its tenant's products. -/
def Returns (r : CatalogRequest) (t : Caches × Products) : CatalogResult → Prop
  | .created _ => True
  | .read v => Own r t v

theorem program_orderly (tid : ℕ) (r : CatalogRequest) (hs : SoundCaches s) :
    Orderly rt r (Returns r) (program rt tid r) s := by
  have hread : ∀ {p : CatalogTxn CacheValue}, Orderly rt r (Own r) p s →
      Orderly rt r (Returns r) (p >>= fun v => pure (.read v)) s :=
    fun h => h.bind hs fun t v hv => orderly_done fun u htu _ => OwnValue.mono hv htu
  cases r with
  | createProduct c =>
    exact (orderly_of_asks (createProduct_asks tid c) hs).bind hs fun t p _ =>
      orderly_done fun _ _ _ => trivial
  | getProductById tenant id => exact hread (getProductById_orderly tenant id)
  | listProducts tenant page size => exact hread (listProducts_orderly tenant page size)
  | getRecommendations tenant id limit => exact hread (getRecommendations_orderly tenant id limit)
  | semanticSearch tenant query limit => exact hread (semanticSearch_orderly tenant query limit)

end Programs

/-! ## Runs -/

theorem commit_grows {products : Products} {w : CatalogResult}
    (h : CatalogService.commit w s.2 = some products) : Grows s (s.1, products) := by
  cases w with
  | read v =>
    cases h
    exact Grows.refl s
  | created p =>
    simp only [CatalogService.commit, Option.ite_none_right_eq_some] at h
    intro q hq
    show q ∈ products.rows
    rw [Table.rows_extend h.2]
    exact List.mem_append_left _ hq

theorem reads_regime (rt : Runtime) : Regime (service rt) SoundCaches Grows
    (fun tk s q ω => OwnHit tk.req s.1 q ω) (fun _ => Asks) (fun tk => Returns tk.req) where
  refl := Grows.refl
  trans _ _ _ := Grows.trans
  start tid r _ hs := program_orderly tid r hs
  query _ s q hs hq := ⟨soundCaches_act hs hq, grows_act rt q s⟩
  commit _ _ _ _ hs _ hc :=
    ⟨fun x hx => (hs x hx).mono (commit_grows hc), commit_grows hc⟩

/-- The transaction that moves finds, on a key without a tenant, no live entry that another tenant's
    request stored. -/
def OwnHits (srv : CatalogServer) : Label CatalogRequest CatalogEnv → Prop
  | .move (.advance i ω) => match srv.active[i]? with
    | some a => match a.prog with
      | .ask q _ => OwnHit a.req srv.world q ω
      | _ => True
    | none => True
  | _ => True

instance (srv : CatalogServer) (l : Label CatalogRequest CatalogEnv) :
    Decidable (OwnHits srv l) := by
  unfold OwnHits
  repeat' split
  all_goals infer_instance

theorem goodMove_ownHits {srv : CatalogServer} {m : Move CatalogEnv} (h : OwnHits srv (.move m)) :
    GoodMove (fun tk (s : Caches × Products) q ω => OwnHit tk.req s.1 q ω) srv srv.view m := by
  cases m with
  | advance i ω =>
    intro a ha q k hp
    simp only [OwnHits, ha, hp] at h
    exact h
  | finish i => trivial
  | crash i => trivial

/-- What a finished request read. -/
def readOf (e : Entry CatalogRequest CatalogExc CatalogResult) : Option CacheValue :=
  match e.verdict with
  | .committed (.read v) => some v
  | _ => none

/-- Every product that a request has been given belongs to its tenant. -/
def NoneCrossed (srv : CatalogServer) : Prop :=
  ∀ e ∈ srv.log, ∀ v ∈ readOf e, OwnValue e.req.tenant srv.db v

instance (srv : CatalogServer) : Decidable (NoneCrossed srv) :=
  inferInstanceAs (Decidable (∀ e ∈ srv.log, ∀ v ∈ readOf e, _))

/-- However the requests of all tenants interleave over the shared caches, no product crosses from
    one tenant to another as long as no request finds what another tenant's request stored. -/
theorem reads_own_tenant {db : Products} {ls : List (Label CatalogRequest CatalogEnv)}
    {srv : CatalogServer} (hrun : Reaches (service rt).step OwnHits (Server.init db {}) ls srv) :
    NoneCrossed srv := by
  have hinit : SoundCaches (({} : Caches), db) := fun x hx => absurd hx List.not_mem_nil
  have hkept := ((reads_regime rt).reaches hrun (fun _ _ h => goodMove_ownHits h) hinit).2
  intro e he v hv
  have hverdict : e.verdict = .committed (.read v) := by
    unfold readOf at hv
    split at hv
    · next w hw => rw [hw, Option.mem_some.mp hv]
    · cases hv
  obtain ⟨tk, hreq, hown⟩ := hkept e he _ hverdict
  exact hreq ▸ hown

/-- One product of tenant `a`. -/
def oneProduct : Products where
  rows := [{ id := "p", sku := "sku-1", name := "lamp", description := none, price := 1
             tenantId := "a" }]
  nodup := List.nodup_singleton _

def fixedRuntime : Runtime := { md5 := id, uuid4 := fun n => toString n }

/-- A request that is alone: it starts, asks `n` queries at time `now` and ends. -/
def runAlone (r : CatalogRequest) (n : ℕ) (now : Int) : List (Label CatalogRequest CatalogEnv) :=
  [.start r] ++ List.replicate n (.move (.advance 0 { now := now })) ++ [.move (.finish 0)]

/-- Tenant `a` reads its product twice and its first page; then `b` reads its own first page. -/
def separateReads : List (Label CatalogRequest CatalogEnv) :=
  runAlone (.getProductById "a" "p") 12 0 ++ runAlone (.getProductById "a" "p") 2 3 ++
    runAlone (.listProducts "a" 1 20) 13 3 ++ runAlone (.listProducts "b" 1 20) 15 4

theorem reads_own_tenant_separate : ∃ srv,
    Reaches (service fixedRuntime).step OwnHits (Server.init oneProduct {}) separateReads srv ∧
      srv.log.map (fun e => (readOf e).map fun v => v.items.map (·.id)) =
        [some [], some ["p"], some ["p"], some ["p"]] ∧ NoneCrossed srv := by
  obtain ⟨srv, hrun, hread⟩ : ∃ srv,
      Reaches (service fixedRuntime).step OwnHits (Server.init oneProduct {}) separateReads srv ∧
        srv.log.map (fun e => (readOf e).map fun v => v.items.map (·.id)) =
          [some [], some ["p"], some ["p"], some ["p"]] :=
    reaches_where (by decide +kernel) (by decide +kernel)
  exact ⟨srv, hrun, hread, reads_own_tenant hrun⟩

/-- Tenant `a` reads its product; five seconds later `b` asks for the product of the same id. -/
def sharedKey : List (Label CatalogRequest CatalogEnv) :=
  runAlone (.getProductById "a" "p") 12 0 ++ runAlone (.getProductById "b" "p") 2 5

/-- `b` is given the product of `a`. -/
theorem product_of_another_tenant : ∃ srv,
    Reaches (service fixedRuntime).step anyStep (Server.init oneProduct {}) sharedKey srv ∧
      ¬ NoneCrossed srv := by
  have hrun : AllSteps (service fixedRuntime).step anyStep (Server.init oneProduct {}) sharedKey :=
    allSteps_of_forall (fun _ _ _ => trivial) _
  exact reaches_where hrun (by decide +kernel)

end Reads

end CloudScale.Tenancy
