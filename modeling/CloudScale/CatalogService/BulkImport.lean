/-
  `bulk_create_products` (`catalog/app/service.py`).

  The session does not autoflush: `exists_by_sku` sees the rows of earlier batches, which were
  flushed when their savepoints ended, and not those of its own batch. Any exception rolls the whole
  call back, so a call leaves all of its rows or none (`bulkCreateProducts_toOption`).
-/
import CloudScale.CatalogService.Handlers

namespace CloudScale.CatalogService

open CloudScale.Lib

/-! ## Imports -/

/-- The arguments of `bulk_create_products` with its context. -/
structure BulkImport where
  tenant : String
  redis : Bool
  items : List ProductCreate
  batchSize : Int := 500

inductive BulkExc where
  | valueError (message : String)
  | catalog (e : CatalogExc)
deriving DecidableEq

/-- `range(0, stop, step)`; no step of `0` is allowed. -/
def pyRange (stop : ℕ) (step : Int) : Except BulkExc (List ℕ) :=
  if step = 0 then .error (.valueError "range() arg 3 must not be zero")
  else if step < 0 then .ok []
  else .ok ((List.range ((stop + step.toNat - 1) / step.toNat)).map (· * step.toNat))

/-- `not (not item.name or not item.sku or item.price < 0)`. -/
def validItem (item : ProductCreate) : Bool :=
  !item.name.isEmpty && !item.sku.isEmpty && decide (0 ≤ item.price)

def prevalidate (start : ℕ) (batch : List ProductCreate) : Except BulkExc Unit :=
  match batch.findIdx? fun item => !validItem item with
  | some idx => .error (.catalog (.validationException
      ("Invalid product payload at batch index " ++ toString (start + idx))))
  | none => .ok ()

/-- `exists_by_sku`. -/
def existsBySku (products : Products) (tenant sku : String) : Bool :=
  decide (0 < products.rows.countP fun p => decide (p.sku = sku) && decide (p.tenantId = tenant))

/-- The rows of some items; the uuids are drawn in their order, from the `k`-th on. -/
def newProducts (rt : Runtime) (b : BulkImport) : ℕ → List ProductCreate → List Product
  | _, [] => []
  | k, item :: items =>
    newProduct rt k { tenant := b.tenant, redis := b.redis, payload := item } ::
      newProducts rt b (k + 1) items

/-- The loop over a batch. Its rows are added to the session, which does not flush them yet. -/
def addBatch (rt : Runtime) (b : BulkImport) (products : Products) :
    ℕ → List ProductCreate → Except BulkExc (List Product)
  | _, [] => .ok []
  | k, item :: items =>
    if existsBySku products b.tenant item.sku then
      .error (.catalog (.conflictException ("SKU '" ++ item.sku ++ "' already exists")))
    else do
      let rows ← addBatch rt b products (k + 1) items
      return newProduct rt k { tenant := b.tenant, redis := b.redis, payload := item } :: rows

/-- `session.flush()` with the rows added since the last one. -/
def flushAll (products : Products) (rows : List Product) : Option Products :=
  rows.foldlM (fun t p => if insertable t p then t.extend [p] else none) products

/-- One round of the loop over the batches: the table with what was flushed, and
    `created_products`. -/
def importBatch (rt : Runtime) (drawn : ℕ) (b : BulkImport) (so : Products × List Product)
    (start : ℕ) : Except BulkExc (Products × List Product) := do
  let batch := (b.items.drop start).take b.batchSize.toNat
  prevalidate start batch
  let rows ← addBatch rt b so.1 (drawn + start) batch
  match flushAll so.1 rows with
  | some products => return (products, so.2 ++ rows)
  | none => .error (.catalog .integrityError)

/-- `bulk_create_products`, from the first of its uuids on: what it returns and the table after it.
    An exception leaves the table as it was. -/
def bulkCreateProducts (rt : Runtime) (drawn : ℕ) (b : BulkImport) (products : Products) :
    Except BulkExc (List ProductResponse × Products) := do
  let starts ← pyRange b.items.length b.batchSize
  let (products', created) ← starts.foldlM (importBatch rt drawn b) (products, [])
  return (created.map modelValidate, products')

/-! ## What an import stores -/

theorem prevalidate_eq (start : ℕ) (batch : List ProductCreate) :
    prevalidate start batch = .ok () := by
  have hvalid : ∀ item : ProductCreate, validItem item = true := by
    intro item
    have hname : item.name ≠ "" := fun h => by
      have := item.name_length.1
      rw [h] at this
      exact absurd this (by decide)
    have hsku : item.sku ≠ "" := fun h => by
      have := item.sku_length.1
      rw [h] at this
      exact absurd this (by decide)
    simp [validItem, hname, hsku, item.price_pos.le]
  have hnone : batch.findIdx? (fun item => !validItem item) = none :=
    List.findIdx?_eq_none_iff.mpr fun item _ => by simp [hvalid item]
  unfold prevalidate
  rw [hnone]

section Rows

variable {rt : Runtime} {b : BulkImport}

@[simp] theorem length_newProducts (k : ℕ) (items : List ProductCreate) :
    (newProducts rt b k items).length = items.length := by
  induction items generalizing k with
  | nil => rfl
  | cons item items ih => simp [newProducts, ih]

theorem map_sku_newProducts (k : ℕ) (items : List ProductCreate) :
    (newProducts rt b k items).map (·.sku) = items.map (·.sku) := by
  induction items generalizing k with
  | nil => rfl
  | cons item items ih => simp [newProducts, newProduct, ih]

theorem newProducts_take (k n : ℕ) (items : List ProductCreate) :
    newProducts rt b k (items.take n) = (newProducts rt b k items).take n := by
  induction items generalizing k n with
  | nil => simp [newProducts]
  | cons item items ih =>
    cases n with
    | zero => rfl
    | succ n => simp [newProducts, ih]

theorem newProducts_append (k : ℕ) (xs ys : List ProductCreate) :
    newProducts rt b k (xs ++ ys) =
      newProducts rt b k xs ++ newProducts rt b (k + xs.length) ys := by
  induction xs generalizing k with
  | nil => rfl
  | cons x xs ih =>
    have hk : k + 1 + xs.length = k + (xs.length + 1) := by omega
    simp [newProducts, ih, hk]

theorem newProducts_spec {k : ℕ} {items : List ProductCreate} {p : Product}
    (h : p ∈ newProducts rt b k items) : p.isActive = true ∧ p.tenantId = b.tenant := by
  induction items generalizing k with
  | nil => exact absurd h List.not_mem_nil
  | cons item items ih =>
    rcases List.mem_cons.mp h with rfl | h
    · exact ⟨rfl, rfl⟩
    · exact ih h

end Rows

/-- The rows can be inserted: their ids and SKUs are new, and their values fit. -/
def Fits (products : Products) (rows : List Product) : Prop :=
  ((products.rows ++ rows).map (·.id)).Nodup ∧ (rows.map (·.sku)).Nodup ∧
    (∀ p ∈ rows, p.sku ∉ products.rows.map (·.sku)) ∧ ∀ p ∈ rows, p.storable = true

instance (products : Products) (rows : List Product) : Decidable (Fits products rows) :=
  inferInstanceAs (Decidable (_ ∧ _ ∧ _ ∧ _))


theorem insertable_of_fits {products : Products} {p : Product} {rows : List Product}
    (h : Fits products (p :: rows)) : insertable products p = true := by
  obtain ⟨hids, -, hnew, hfit⟩ := h
  have hid : p.id ∉ products.rows.map (·.id) := by
    rw [List.map_append] at hids
    intro hmem
    exact (List.nodup_append.mp hids).2.2 _ hmem _ List.mem_cons_self rfl
  have hsku := hnew p List.mem_cons_self
  have hstorable := hfit p List.mem_cons_self
  simp [insertable, hstorable] at hid hsku ⊢
  exact ⟨hid, hsku⟩

/-- Rows fit exactly when the first can be inserted and the others fit after it. -/
theorem fits_cons {products t : Products} {p : Product} {rows : List Product}
    (h : t.rows = products.rows ++ [p]) (hp : insertable products p = true) :
    Fits products (p :: rows) ↔ Fits t rows := by
  have hp' : (p.sku ∉ products.rows.map (·.sku)) ∧ p.storable = true := by
    simp only [insertable, Bool.and_eq_true, decide_eq_true_eq] at hp
    exact ⟨hp.1.2, hp.2⟩
  have hids : products.rows ++ p :: rows = t.rows ++ rows := by rw [h, List.append_cons]
  unfold Fits
  rw [hids, h, List.map_cons, List.nodup_cons]
  simp only [List.map_append, List.mem_append, List.forall_mem_cons, List.map_singleton,
    List.mem_singleton, not_or]
  constructor
  · rintro ⟨hnodup, ⟨hsku, hskus⟩, ⟨-, hnew⟩, -, hfit⟩
    refine ⟨hnodup, hskus, fun q hq => ⟨hnew q hq, fun heq => ?_⟩, hfit⟩
    exact hsku (heq ▸ List.mem_map_of_mem hq)
  · rintro ⟨hnodup, hskus, hnew, hfit⟩
    refine ⟨hnodup, ⟨fun hmem => ?_, hskus⟩, ⟨hp'.1, fun q hq => (hnew q hq).1⟩, hp'.2, hfit⟩
    obtain ⟨q, hq, heq⟩ := List.mem_map.mp hmem
    exact (hnew q hq).2 heq

theorem flushAll_eq_some_iff {products t : Products} {rows : List Product} :
    flushAll products rows = some t ↔ Fits products rows ∧ t.rows = products.rows ++ rows := by
  induction rows generalizing products with
  | nil =>
    have hfits : Fits products [] := ⟨by simpa using products.nodup, by simp, by simp, by simp⟩
    have hext : products = t ↔ t.rows = products.rows := by
      cases products
      cases t
      simp [eq_comm]
    simpa [flushAll, hfits] using hext
  | cons p rows ih =>
    by_cases hp : insertable products p = true
    · have hnew : p.id ∉ products.rows.map (·.id) := by
        simp only [insertable, Bool.and_eq_true, decide_eq_true_eq] at hp
        exact hp.1.1
      obtain ⟨t', ht'⟩ := Table.extend_eq_some hnew
      have hrows := Table.rows_extend ht'
      have hflush : flushAll products (p :: rows) = flushAll t' rows := by
        simp [flushAll, hp, ht']
      rw [hflush, ih, fits_cons hrows hp, hrows, List.append_assoc]
      rfl
    · have hflush : flushAll products (p :: rows) = none := by simp [flushAll, hp]
      rw [hflush]
      exact iff_of_false (Option.some_ne_none t).symm fun h => hp (insertable_of_fits h.1)

theorem flushAll_of_fits {products : Products} {rows : List Product} (h : Fits products rows) :
    ∃ t, flushAll products rows = some t := by
  obtain ⟨t, ht⟩ : ∃ t, products.extend rows = some t := ⟨_, dif_pos h.1⟩
  exact ⟨t, flushAll_eq_some_iff.mpr ⟨h, Table.rows_extend ht⟩⟩

theorem flushAll_append (products : Products) (xs ys : List Product) :
    flushAll products (xs ++ ys) = (flushAll products xs).bind fun t => flushAll t ys :=
  List.foldlM_append

theorem existsBySku_iff {products : Products} {tenant sku : String} :
    existsBySku products tenant sku = true ↔
      ∃ p ∈ products.rows, p.sku = sku ∧ p.tenantId = tenant := by
  unfold existsBySku
  rw [decide_eq_true_iff, List.countP_pos_iff]
  simp only [Bool.and_eq_true, decide_eq_true_eq]

/-- A batch adds its rows, unless one of their SKUs is taken. -/
theorem addBatch_cases (rt : Runtime) (b : BulkImport) (products : Products) (k : ℕ)
    (items : List ProductCreate) :
    (addBatch rt b products k items = .ok (newProducts rt b k items) ∧
      ∀ item ∈ items, existsBySku products b.tenant item.sku = false) ∨
    (∃ message,
        addBatch rt b products k items = .error (.catalog (.conflictException message))) ∧
      ∃ item ∈ items, existsBySku products b.tenant item.sku = true := by
  induction items generalizing k with
  | nil => exact .inl ⟨rfl, fun item h => absurd h List.not_mem_nil⟩
  | cons item items ih =>
    by_cases htaken : existsBySku products b.tenant item.sku = true
    · exact .inr ⟨⟨_, if_pos htaken⟩, item, List.mem_cons_self, htaken⟩
    · have hnew : existsBySku products b.tenant item.sku = false := by simpa using htaken
      rcases ih (k + 1) with ⟨hok, hall⟩ | ⟨⟨message, he⟩, taken, hmem, hsku⟩
      · left
        refine ⟨?_, List.forall_mem_cons.mpr ⟨hnew, hall⟩⟩
        simp [addBatch, hnew, hok, newProducts]
      · refine .inr ⟨⟨message, ?_⟩, taken, List.mem_cons_of_mem _ hmem, hsku⟩
        simp [addBatch, hnew, he]

/-- What a batch stores is what its rows, flushed at once, would store. -/
theorem importBatch_toOption (rt : Runtime) (drawn : ℕ) (b : BulkImport)
    (so : Products × List Product) (start : ℕ) :
    (importBatch rt drawn b so start).toOption =
      let rows := newProducts rt b (drawn + start) ((b.items.drop start).take b.batchSize.toNat)
      (flushAll so.1 rows).map fun t => (t, so.2 ++ rows) := by
  simp only [importBatch, prevalidate_eq]
  rcases addBatch_cases rt b so.1 (drawn + start) ((b.items.drop start).take b.batchSize.toNat)
    with ⟨hok, -⟩ | ⟨⟨message, he⟩, item, hitem, htaken⟩
  · simp only [hok, bind, Except.bind]
    cases flushAll so.1 _ with
    | none => rfl
    | some t => rfl
  · have hnone : flushAll so.1 (newProducts rt b (drawn + start)
        ((b.items.drop start).take b.batchSize.toNat)) = none := by
      refine Option.eq_none_iff_forall_not_mem.mpr fun t ht => ?_
      obtain ⟨old, hold, hsku, -⟩ := existsBySku_iff.mp htaken
      have hmem : item.sku ∈ (newProducts rt b (drawn + start)
          ((b.items.drop start).take b.batchSize.toNat)).map (·.sku) := by
        rw [map_sku_newProducts]
        exact List.mem_map_of_mem hitem
      obtain ⟨p, hp, hpsku⟩ := List.mem_map.mp hmem
      refine (flushAll_eq_some_iff.mp ht).1.2.2.1 p hp ?_
      exact List.mem_map.mpr ⟨old, hold, hsku.trans hpsku.symm⟩
    simp only [he, hnone, bind, Except.bind]
    rfl


theorem toOption_bind {ε α β : Type} (x : Except ε α) (f : α → Except ε β) :
    (x >>= f).toOption = x.toOption.bind fun a => (f a).toOption := by
  cases x with
  | error e => rfl
  | ok a => rfl

/-- After `n` batches the table holds the rows of the first `n * size` items. -/
theorem importBatches_toOption (rt : Runtime) (drawn : ℕ) (b : BulkImport) (products : Products)
    {n : ℕ} (hn : ∀ k < n, k * b.batchSize.toNat ≤ b.items.length) :
    (((List.range n).map (· * b.batchSize.toNat)).foldlM (importBatch rt drawn b)
      (products, [])).toOption =
      let rows := newProducts rt b drawn (b.items.take (n * b.batchSize.toNat))
      (flushAll products rows).map fun t => (t, rows) := by
  induction n with
  | zero => simp [newProducts, flushAll, pure, Except.pure, Except.toOption]
  | succ n ih =>
    have hrows : newProducts rt b drawn (b.items.take ((n + 1) * b.batchSize.toNat)) =
        newProducts rt b drawn (b.items.take (n * b.batchSize.toNat)) ++
          newProducts rt b (drawn + n * b.batchSize.toNat)
            ((b.items.drop (n * b.batchSize.toNat)).take b.batchSize.toNat) := by
      have hlength : (b.items.take (n * b.batchSize.toNat)).length = n * b.batchSize.toNat := by
        simpa using hn n (Nat.lt_succ_self n)
      rw [Nat.succ_mul, List.take_add, newProducts_append, hlength]
    rw [List.range_succ, List.map_append, List.foldlM_append, toOption_bind,
      ih fun k hk => hn k (by omega), hrows]
    simp only [List.map_cons, List.map_nil, flushAll_append, Option.bind_map, Option.map_bind]
    refine congrArg _ (funext fun t => ?_)
    have hone : [n * b.batchSize.toNat].foldlM (importBatch rt drawn b)
        (t, newProducts rt b drawn (b.items.take (n * b.batchSize.toNat))) =
          importBatch rt drawn b
            (t, newProducts rt b drawn (b.items.take (n * b.batchSize.toNat)))
            (n * b.batchSize.toNat) := by simp
    exact (congrArg _ hone).trans (importBatch_toOption rt drawn b _ _)

theorem pyRange_pos (stop : ℕ) {step : Int} (h : 0 < step) :
    pyRange stop step =
      .ok ((List.range ((stop + step.toNat - 1) / step.toNat)).map (· * step.toNat)) := by
  unfold pyRange
  rw [if_neg (by omega), if_neg (by omega)]

/-- With batches of any positive size an import stores all of its rows, or raises. -/
theorem bulkCreateProducts_toOption (rt : Runtime) (drawn : ℕ) (b : BulkImport)
    (products : Products) (hb : 0 < b.batchSize) :
    (bulkCreateProducts rt drawn b products).toOption =
      let rows := newProducts rt b drawn b.items
      (flushAll products rows).map fun t => (rows.map modelValidate, t) := by
  obtain ⟨size, hsize⟩ : ∃ size : ℕ, b.batchSize.toNat = size ∧ 0 < size := ⟨_, rfl, by omega⟩
  have hstarts : pyRange b.items.length b.batchSize =
      .ok ((List.range ((b.items.length + size - 1) / size)).map (· * size)) := by
    rw [pyRange_pos _ hb, hsize.1]
  have hdiv := Nat.div_add_mod (b.items.length + size - 1) size
  have hmod := Nat.mod_lt (b.items.length + size - 1) hsize.2
  have hstart : ∀ k < (b.items.length + size - 1) / size,
      k * b.batchSize.toNat ≤ b.items.length := by
    intro k hk
    have hmul : (k + 1) * size ≤ b.items.length + size - 1 :=
      (Nat.le_div_iff_mul_le hsize.2).mp hk
    rw [Nat.succ_mul] at hmul
    rw [hsize.1]
    omega
  have htake : b.items.take ((b.items.length + size - 1) / size * size) = b.items :=
    List.take_of_length_le (by rw [Nat.mul_comm]; omega)
  have himport := importBatches_toOption rt drawn b products hstart
  rw [hsize.1, htake] at himport
  unfold bulkCreateProducts
  rw [hstarts, toOption_bind]
  refine (toOption_bind _ _).trans ?_
  rw [himport, Option.bind_map]
  dsimp only
  cases flushAll products (newProducts rt b drawn b.items) with
  | none => rfl
  | some t => rfl

/-- Without one it stores nothing. -/
theorem bulkCreateProducts_nonpos (rt : Runtime) (drawn : ℕ) (b : BulkImport)
    (products : Products) (hb : b.batchSize ≤ 0) :
    (bulkCreateProducts rt drawn b products).toOption =
      if b.batchSize = 0 then none else some ([], products) := by
  unfold bulkCreateProducts pyRange
  by_cases hzero : b.batchSize = 0
  · simp [hzero, bind, Except.bind, Except.toOption]
  · rw [if_neg hzero, if_pos (by omega), if_neg hzero]
    rfl

end CloudScale.CatalogService
