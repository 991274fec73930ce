/-
  How `bulk_create_products` ends (`catalog/app/service.py`).

  The batches run in savepoints of one transaction, and an exception rolls the transaction back
  (`bulkCreate_run`). A batch with a SKU of the table or of an earlier batch raises a conflict. One
  that only repeats a SKU of its own fails when its rows are flushed: `exists_by_sku` does not see
  them (`allOrNothing_clashSeen`).
-/
import CloudScale.CatalogService.BulkImport
import Mathlib.Data.Nat.Order.Lemmas
import Mathlib.Tactic.NormNum

namespace CloudScale.CatalogService

open CloudScale.Lib CloudScale.Shared

/-! ## The transaction -/

/-- The session of an import: the table as its transaction found it, and as the flushes left it. -/
structure ImportSession where
  begun : Products
  flushed : Products

abbrev ImportTxn := EStateM BulkExc ImportSession

/-- `async with self.session.begin_nested()`; an exception goes back to the savepoint. -/
def beginNested {α : Type} (body : ImportTxn α) : ImportTxn α := fun s =>
  match body s with
  | .ok a s' => .ok a s'
  | .error e s' => .error e { s' with flushed := s.flushed }

/-- `self.session.rollback()`. -/
def rollback : ImportTxn Unit := modify fun s => { s with flushed := s.begun }

section Import

variable (rt : Runtime) (drawn : ℕ) (b : BulkImport)

/-- The body of a savepoint. -/
def saveBatch (start : ℕ) (batch : List ProductCreate) : ImportTxn (List Product) := do
  let rows ← MonadExcept.ofExcept (addBatch rt b (← get).flushed (drawn + start) batch)
  match flushAll (← get).flushed rows with
  | some products =>
    modify fun s => { s with flushed := products }
    return rows
  | none => throw (.catalog .integrityError)

/-- A round of the loop; `created` are the products of the rounds before it. -/
def saveNext (created : List Product) (start : ℕ) : ImportTxn (List Product) := do
  let batch := (b.items.drop start).take b.batchSize.toNat
  MonadExcept.ofExcept (prevalidate start batch)
  let rows ← try beginNested (saveBatch rt drawn b start batch) catch e => rollback; throw e
  return created ++ rows

/-- `bulk_create_products` in a session. -/
def bulkCreate : ImportTxn (List ProductResponse) := do
  let starts ← MonadExcept.ofExcept (pyRange b.items.length b.batchSize)
  let created ← starts.foldlM (saveNext rt drawn b) []
  return created.map modelValidate

end Import

/-- The end of a transaction: an exception leaves the table as it was found. -/
def ended {α : Type} (begun : Products) :
    Except BulkExc (Products × α) → EStateM.Result BulkExc ImportSession α
  | .ok (flushed, a) => .ok a { begun, flushed }
  | .error e => .error e { begun, flushed := begun }

section Run

variable {rt : Runtime} {drawn : ℕ} {b : BulkImport} {begun : Products}

theorem bind_ok {α β : Type} {x : ImportTxn α} {f : α → ImportTxn β} {a : α} {s s' : ImportSession}
    (h : x s = .ok a s') : (x >>= f) s = f a s' := by
  simp only [bind, EStateM.bind, h]

theorem get_run (s : ImportSession) : (get : ImportTxn ImportSession) s = .ok s s := rfl

theorem ofExcept_ok {α : Type} (a : α) (s : ImportSession) :
    (MonadExcept.ofExcept (.ok a : Except BulkExc α) : ImportTxn α) s = .ok a s := rfl

theorem saveBatch_raises {s : ImportSession} {start : ℕ} {batch : List ProductCreate} {e : BulkExc}
    (hadd : addBatch rt b s.flushed (drawn + start) batch = .error e) :
    saveBatch rt drawn b start batch s = .error e s := by
  rw [saveBatch, bind_ok (get_run s), hadd]
  rfl

theorem saveBatch_flushes {s : ImportSession} {start : ℕ} {batch : List ProductCreate}
    {rows : List Product} (hadd : addBatch rt b s.flushed (drawn + start) batch = .ok rows) :
    saveBatch rt drawn b start batch s =
      (flushAll s.flushed rows).elim (.error (.catalog .integrityError) s)
        fun t => .ok rows { s with flushed := t } := by
  rw [saveBatch, bind_ok (get_run s), hadd, bind_ok (ofExcept_ok rows s), bind_ok (get_run s)]
  cases flushAll s.flushed rows with
  | none => rfl
  | some t => rfl

theorem saveNext_run (flushed : Products) (created : List Product) (start : ℕ) :
    saveNext rt drawn b created start { begun, flushed } =
      ended begun (importBatch rt drawn b (flushed, created) start) := by
  simp only [saveNext, importBatch, prevalidate_eq]
  cases hadd : addBatch rt b flushed (drawn + start) _ with
  | error e =>
    have hsave := saveBatch_raises (s := { begun, flushed }) hadd
    simp only [bind, EStateM.bind, MonadExcept.ofExcept, pure, EStateM.pure, tryCatch,
      tryCatchThe, MonadExceptOf.tryCatch, EStateM.tryCatch, beginNested, hsave]
    rfl
  | ok rows =>
    have hsave := saveBatch_flushes (s := { begun, flushed }) hadd
    simp only [bind, EStateM.bind, MonadExcept.ofExcept, pure, EStateM.pure, tryCatch,
      tryCatchThe, MonadExceptOf.tryCatch, EStateM.tryCatch, beginNested, hsave]
    cases hflush : flushAll flushed rows with
    | none =>
      simp only [Except.bind, hflush]
      rfl
    | some t =>
      simp only [Except.bind, hflush]
      rfl

theorem saveNexts_run (starts : List ℕ) (flushed : Products) (created : List Product) :
    starts.foldlM (saveNext rt drawn b) created { begun, flushed } =
      ended begun (starts.foldlM (importBatch rt drawn b) (flushed, created)) := by
  induction starts generalizing flushed created with
  | nil => rfl
  | cons start starts ih =>
    simp only [List.foldlM_cons, bind, EStateM.bind, saveNext_run]
    cases importBatch rt drawn b (flushed, created) start with
    | error e => rfl
    | ok so => exact ih so.1 so.2

end Run

/-- In its session an import ends as without one, and an exception leaves the table as it was. -/
theorem bulkCreate_run (rt : Runtime) (drawn : ℕ) (b : BulkImport) (products : Products) :
    bulkCreate rt drawn b { begun := products, flushed := products } =
      ended products ((bulkCreateProducts rt drawn b products).map Prod.swap) := by
  simp only [bulkCreate, bulkCreateProducts, bind, EStateM.bind]
  cases pyRange b.items.length b.batchSize with
  | error e => rfl
  | ok starts =>
    simp only [MonadExcept.ofExcept, pure, EStateM.pure, saveNexts_run, Except.bind]
    cases starts.foldlM (importBatch rt drawn b) (products, []) with
    | error e => rfl
    | ok so => rfl

/-! ## SKUs -/

/-- None of the SKUs occurs twice or is taken. -/
def NewSkus (taken skus : List String) : Prop := skus.Nodup ∧ ∀ sku ∈ skus, sku ∉ taken

instance (taken skus : List String) : Decidable (NewSkus taken skus) :=
  inferInstanceAs (Decidable (_ ∧ _))

/-- The first batch with a SKU that is not new has one of the table or of an earlier batch. -/
def ClashSeen (taken skus : List String) (size : ℕ) : Prop :=
  ∀ k < skus.length, NewSkus taken (skus.take (k * size)) →
    ¬ NewSkus taken (skus.take ((k + 1) * size)) →
      ∃ sku ∈ (skus.drop (k * size)).take size, sku ∈ taken ++ skus.take (k * size)

instance (taken skus : List String) (size : ℕ) : Decidable (ClashSeen taken skus size) :=
  inferInstanceAs (Decidable (∀ k < skus.length, _ → _ → _))

theorem NewSkus.take {taken skus : List String} (h : NewSkus taken skus) (n : ℕ) :
    NewSkus taken (skus.take n) :=
  ⟨h.1.sublist (List.take_sublist n skus), fun sku hsku => h.2 sku (List.mem_of_mem_take hsku)⟩

theorem clashSeen_of_newSkus {taken skus : List String} (h : NewSkus taken skus) (size : ℕ) :
    ClashSeen taken skus size :=
  fun _ _ _ hclash => absurd (h.take _) hclash

/-- A list with a SKU that is not new has a first batch with one, and the condition is about that
    batch only. -/
theorem clashSeen_iff {taken skus : List String} {size : ℕ} (hsize : 0 < size)
    (h : ¬ NewSkus taken skus) :
    ∃ k, k * size < skus.length ∧ NewSkus taken (skus.take (k * size)) ∧
      ¬ NewSkus taken (skus.take ((k + 1) * size)) ∧
      (ClashSeen taken skus size ↔
        ∃ sku ∈ (skus.drop (k * size)).take size, sku ∈ taken ++ skus.take (k * size)) := by
  have hzero : ¬ ¬ NewSkus taken (skus.take (0 * size)) := by simp [NewSkus]
  have hsome : ∃ n, ¬ NewSkus taken (skus.take (n * size)) := by
    refine ⟨skus.length, ?_⟩
    rwa [List.take_of_length_le (Nat.le_mul_of_pos_right _ hsize)]
  obtain ⟨k, hnew, hclash⟩ := Nat.exists_not_and_succ_of_not_zero_of_exists hzero hsome
  replace hnew : NewSkus taken (skus.take (k * size)) := not_not.mp hnew
  have hlt : k * size < skus.length := by
    by_contra hge
    rw [List.take_of_length_le (by omega)] at hnew
    exact h hnew
  have hk : k < skus.length := Nat.lt_of_le_of_lt (Nat.le_mul_of_pos_right k hsize) hlt
  refine ⟨k, hlt, hnew, hclash, fun hseen => hseen k hk hnew hclash, fun hseen j _ hj hj' => ?_⟩
  have hle : ∀ m n, m < n → NewSkus taken (skus.take (n * size)) →
      NewSkus taken (skus.take ((m + 1) * size)) := by
    intro m n hmn hn
    have := hn.take ((m + 1) * size)
    rwa [List.take_take, Nat.min_eq_left (Nat.mul_le_mul_right size hmn)] at this
  have hjk : j = k := by
    by_contra hne
    rcases Nat.lt_or_gt_of_ne hne with hlt | hgt
    · exact hj' (hle j k hlt hnew)
    · exact hclash (hle k j hgt hj)
  exact hjk ▸ hseen

/-- Rows with ids of their own, whose values fit, can be inserted when their SKUs are new. -/
theorem fits_iff {products : Products} {rows : List Product}
    (hids : ((products.rows ++ rows).map (·.id)).Nodup) (hfit : ∀ p ∈ rows, p.storable = true) :
    Fits products rows ↔ NewSkus (products.rows.map (·.sku)) (rows.map (·.sku)) := by
  unfold Fits NewSkus
  simp only [hids, true_and, List.forall_mem_map]
  exact and_congr_right fun _ => and_iff_left hfit

/-! ## Outcomes -/

/-- An import answers with its products and adds their rows, or it raises a conflict and the table
    is as before. -/
def AllOrNothing (rt : Runtime) (drawn : ℕ) (b : BulkImport) (products : Products) : Prop :=
  (NewSkus (products.rows.map (·.sku)) (b.items.map (·.sku)) →
    ∃ t : Products, t.rows = products.rows ++ newProducts rt b drawn b.items ∧
      bulkCreate rt drawn b { begun := products, flushed := products } =
        .ok ((newProducts rt b drawn b.items).map modelValidate)
          { begun := products, flushed := t }) ∧
  (¬ NewSkus (products.rows.map (·.sku)) (b.items.map (·.sku)) →
    ∃ message, bulkCreate rt drawn b { begun := products, flushed := products } =
      .error (.catalog (.conflictException message)) { begun := products, flushed := products })

section Outcomes

variable {rt : Runtime} {drawn : ℕ} {b : BulkImport} {products : Products}

/-- A batch raises a conflict exactly when one of its SKUs was in the table before it. -/
theorem importBatch_conflict_iff (rt : Runtime) (drawn : ℕ) (b : BulkImport)
    (so : Products × List Product) (start : ℕ) (htenant : ∀ p ∈ so.1.rows, p.tenantId = b.tenant) :
    (∃ message,
        importBatch rt drawn b so start = .error (.catalog (.conflictException message))) ↔
      ∃ item ∈ (b.items.drop start).take b.batchSize.toNat, item.sku ∈ so.1.rows.map (·.sku) := by
  have hexists : ∀ sku, existsBySku so.1 b.tenant sku = true ↔ sku ∈ so.1.rows.map (·.sku) := by
    intro sku
    rw [existsBySku_iff, List.mem_map]
    exact exists_congr fun p => and_congr_right fun hp => and_iff_left (htenant p hp)
  simp only [importBatch, prevalidate_eq]
  rcases addBatch_cases rt b so.1 (drawn + start) ((b.items.drop start).take b.batchSize.toNat)
    with ⟨hok, hnone⟩ | ⟨⟨message, he⟩, item, hitem, htaken⟩
  · apply iff_of_false
    · rintro ⟨message, h⟩
      simp only [hok, bind, Except.bind] at h
      cases hflush : flushAll so.1 (newProducts rt b (drawn + start)
          ((b.items.drop start).take b.batchSize.toNat)) with
      | none => simp [hflush] at h
      | some t => simp [hflush, pure, Except.pure] at h
    · rintro ⟨item, hitem, hsku⟩
      rw [← hexists, hnone item hitem] at hsku
      exact Bool.false_ne_true hsku
  · apply iff_of_true
    · exact ⟨message, by simp only [he, bind, Except.bind]⟩
    · exact ⟨item, hitem, (hexists _).mp htaken⟩

theorem eq_ok_of_toOption {ε α : Type} {x : Except ε α} {a : α} (h : x.toOption = some a) :
    x = .ok a := by
  cases x with
  | error e => exact absurd h (Option.some_ne_none a).symm
  | ok a' => exact congrArg Except.ok (Option.some.inj h)

theorem eq_error_of_toOption {ε α : Type} {x : Except ε α} (h : x.toOption = none) :
    ∃ e, x = .error e := by
  cases x with
  | error e => exact ⟨e, rfl⟩
  | ok a => exact absurd h (Option.some_ne_none a)

/-- An import raises what the first batch raises that cannot be stored after the ones before it. -/
theorem bulkCreateProducts_raises (hb : 0 < b.batchSize) {k : ℕ}
    (hk : k * b.batchSize.toNat < b.items.length) {t : Products}
    (ht : flushAll products
      (newProducts rt b drawn (b.items.take (k * b.batchSize.toNat))) = some t)
    (hnone : flushAll products
      (newProducts rt b drawn (b.items.take ((k + 1) * b.batchSize.toNat))) = none) :
    ∃ e, importBatch rt drawn b
        (t, newProducts rt b drawn (b.items.take (k * b.batchSize.toNat)))
        (k * b.batchSize.toNat) = .error e ∧
      bulkCreateProducts rt drawn b products = .error e := by
  have hstarts : ∀ j < k + 1, j * b.batchSize.toNat ≤ b.items.length := by
    intro j hj
    have := Nat.mul_le_mul_right b.batchSize.toNat (Nat.le_of_lt_succ hj)
    omega
  have hstored := importBatches_toOption rt drawn b products
    fun j hj => hstarts j (Nat.lt_succ_of_lt hj)
  have hraised := importBatches_toOption rt drawn b products hstarts
  simp only [ht] at hstored
  simp only [hnone] at hraised
  obtain ⟨e, he⟩ := eq_error_of_toOption hraised
  have hbulk : bulkCreateProducts rt drawn b products = .error e := by
    have hlt : k + 1 ≤ (b.items.length + b.batchSize.toNat - 1) / b.batchSize.toNat := by
      rw [Nat.le_div_iff_mul_le (by omega), Nat.succ_mul]
      omega
    obtain ⟨m, hm⟩ := Nat.exists_eq_add_of_le hlt
    unfold bulkCreateProducts
    rw [pyRange_pos _ hb, hm, List.range_add, List.map_append]
    simp only [bind, Except.bind, List.foldlM_append, he]
  refine ⟨e, ?_, hbulk⟩
  rw [List.range_succ, List.map_append, List.foldlM_append, eq_ok_of_toOption hstored] at he
  simp only [List.map_cons, List.map_nil, List.foldlM_cons, List.foldlM_nil, bind_pure] at he
  exact he

/-- Some first items can be inserted exactly when their SKUs are new. -/
theorem fits_take (hids : ((products.rows ++ newProducts rt b drawn b.items).map (·.id)).Nodup)
    (hfit : ∀ p ∈ newProducts rt b drawn b.items, p.storable = true) (n : ℕ) :
    Fits products (newProducts rt b drawn (b.items.take n)) ↔
      NewSkus (products.rows.map (·.sku)) ((b.items.map (·.sku)).take n) := by
  have hsub : (products.rows ++ (newProducts rt b drawn b.items).take n).Sublist
      (products.rows ++ newProducts rt b drawn b.items) :=
    (List.take_sublist n _).append_left products.rows
  have h := fits_iff (hids.sublist (hsub.map (·.id)))
    fun p hp => hfit p (List.mem_of_mem_take hp)
  rwa [List.map_take, map_sku_newProducts, ← newProducts_take] at h

/-- An import of any positive batch size is all or nothing exactly when its first batch with a SKU
    that is not new repeats one that `exists_by_sku` sees. -/
theorem allOrNothing_clashSeen (hb : 0 < b.batchSize)
    (htenant : ∀ p ∈ products.rows, p.tenantId = b.tenant)
    (hids : ((products.rows ++ newProducts rt b drawn b.items).map (·.id)).Nodup)
    (hfit : ∀ p ∈ newProducts rt b drawn b.items, p.storable = true) :
    AllOrNothing rt drawn b products ↔
      ClashSeen (products.rows.map (·.sku)) (b.items.map (·.sku)) b.batchSize.toNat := by
  by_cases hnew : NewSkus (products.rows.map (·.sku)) (b.items.map (·.sku))
  · refine iff_of_true ⟨fun _ => ?_, fun h => absurd hnew h⟩ (clashSeen_of_newSkus hnew _)
    have hfits : Fits products (newProducts rt b drawn b.items) := by
      refine (fits_iff hids hfit).mpr ?_
      rwa [map_sku_newProducts]
    obtain ⟨t, ht⟩ := flushAll_of_fits hfits
    have hok := bulkCreateProducts_toOption rt drawn b products hb
    simp only [ht] at hok
    refine ⟨t, (flushAll_eq_some_iff.mp ht).2, ?_⟩
    rw [bulkCreate_run, eq_ok_of_toOption hok]
    rfl
  · obtain ⟨k, hk, hbefore, hclash, hseen⟩ :=
      clashSeen_iff (by omega : 0 < b.batchSize.toNat) hnew
    rw [List.length_map] at hk
    rw [hseen]
    -- the batches before the clash are stored, and the import ends as the batch with it does
    obtain ⟨t, ht⟩ := flushAll_of_fits ((fits_take hids hfit _).mpr hbefore)
    have hnone : flushAll products (newProducts rt b drawn
        (b.items.take ((k + 1) * b.batchSize.toNat))) = none := by
      refine Option.eq_none_iff_forall_not_mem.mpr fun t' ht' => ?_
      exact hclash ((fits_take hids hfit _).mp (flushAll_eq_some_iff.mp ht').1)
    obtain ⟨e, hbatch, hbulk⟩ := bulkCreateProducts_raises hb hk ht hnone
    have hrows := (flushAll_eq_some_iff.mp ht).2
    have htenants : ∀ p ∈ t.rows, p.tenantId = b.tenant := by
      intro p hp
      rw [hrows] at hp
      rcases List.mem_append.mp hp with hp | hp
      · exact htenant p hp
      · exact (newProducts_spec hp).2
    have hconflict := importBatch_conflict_iff rt drawn b
      (t, newProducts rt b drawn (b.items.take (k * b.batchSize.toNat))) (k * b.batchSize.toNat)
      htenants
    rw [hbatch] at hconflict
    have hall : AllOrNothing rt drawn b products ↔
        ∃ message, (Except.error e : Except BulkExc (Products × List Product)) =
          .error (.catalog (.conflictException message)) := by
      unfold AllOrNothing
      rw [bulkCreate_run, hbulk]
      simp only [hnew, ended, Except.map]
      simp
    rw [hall, hconflict]
    simp only [hrows, List.map_append, map_sku_newProducts, ← List.map_take, ← List.map_drop,
      List.mem_map, exists_exists_and_eq_and]

/-- Imports of some products in batches of two sizes are both all or nothing exactly when both see
    the first clash. -/
theorem bulk_import_iff (rt : Runtime) (drawn : ℕ) (b : BulkImport) (size : Int)
    (products : Products) (hb : 1 ≤ b.batchSize) (hsize : 1 ≤ size)
    (htenant : ∀ p ∈ products.rows, p.tenantId = b.tenant)
    (hids : ((products.rows ++ newProducts rt b drawn b.items).map (·.id)).Nodup)
    (hfit : ∀ p ∈ newProducts rt b drawn b.items, p.storable = true) :
    AllOrNothing rt drawn b products ∧
        AllOrNothing rt drawn { b with batchSize := size } products ↔
      ClashSeen (products.rows.map (·.sku)) (b.items.map (·.sku)) b.batchSize.toNat ∧
        ClashSeen (products.rows.map (·.sku)) (b.items.map (·.sku)) size.toNat := by
  have hrows : ∀ k items,
      newProducts rt { b with batchSize := size } k items = newProducts rt b k items := by
    intro k items
    induction items generalizing k with
    | nil => rfl
    | cons item items ih => simp [newProducts, ih]
  refine and_congr (allOrNothing_clashSeen hb htenant hids hfit) ?_
  refine allOrNothing_clashSeen (b := { b with batchSize := size }) hsize htenant ?_ ?_
  · rwa [hrows]
  · rwa [hrows]

end Outcomes

/-- An import of two products with one SKU. -/
def twoLamps (size : Int) : BulkImport :=
  let item : ProductCreate :=
    { sku := "sku-0", name := "lamp", description := none, price := 1
      sku_length := ProductCreate.sku_0_length, name_length := ProductCreate.lamp_length
      price_pos := ProductCreate.one_price_pos }
  { tenant := "t", redis := false, items := [item, item], batchSize := size }

def importRuntime : Runtime := { md5 := id, uuid4 := toString }

def noProducts : Products := Table.empty

theorem twoLamps_storable (size : Int) :
    ∀ p ∈ newProducts importRuntime (twoLamps size) 0 (twoLamps size).items,
      p.storable = true := by
  have hname : fitsText 255 "lamp" = true := by decide
  have hsku : fitsText 100 "sku-0" = true := by decide
  have htenant : fitsText 100 "t" = true := by decide
  have hprice : fitsNumeric 1 = true := by decide +kernel
  simp [twoLamps, newProducts, newProduct, Product.storable, hname, hsku, htenant, hprice]

theorem bulk_import_lamps :
    AllOrNothing importRuntime 0 (twoLamps 1) noProducts ∧
        AllOrNothing importRuntime 0 (twoLamps 2) noProducts ↔
      ClashSeen [] ["sku-0", "sku-0"] 1 ∧ ClashSeen [] ["sku-0", "sku-0"] 2 :=
  bulk_import_iff importRuntime 0 (twoLamps 1) 2 noProducts (by decide) (by decide) (by decide)
    (by decide) (twoLamps_storable 1)

/-- In batches of one the second product is a conflict; in one batch it is an `IntegrityError`. -/
theorem lamps_in_one_batch :
    AllOrNothing importRuntime 0 (twoLamps 1) noProducts ∧
      bulkCreate importRuntime 0 (twoLamps 500) { begun := noProducts, flushed := noProducts } =
        .error (.catalog .integrityError) { begun := noProducts, flushed := noProducts } ∧
      ¬ AllOrNothing importRuntime 0 (twoLamps 500) noProducts := by
  refine ⟨?_, ?_, fun h => ?_⟩
  · refine (allOrNothing_clashSeen ?_ ?_ ?_ (twoLamps_storable 1)).mpr ?_ <;> decide
  · have hflush : flushAll noProducts
        (newProducts importRuntime (twoLamps 500) 0 (twoLamps 500).items) = none := by
      refine Option.eq_none_iff_forall_not_mem.mpr fun t ht => ?_
      exact absurd (flushAll_eq_some_iff.mp ht).1.2.1 (by decide)
    have hbatch : importBatch importRuntime 0 (twoLamps 500) (noProducts, []) 0 =
        .error (.catalog .integrityError) := by
      have hadd : addBatch importRuntime (twoLamps 500) noProducts 0 (twoLamps 500).items =
          .ok (newProducts importRuntime (twoLamps 500) 0 (twoLamps 500).items) := rfl
      have hitems : ((twoLamps 500).items.drop 0).take (twoLamps 500).batchSize.toNat =
          (twoLamps 500).items := rfl
      simp only [importBatch, prevalidate_eq, hitems, Nat.add_zero, hadd, bind, Except.bind, hflush]
    obtain ⟨e, he, hbulk⟩ := bulkCreateProducts_raises (by decide : 0 < (twoLamps 500).batchSize)
      (by decide : 0 * (twoLamps 500).batchSize.toNat < (twoLamps 500).items.length) rfl hflush
    obtain rfl : e = .catalog .integrityError := Except.error.inj (he.symm.trans hbatch)
    rw [bulkCreate_run, hbulk]
    rfl
  · refine absurd ((allOrNothing_clashSeen ?_ ?_ ?_ (twoLamps_storable 500)).mp h) ?_ <;> decide

end CloudScale.CatalogService
