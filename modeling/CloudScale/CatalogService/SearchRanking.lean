/-
  The ranking of `semantic_search` (`catalog/app/ai.py`).

  The index is a dictionary from the products' ids to their vectors, searched in full: the ids by
  descending score, ties in the order of the dictionary. A search takes `2 * limit` of them, drops
  what does not score above the threshold, takes `limit` and looks their products up again.
  Scores and the threshold are exact here.

  The endpoint's transaction asks its environment how the scores rank the products;
  `exec_semanticSearch` says that it returns what the service here does.
-/
import CloudScale.CatalogService.Handlers
import CloudScale.Lib.Alone
import CloudScale.Lib.Listing

namespace CloudScale.CatalogService

open CloudScale.Lib

/-! ## The index -/

/-- `VectorIndex`: ids with their vectors, in the order in which the ids were first inserted. -/
abbrev VectorIndex := Table String (String × List ℚ) Prod.fst

namespace VectorIndex

theorem nodup_insert {index : VectorIndex} {itemId : String} (vector : List ℚ)
    (h : itemId ∉ index.rows.map Prod.fst) :
    ((index.rows ++ [(itemId, vector)]).map Prod.fst).Nodup := by
  rw [List.map_append, List.nodup_append_comm]
  exact List.nodup_cons.mpr ⟨h, index.nodup⟩

def upsert (index : VectorIndex) (itemId : String) (vector : List ℚ) : VectorIndex :=
  if h : itemId ∈ index.rows.map Prod.fst then
    index.modify itemId (fun v => (v.1, vector)) fun _ => rfl
  else ⟨index.rows ++ [(itemId, vector)], nodup_insert vector h⟩

/-- `cosine_similarity`. -/
def cosineSimilarity (vecA vecB : List ℚ) : ℚ := (List.zipWith (· * ·) vecA vecB).sum

def scores (index : VectorIndex) (queryVector : List ℚ) (excludeIds : List String) :
    List (String × ℚ) :=
  (index.rows.filter fun v => decide (v.1 ∉ excludeIds)).map fun v =>
    (v.1, cosineSimilarity queryVector v.2)

end VectorIndex

/-- The order of `scores.sort(key=lambda x: x[1], reverse=True)`, which is stable. -/
def ByScore (x y : String × ℚ) : Prop := y.2 ≤ x.2

instance : DecidableRel ByScore := fun x y => inferInstanceAs (Decidable (y.2 ≤ x.2))

instance : Std.Total ByScore := ⟨fun x y => le_total y.2 x.2⟩

instance : IsTrans (String × ℚ) ByScore := ⟨fun _ _ _ hxy hyz => le_trans hyz hxy⟩

def VectorIndex.search (index : VectorIndex) (queryVector : List ℚ) (topK : ℕ)
    (excludeIds : List String) : List (String × ℚ) :=
  ((index.scores queryVector excludeIds).insertionSort ByScore).take topK

/-! ## The service -/

/-- `ProductSearchService`: its index and the texts that its engine was fitted to. -/
structure ProductSearchService where
  index : VectorIndex := Table.empty
  indexed : Bool := false
  corpus : List String := []

/-- What the session answers to the statements of a search: the active products, the products with
    some ids, and the active products again. -/
structure SearchDb where
  active : List Product
  byIds : List String → List Product
  fallback : List Product

/-- The answers are scans of the rows, in any order. -/
structure SearchDb.Reads (db : SearchDb) (rows : List Product) : Prop where
  active : db.active.Perm (rows.filter (·.isActive))
  byIds : ∀ ids, (db.byIds ids).Perm (rows.filter fun p => decide (p.id ∈ ids))
  fallback : db.fallback.Perm (rows.filter (·.isActive))

/-- `min_similarity`. -/
def minSimilarity : ℚ := 5 / 100

def aboveThreshold (x : String × ℚ) : Bool := decide (minSimilarity < x.2)

/-- `f"{p.name} {p.description or ''}"`. -/
def documentText (p : Product) : String := p.name ++ " " ++ p.description.getD ""

namespace ProductSearchService

section Search

/- `EmbeddingEngine.embed` of an engine fitted to a corpus, without and with semantic expansion. -/
variable (embed : List String → String → Bool → List ℚ)

/-- `_ensure_index`. -/
def ensureIndex (s : ProductSearchService) (products : List Product) : ProductSearchService :=
  if s.indexed then s
  else if products.isEmpty then { s with indexed := true }
  else
    let corpus := products.map documentText
    { index := products.foldl
        (fun index p => index.upsert p.id (embed corpus (documentText p) false)) s.index
      indexed := true
      corpus }

/-- `semantic_search` after a cache miss. -/
def semanticSearch (s : ProductSearchService) (db : SearchDb) (query : String) (limit : ℕ) :
    List ProductResponse :=
  let s' := s.ensureIndex embed db.active
  let found := s'.index.search (embed s'.corpus query true) (limit * 2) []
  let filtered := (found.filter aboveThreshold).take limit
  if filtered.isEmpty then (db.fallback.take limit).map showProduct
  else
    let ids := filtered.map (·.1)
    productsInOrder ids (db.byIds ids)

end Search

end ProductSearchService

/-! ## Its results -/

namespace VectorIndex

theorem nodup_scores (index : VectorIndex) (queryVector : List ℚ) (excludeIds : List String) :
    (index.scores queryVector excludeIds).Nodup := by
  apply List.Nodup.of_map Prod.fst
  have hfst : (index.scores queryVector excludeIds).map Prod.fst =
      (index.rows.filter fun v => decide (v.1 ∉ excludeIds)).map Prod.fst := by
    rw [scores, List.map_map]
    rfl
  rw [hfst]
  exact index.nodup.sublist (List.filter_sublist.map Prod.fst)

theorem mem_scores {index : VectorIndex} {queryVector : List ℚ} {excludeIds : List String}
    {x : String × ℚ} (h : x ∈ index.scores queryVector excludeIds) :
    x.1 ∈ index.rows.map Prod.fst := by
  obtain ⟨v, hv, rfl⟩ := List.mem_map.mp h
  exact List.mem_map_of_mem (List.mem_of_mem_filter hv)

theorem mem_upsert {index : VectorIndex} {itemId : String} {vector : List ℚ} {id : String}
    (h : id ∈ (index.upsert itemId vector).rows.map Prod.fst) :
    id ∈ index.rows.map Prod.fst ∨ id = itemId := by
  by_cases hin : itemId ∈ index.rows.map Prod.fst
  · left
    obtain ⟨v, hv, rfl⟩ := List.mem_map.mp h
    rw [upsert, dif_pos hin] at hv
    obtain ⟨w, hw, rfl⟩ := List.mem_map.mp hv
    refine List.mem_map.mpr ⟨w, hw, ?_⟩
    split
    · rfl
    · rfl
  · rw [upsert, dif_neg hin, List.map_append, List.mem_append] at h
    exact h.imp_right List.mem_singleton.mp

/-- In an order by score those above the threshold come first. -/
theorem pairwise_above (scores : List (String × ℚ)) :
    (scores.insertionSort ByScore).Pairwise
      fun x y => aboveThreshold y = true → aboveThreshold x = true := by
  refine (List.pairwise_insertionSort ByScore scores).imp fun {x y} hxy hy => ?_
  exact decide_eq_true (lt_of_lt_of_le (of_decide_eq_true hy) hxy)

/-- The first neighbours above the threshold are the first above it of all. -/
theorem filter_search (index : VectorIndex) (queryVector : List ℚ) {topK limit : ℕ}
    (h : limit ≤ topK) :
    ((index.search queryVector topK []).filter aboveThreshold).take limit =
      (((index.scores queryVector []).insertionSort ByScore).filter aboveThreshold).take limit := by
  unfold search
  rw [filter_take (pairwise_above _), List.take_take, Nat.min_eq_left h]

end VectorIndex

section Index

variable {embed : List String → String → Bool → List ℚ}

theorem mem_foldl_upsert {corpus : List String} {products : List Product} {index : VectorIndex}
    {id : String} (h : id ∈ (products.foldl (fun index p =>
      index.upsert p.id (embed corpus (documentText p) false)) index).rows.map Prod.fst) :
    id ∈ index.rows.map Prod.fst ∨ id ∈ products.map (·.id) := by
  induction products generalizing index with
  | nil => exact .inl h
  | cons p products ih =>
    rcases ih h with hid | hid
    · rcases VectorIndex.mem_upsert hid with hid | rfl
      · exact .inl hid
      · exact .inr List.mem_cons_self
    · exact .inr (List.mem_cons_of_mem _ hid)

/-- An id in the index was there before, or is that of a product it was built from. -/
theorem mem_ensureIndex {s : ProductSearchService} {products : List Product} {id : String}
    (h : id ∈ (s.ensureIndex embed products).index.rows.map Prod.fst) :
    id ∈ s.index.rows.map Prod.fst ∨ id ∈ products.map (·.id) := by
  unfold ProductSearchService.ensureIndex at h
  split at h
  · exact .inl h
  · split at h
    · exact .inl h
    · exact mem_foldl_upsert h

end Index

/-- The products found are shown in the order of their ids, and none is left out. -/
theorem productsInOrder_forall₂ {rows found : List Product} {ids : List String}
    (hids : ∀ id ∈ ids, id ∈ rows.map (·.id))
    (hfound : ∀ p, p ∈ found ↔ p ∈ rows ∧ p.id ∈ ids) :
    List.Forall₂ (fun id r => ∃ p ∈ rows, p.id = id ∧ r = showProduct p) ids
      (productsInOrder ids found) := by
  have hshow : ∀ id ∈ ids, ∃ p ∈ rows, p.id = id ∧
      (found.find? fun p => decide (p.id = id)) = some p := by
    intro id hid
    obtain ⟨p, hp, rfl⟩ := List.mem_map.mp (hids id hid)
    have hsome : (found.find? fun q => decide (q.id = p.id)).isSome := by
      rw [List.find?_isSome]
      exact ⟨p, (hfound p).mpr ⟨hp, hid⟩, decide_eq_true rfl⟩
    obtain ⟨q, hq⟩ := Option.isSome_iff_exists.mp hsome
    have hqrows := ((hfound q).mp (List.mem_of_find?_eq_some hq)).1
    have hqid : q.id = p.id := by simpa using List.find?_some hq
    exact ⟨q, hqrows, hqid, hq⟩
  unfold productsInOrder
  clear hids hfound
  induction ids with
  | nil => exact .nil
  | cons id ids ih =>
    obtain ⟨p, hp, hpid, hfind⟩ := hshow id List.mem_cons_self
    rw [List.filterMap_cons_some (by rw [hfind]; rfl)]
    exact .cons ⟨p, hp, hpid, rfl⟩ (ih fun id' hid' => hshow id' (List.mem_cons_of_mem _ hid'))

section Search

variable {embed : List String → String → Bool → List ℚ} {s : ProductSearchService}

/-- The scores of the indexed products, in the order of the index. -/
def ProductSearchService.queryScores (embed : List String → String → Bool → List ℚ)
    (s : ProductSearchService) (products : List Product) (query : String) : List (String × ℚ) :=
  let s' := s.ensureIndex embed products
  s'.index.scores (embed s'.corpus query true) []

/-- The first `limit` scores above the threshold, by score. -/
def ProductSearchService.hits (embed : List String → String → Bool → List ℚ)
    (s : ProductSearchService) (products : List Product) (query : String) (limit : ℕ) :
    List (String × ℚ) :=
  (((s.queryScores embed products query).insertionSort ByScore).filter aboveThreshold).take limit

theorem semanticSearch_eq (db : SearchDb) (query : String) (limit : ℕ) :
    s.semanticSearch embed db query limit =
      if (s.hits embed db.active query limit).isEmpty then (db.fallback.take limit).map showProduct
      else productsInOrder ((s.hits embed db.active query limit).map (·.1))
        (db.byIds ((s.hits embed db.active query limit).map (·.1))) := by
  have hfiltered := (s.ensureIndex embed db.active).index.filter_search
    (embed (s.ensureIndex embed db.active).corpus query true)
    (Nat.le_mul_of_pos_right limit Nat.two_pos)
  unfold ProductSearchService.semanticSearch
  simp only [hfiltered]
  rfl

theorem map_hits (products : List Product) (query : String) (limit : ℕ) :
    ((((((s.queryScores embed products query).insertionSort ByScore).map (·.1)).take
        (limit * 2)).take
      (((s.queryScores embed products query).insertionSort ByScore).countP aboveThreshold)).take
        limit) = (s.hits embed products query limit).map (·.1) := by
  unfold ProductSearchService.hits
  rw [filter_eq_take (VectorIndex.pairwise_above _)]
  simp only [← List.map_take, List.take_take]
  congr 2
  omega

theorem hits_ne_nil {products : List Product} {query : String} {limit : ℕ} (hlimit : 1 ≤ limit)
    (h : ∃ x ∈ s.queryScores embed products query, minSimilarity < x.2) :
    s.hits embed products query limit ≠ [] := by
  obtain ⟨x, hx, hlt⟩ := h
  have hmem : x ∈ ((s.queryScores embed products query).insertionSort ByScore).filter
      aboveThreshold :=
    List.mem_filter.mpr ⟨(List.mem_insertionSort ByScore).mpr hx, decide_eq_true hlt⟩
  intro hnil
  rcases List.take_eq_nil_iff.mp hnil with hzero | hnil
  · omega
  · rw [hnil] at hmem
    exact List.not_mem_nil hmem

/-- A hit is one of the table's products. -/
theorem mem_hits {rows products : List Product} {query : String} {limit : ℕ}
    (hindex : ∀ id ∈ s.index.rows.map Prod.fst, id ∈ rows.map (·.id))
    (hproducts : ∀ p ∈ products, p ∈ rows) :
    ∀ id ∈ (s.hits embed products query limit).map (·.1), id ∈ rows.map (·.id) := by
  intro id hid
  obtain ⟨x, hx, rfl⟩ := List.mem_map.mp hid
  have hscore := (List.mem_insertionSort ByScore).mp
    (List.mem_of_mem_filter (List.mem_of_mem_take hx))
  rcases mem_ensureIndex (VectorIndex.mem_scores hscore) with hold | hnew
  · exact hindex x.1 hold
  · obtain ⟨p, hp, heq⟩ := List.mem_map.mp hnew
    exact List.mem_map.mpr ⟨p, hproducts p hp, heq⟩

end Search

/-! ## The transaction -/

section Exec

variable {X : Type} {ans : X → (q : CatalogQuery) → CatalogAnswer q} {eff : CatalogQuery → X → X}

theorem exec_setex (tenant key : String) (ttl : Int) (v : CacheValue) (x : X) :
    ∃ x', (setex tenant key ttl v).exec ans eff x = (.ok (), x') := by
  unfold setex
  rw [exec_bind]
  change ∃ x', Txn.exec ans eff (if (ans x .redisUp && v.dumps) = true then _ else _) _ = _
  split
  · exact ⟨_, rfl⟩
  · exact ⟨_, rfl⟩

/-- The transaction of a search, where the index answers how the scores rank the products, returns
    what the service does. -/
theorem exec_semanticSearch (embed : List String → String → Bool → List ℚ) (rt : Runtime)
    (tenant query : String) (limit : ℕ) (db : SearchDb) (x : X)
    (hredis : ∀ y key now, ans y (.getRedis key now) = none)
    (hactive : ∀ y, ans y (.active tenant) = db.active) (hfallback : db.fallback = db.active)
    (hbyIds : ∀ y ids, ans y (.byIds tenant ids) = db.byIds ids)
    (hranking : ∀ y, ans y (.ranking (db.active.map (·.id))) =
      let ranked :=
        (ProductSearchService.queryScores embed {} db.active query).insertionSort ByScore
      (ranked.map (·.1), ranked.countP aboveThreshold)) :
    ((semanticSearch rt tenant query limit).exec ans eff x).1 =
      .ok (.products (ProductSearchService.semanticSearch embed {} db query limit)) := by
  obtain ⟨x₁, hget⟩ : ∃ x₁, (getRedis (searchKey rt query limit)).exec ans eff x =
      (.ok none, x₁) := ⟨_, Prod.ext (congrArg Except.ok (hredis _ _ _)) rfl⟩
  have hselect : ∀ y, ∃ y', (selectActive tenant).exec ans eff y = (.ok db.active, y') :=
    fun y => ⟨_, Prod.ext (congrArg Except.ok (hactive y)) rfl⟩
  have hin : ∀ y ids, ∃ y', (selectIn tenant ids).exec ans eff y = (.ok (db.byIds ids), y') :=
    fun y ids => ⟨_, Prod.ext (congrArg Except.ok (hbyIds y ids)) rfl⟩
  have hsetex : ∀ y v, ∃ y', (setex tenant (searchKey rt query limit) 300 v).exec ans eff y =
      (.ok (), y') := fun y v => exec_setex tenant _ 300 v y
  obtain ⟨x₂, hproducts⟩ := hselect x₁
  obtain ⟨x₃, hrank⟩ : ∃ x₃, (ranking (db.active.map (·.id))).exec ans eff x₂ = (.ok _, x₃) :=
    ⟨_, Prod.ext (congrArg Except.ok (hranking x₂)) rfl⟩
  unfold semanticSearch
  rw [exec_bind, hget]
  dsimp only
  rw [exec_bind, hproducts]
  dsimp only
  rw [exec_bind, hrank]
  dsimp only
  rw [map_hits]
  rw [semanticSearch_eq, List.isEmpty_map]
  split
  · obtain ⟨x₄, hagain⟩ := hselect x₃
    rw [exec_bind, hagain, hfallback]
    rfl
  · obtain ⟨x₄, hfound⟩ := hin x₃
      ((ProductSearchService.hits embed {} db.active query limit).map (·.1))
    rw [exec_bind, hfound]
    dsimp only
    obtain ⟨x₅, hset⟩ := hsetex x₄ (.products (productsInOrder
      ((ProductSearchService.hits embed {} db.active query limit).map (·.1))
      (db.byIds ((ProductSearchService.hits embed {} db.active query limit).map (·.1)))))
    rw [exec_bind, hset]
    rfl

end Exec

/-- A search that some indexed product passes returns the first `limit` products of the ranking by
    score, ties in the order of the index, that score above the threshold. -/
theorem semanticSearch_ranks (embed : List String → String → Bool → List ℚ)
    (s : ProductSearchService) (db : SearchDb) (rows : List Product) (query : String) (limit : ℕ)
    (hlimit : 1 ≤ limit) (hdb : db.Reads rows)
    (hindex : ∀ id ∈ s.index.rows.map Prod.fst, id ∈ rows.map (·.id))
    (habove : ∃ x ∈ s.queryScores embed db.active query, minSimilarity < x.2) :
    ∃ ranked, StableSort ByScore (s.queryScores embed db.active query) ranked ∧
      List.Forall₂ (fun x r => ∃ p ∈ rows, p.id = x.1 ∧ r = showProduct p)
        ((ranked.filter aboveThreshold).take limit) (s.semanticSearch embed db query limit) := by
  refine ⟨(s.queryScores embed db.active query).insertionSort ByScore,
    insertionSort_stable (VectorIndex.nodup_scores _ _ _), ?_⟩
  have hactive : ∀ p ∈ db.active, p ∈ rows := fun p hp =>
    List.mem_of_mem_filter (hdb.active.mem_iff.mp hp)
  have hne := hits_ne_nil hlimit habove
  rw [semanticSearch_eq, if_neg (by simpa [List.isEmpty_iff] using hne)]
  refine List.forall₂_map_left_iff.mp
    (productsInOrder_forall₂ (mem_hits hindex hactive) fun p => ?_)
  rw [(hdb.byIds _).mem_iff, List.mem_filter, decide_eq_true_iff]

/-! ## A search -/

def searchedProduct (id name : String) (isActive : Bool) : Product :=
  { id, sku := "sku-" ++ id, name, description := none, price := 1, tenantId := "t", isActive }

/-- A catalog with two desk lamps and a product that is not offered any more. -/
def lampCatalog : List Product :=
  [searchedProduct "p-1" "Mug" true, searchedProduct "p-2" "Desk lamp" true,
    searchedProduct "p-3" "Old lamp" false, searchedProduct "p-4" "Lamp" true,
    searchedProduct "p-5" "Desk lamp" true]

/-- The products by their ids come in another order. -/
def lampDb : SearchDb where
  active := lampCatalog.filter (·.isActive)
  byIds ids := (lampCatalog.filter fun p => decide (p.id ∈ ids)).reverse
  fallback := lampCatalog.filter (·.isActive)

theorem lampDb_reads : lampDb.Reads lampCatalog where
  active := List.Perm.refl _
  byIds _ := List.reverse_perm _
  fallback := List.Perm.refl _

/-- How much the texts are about lamps, and about desks. -/
def lampVectors (_ : List String) (text : String) (_ : Bool) : List ℚ :=
  if text = "Mug " then [0, 0] else if text = "Desk lamp " then [4 / 5, 3 / 5] else [1, 0]

/-- The lamp comes first and the desk lamp that was indexed first second; the limit cuts the other
    one off, and the mug is not above the threshold. -/
theorem semanticSearch_ranks_lamps :
    ProductSearchService.semanticSearch lampVectors {} lampDb "lamp" 2 =
      [searchedProduct "p-4" "Lamp" true, searchedProduct "p-2" "Desk lamp" true].map showProduct ∧
    ∃ ranked, StableSort ByScore
        (ProductSearchService.queryScores lampVectors {} lampDb.active "lamp") ranked ∧
      List.Forall₂ (fun x r => ∃ p ∈ lampCatalog, p.id = x.1 ∧ r = showProduct p)
        ((ranked.filter aboveThreshold).take 2)
        (ProductSearchService.semanticSearch lampVectors {} lampDb "lamp" 2) :=
  ⟨by decide +kernel, semanticSearch_ranks lampVectors {} lampDb lampCatalog "lamp" 2 (by decide)
    lampDb_reads (fun _ h => absurd h List.not_mem_nil) (by decide +kernel)⟩

end CloudScale.CatalogService
