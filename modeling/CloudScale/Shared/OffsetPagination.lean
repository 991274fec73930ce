/-
  Offset pagination (`PageParams` and `Page` in `query.py`, and the two repositories that use them).

  A page is one query of the rows in the order of a column, from an offset on, and the database
  orders rows of one value as it likes, and differently in each query (`OrderBy`). `Page.create`
  divides as Python does, with a rounding to 53 binary digits.

  `pages_least`: below 2^53 rows, `pages` is the least number of pages that covers them.
  `partitions_iff`: on an unchanging table the pages from 1 to `pages` have every row once, whatever
  the order of ties, exactly if the rows of one value lie on one page of the sorted listing
  (`OnePage`).
-/
import Mathlib.Algebra.Order.Floor.Div
import CloudScale.Lib.Listing
import CloudScale.Lib.Rounding
import CloudScale.Shared.Pagination

namespace CloudScale.OffsetPagination

open CloudScale.Lib CloudScale.Pagination

/-! ## Pages -/

structure PageParams where
  page : ℕ
  size : ℕ
  page_pos : 1 ≤ page
  size_pos : 1 ≤ size
  size_le : size ≤ 100

def PageParams.offset (params : PageParams) : ℕ := (params.page - 1) * params.size

/-- The page with an index, from 0 on. -/
def PageParams.nth (size : ℕ) (hpos : 1 ≤ size) (hle : size ≤ 100) (index : ℕ) : PageParams where
  page := index + 1
  size := size
  page_pos := Nat.le_add_left 1 index
  size_pos := hpos
  size_le := hle

structure Page (ρ : Type) where
  items : List ρ
  total : ℕ
  page : ℕ
  size : ℕ
  pages : ℕ

/-- `total / size`. -/
def trueDiv (total size : ℕ) : ℚ := Format.binary64.round (total / size)

def Page.create {ρ : Type} (items : List ρ) (total : ℕ) (params : PageParams) : Page ρ where
  items := items
  total := total
  page := params.page
  size := params.size
  pages := if 0 < total then ⌈trueDiv total params.size⌉₊ else 0

variable {ρ α : Type} [LinearOrder α] {descending : Bool} {column : ρ → Option α}

/-- `list_active_paginated` and `list_paginated`, of the rows they select. -/
def listPaginated (orderBy : OrderBy column descending) (rows : List ρ) (params : PageParams) :
    List ρ × ℕ :=
  (((orderBy.sort rows).drop params.offset).take params.size, rows.length)

/-- The pages from 1 to the `pages` of the first; page `n` is fetched by `fetch n`. -/
def crawl (fetch : ℕ → PageParams → List ρ × ℕ) (size : ℕ) (hpos : 1 ≤ size) (hle : size ≤ 100) :
    List (Page ρ) :=
  let page n : Page ρ :=
    let params := PageParams.nth size hpos hle n
    Page.create (fetch n params).1 (fetch n params).2 params
  (List.range (page 0).pages).map page

/-- Every row is on one page, once, no page is too long, and there are no more pages than needed. -/
structure Partitions (rows : List ρ) (size : ℕ) (pages : List (Page ρ)) : Prop where
  perm : (pages.flatMap (·.items)).Perm rows
  short : ∀ page ∈ pages, page.items.length ≤ size
  count : ∀ page ∈ pages, page.pages = pages.length
  least : IsLeast {n | rows.length ≤ n * size} pages.length

/-! ## The number of pages -/

theorem ceil_div (total : ℕ) {size : ℕ} (hpos : 1 ≤ size) :
    ⌈(total / size : ℚ)⌉₊ = total ⌈/⌉ size := by
  refine eq_of_forall_ge_iff fun n => ?_
  rw [Nat.ceil_le, div_le_iff₀ (Nat.cast_pos.mpr hpos), ceilDiv_le_iff_le_mul hpos, mul_comm size]
  exact_mod_cast Iff.rfl

/-- The rounding of the quotient does not change the number of pages. -/
theorem pages_create {items : List ρ} {total : ℕ} {params : PageParams} (htotal : total < 2 ^ 53) :
    (Page.create items total params).pages = total ⌈/⌉ params.size := by
  have hetiny : (params.size : ℚ) * (Format.binary64.base : ℚ) ^ Format.binary64.etiny < 2 := by
    have hsize : (params.size : ℚ) ≤ 100 := by exact_mod_cast params.size_le
    have hpow : (2 : ℚ) ^ (-1074 : ℤ) ≤ 2 ^ (-7 : ℤ) :=
      zpow_le_zpow_right₀ one_le_two (by decide)
    calc (params.size : ℚ) * (Format.binary64.base : ℚ) ^ Format.binary64.etiny ≤
          100 * 2 ^ (-7 : ℤ) :=
          mul_le_mul hsize hpow (zpow_pos Format.binary64.base_pos _).le (by norm_num)
      _ < 2 := by norm_num
  have hround := Format.binary64.ceil_round_div params.size_pos
    (Nat.mul_lt_mul_of_pos_left htotal two_pos) hetiny
  unfold Page.create trueDiv
  rw [hround, ceil_div _ params.size_pos]
  split
  · rfl
  · next hzero =>
    obtain rfl : total = 0 := by omega
    exact (zero_ceilDiv _).symm

/-- `pages` is the least number of pages that covers the rows. -/
theorem pages_least {items : List ρ} {total : ℕ} {params : PageParams} (htotal : total < 2 ^ 53) :
    IsLeast {n | total ≤ n * params.size} (Page.create items total params).pages := by
  rw [pages_create htotal]
  constructor
  · have h : total ≤ params.size * (total ⌈/⌉ params.size) :=
      le_smul_ceilDiv (α := ℕ) params.size_pos
    rwa [mul_comm] at h
  · intro n hn
    exact (ceilDiv_le_iff_le_mul params.size_pos).mpr (by rwa [mul_comm])

/-! ## Rows of one value -/

/-- The rows that every query lists before `r`. -/
def before (column : ρ → Option α) (descending : Bool) (rows : List ρ) (r : ρ) : ℕ :=
  rows.countP fun r' => !decide (ordered descending (column r) (column r'))

/-- The rows that some query lists before `r`, and `r`. -/
def upTo (column : ρ → Option α) (descending : Bool) (rows : List ρ) (r : ρ) : ℕ :=
  rows.countP fun r' => decide (ordered descending (column r') (column r))

/-- The rows of one value lie on one page of the sorted listing. -/
def OnePage (column : ρ → Option α) (descending : Bool) (rows : List ρ) (size : ℕ) : Prop :=
  ∀ r ∈ rows, before column descending rows r / size = (upTo column descending rows r - 1) / size

instance (rows : List ρ) (size : ℕ) : Decidable (OnePage column descending rows size) :=
  inferInstanceAs (Decidable (∀ r ∈ rows, _ = _))

section Sorted

variable {rows s : List ρ} {size i : ℕ} {r : ρ}

theorem ordered_refl (v : Option α) : ordered descending v v :=
  or_self_iff.mp (Std.Total.total (r := ordered descending) v v)

theorem lt_before_iff (hperm : s.Perm rows)
    (hs : s.Pairwise fun r r' => ordered descending (column r) (column r')) (r : ρ)
    (hi : i < s.length) :
    i < before column descending rows r ↔ ¬ ordered descending (column r) (column s[i]) := by
  unfold before
  rw [← hperm.countP_eq, lt_countP_iff (hs.imp fun {a b} hab hb => ?_) hi]
  · simp
  · simp only [Bool.not_eq_true', decide_eq_false_iff_not] at hb ⊢
    exact fun h => hb (IsTrans.trans (r := ordered descending) _ _ _ h hab)

theorem lt_upTo_iff (hperm : s.Perm rows)
    (hs : s.Pairwise fun r r' => ordered descending (column r) (column r')) (r : ρ)
    (hi : i < s.length) :
    i < upTo column descending rows r ↔ ordered descending (column s[i]) (column r) := by
  unfold upTo
  rw [← hperm.countP_eq, lt_countP_iff (hs.imp fun {a b} hab hb => ?_) hi]
  · simp
  · simp only [decide_eq_true_eq] at hb ⊢
    exact IsTrans.trans (r := ordered descending) _ _ _ hab hb

theorem before_lt_length (hr : r ∈ rows) : before column descending rows r < rows.length :=
  List.countP_lt_length_iff.mpr ⟨r, hr, by simp [ordered_refl]⟩

/-- A row is listed between the bounds. -/
theorem index_bounds (hperm : s.Perm rows)
    (hs : s.Pairwise fun r r' => ordered descending (column r) (column r')) (hi : i < s.length) :
    before column descending rows s[i] ≤ i ∧ i < upTo column descending rows s[i] :=
  ⟨not_lt.mp fun h => (lt_before_iff hperm hs _ hi).mp h (ordered_refl _),
    (lt_upTo_iff hperm hs _ hi).mpr (ordered_refl _)⟩

theorem before_lt_upTo (hr : r ∈ rows) :
    before column descending rows r < upTo column descending rows r := by
  have hperm := (stable column descending).perm rows
  obtain ⟨i, hi, rfl⟩ := List.mem_iff_getElem.mp (hperm.mem_iff.mpr hr)
  obtain ⟨hlo, hhi⟩ := index_bounds hperm ((stable column descending).sorted rows) hi
  exact Nat.lt_of_le_of_lt hlo hhi

/-- The rows between are of the value. -/
theorem column_of_index (hperm : s.Perm rows)
    (hs : s.Pairwise fun r r' => ordered descending (column r) (column r'))
    (hi : i < s.length) (hlo : before column descending rows r ≤ i)
    (hhi : i < upTo column descending rows r) : column s[i] = column r := by
  refine ordered_antisymm ((lt_upTo_iff hperm hs r hi).mp hhi) ?_
  by_contra h
  exact Nat.not_lt.mpr hlo ((lt_before_iff hperm hs r hi).mpr h)

/-- The page of a row is the same in every order of ties. -/
theorem page_of_onePage (hone : OnePage column descending rows size) (hperm : s.Perm rows)
    (hs : s.Pairwise fun r r' => ordered descending (column r) (column r')) (hi : i < s.length) :
    before column descending rows s[i] / size = i / size := by
  obtain ⟨hlo, hhi⟩ := index_bounds hperm hs hi
  refine Nat.le_antisymm (Nat.div_le_div_right hlo) ?_
  rw [hone _ (hperm.mem_iff.mp (List.getElem_mem hi))]
  exact Nat.div_le_div_right (by omega)

end Sorted

/-! ## The listing -/

section Crawl

variable {orders : ℕ → OrderBy column descending} {rows : List ρ} {size : ℕ} {hpos : 1 ≤ size}
  {hle : size ≤ 100}

/-- The pages, up to the number of them that covers the rows. -/
theorem crawl_eq (htotal : rows.length < 2 ^ 53) :
    crawl (fun n => listPaginated (orders n) rows) size hpos hle =
      (List.range (rows.length ⌈/⌉ size)).map fun n =>
        Page.create ((((orders n).sort rows).drop (n * size)).take size) rows.length
          (PageParams.nth size hpos hle n) := by
  show (List.range (Page.create _ rows.length _).pages).map _ = _
  rw [pages_create htotal]
  rfl

theorem items_crawl (htotal : rows.length < 2 ^ 53) :
    (crawl (fun n => listPaginated (orders n) rows) size hpos hle).flatMap (·.items) =
      (List.range (rows.length ⌈/⌉ size)).flatMap fun n =>
        (((orders n).sort rows).drop (n * size)).take size := by
  rw [crawl_eq htotal, List.flatMap_map]
  rfl

/-- Where no value is on two pages, the pages have every row once. -/
theorem crawl_perm (htotal : rows.length < 2 ^ 53)
    (hone : OnePage column descending rows size) :
    ((crawl (fun n => listPaginated (orders n) rows) size hpos hle).flatMap
      (·.items)).Perm rows := by
  rw [items_crawl htotal]
  have hpage : ∀ n, ((((orders n).sort rows).drop (n * size)).take size).Perm
      (rows.filter fun r => decide (before column descending rows r / size = n)) := by
    intro n
    have hperm := (orders n).perm rows
    rw [← filter_page (fun r => before column descending rows r / size) hpos fun i hi =>
      page_of_onePage hone hperm ((orders n).sorted rows) hi]
    exact hperm.filter _
  refine (List.Perm.flatMap_left _ fun n _ => hpage n).trans ?_
  refine (range_flatMap_filter rows _ _).trans (List.Perm.of_eq ?_)
  refine List.filter_eq_self.mpr fun r hr => decide_eq_true ?_
  have hcover : rows.length ≤ size * (rows.length ⌈/⌉ size) := le_smul_ceilDiv (α := ℕ) hpos
  rw [Nat.div_lt_iff_lt_mul hpos, mul_comm]
  exact Nat.lt_of_lt_of_le (before_lt_length hr) hcover

end Crawl

/-! ## A page boundary between rows of one value -/

/-- The rows at `n` and `n + 1` the other way, if they have one value. -/
def swapTies (column : ρ → Option α) : ℕ → List ρ → List ρ
  | 0, x :: y :: l => if column x = column y then y :: x :: l else x :: y :: l
  | n + 1, x :: l => x :: swapTies column n l
  | _, l => l

theorem swapTies_perm (n : ℕ) (l : List ρ) : (swapTies column n l).Perm l := by
  fun_induction swapTies column n l with
  | case1 x y l _ => exact List.Perm.swap x y l
  | case2 => exact .refl _
  | case3 n x l ih => exact ih.cons x
  | case4 => exact .refl _

theorem map_swapTies (n : ℕ) (l : List ρ) : (swapTies column n l).map column = l.map column := by
  fun_induction swapTies column n l with
  | case1 x y l h => simp [h]
  | case2 => rfl
  | case3 n x l ih => rw [List.map_cons, List.map_cons, ih]
  | case4 => rfl

theorem getElem?_swapTies {n : ℕ} {l : List ρ} {x y : ρ} (hx : l[n]? = some x)
    (hy : l[n + 1]? = some y) (h : column x = column y) :
    (swapTies column n l)[n + 1]? = some x := by
  induction n generalizing l with
  | zero =>
    cases l with
    | nil => cases hx
    | cons a l =>
      cases l with
      | nil => cases hy
      | cons b l =>
        obtain rfl : a = x := by simpa using hx
        obtain rfl : b = y := by simpa using hy
        rw [swapTies, if_pos h]
        rfl
  | succ n ih =>
    cases l with
    | nil => cases hx
    | cons a l => exact ih hx hy

/-- A database that orders two rows of one value the other way. -/
def swapped (column : ρ → Option α) (descending : Bool) (n : ℕ) : OrderBy column descending where
  sort rows := swapTies column n ((stable column descending).sort rows)
  perm rows := (swapTies_perm n _).trans ((stable column descending).perm rows)
  sorted rows := by
    have h := (stable column descending).sorted rows
    rw [← List.pairwise_map (f := column) (R := ordered descending)] at h ⊢
    rwa [map_swapTies]

section Boundary

variable {rows : List ρ} {size : ℕ} {hpos : 1 ≤ size} {hle : size ≤ 100}

theorem mem_page {l : List ρ} {i n : ℕ} {r : ρ} (hr : l[i]? = some r) (hlo : n * size ≤ i)
    (hhi : i < n * size + size) : r ∈ (l.drop (n * size)).take size := by
  refine List.mem_of_getElem? (i := i - n * size) ?_
  rw [List.getElem?_take_of_lt (by omega), List.getElem?_drop, Nat.add_sub_cancel' hlo]
  exact hr

/-- Two pages of a crawl have no row in common. -/
theorem disjoint_pages (htotal : rows.length < 2 ^ 53) (hnodup : rows.Nodup)
    {orders : ℕ → OrderBy column descending}
    (hcrawl : ((crawl (fun n => listPaginated (orders n) rows) size hpos hle).flatMap
      (·.items)).Perm rows) {m n : ℕ}
    (hmn : m < n) (hn : n * size < rows.length) :
    (((orders m).sort rows).drop (m * size) |>.take size).Disjoint
      (((orders n).sort rows).drop (n * size) |>.take size) := by
  rw [items_crawl htotal] at hcrawl
  have hpages : n < rows.length ⌈/⌉ size := by
    by_contra hge
    have hle := (ceilDiv_le_iff_le_mul (α := ℕ) hpos).mp (not_lt.mp hge)
    rw [mul_comm] at hle
    exact Nat.not_lt.mpr hle hn
  have hpairwise := (List.nodup_flatMap.mp (hcrawl.nodup_iff.mpr hnodup)).2
  have h := List.pairwise_iff_getElem.mp hpairwise m n (by simp; omega) (by simpa using hpages) hmn
  simpa using h

/-- If the pages have every row once, whatever the order of ties, no value is on two pages. -/
theorem onePage_of_crawl (htotal : rows.length < 2 ^ 53) (hnodup : rows.Nodup)
    (hcrawl : ∀ orders : ℕ → OrderBy column descending,
      ((crawl (fun n => listPaginated (orders n) rows) size hpos hle).flatMap
        (·.items)).Perm rows) :
    OnePage column descending rows size := by
  intro r hr
  by_contra hne
  obtain ⟨s, hsort⟩ : ∃ s, (stable column descending).sort rows = s := ⟨_, rfl⟩
  have hperm : s.Perm rows := hsort ▸ (stable column descending).perm rows
  have hs := hsort ▸ (stable column descending).sorted rows
  -- the boundary before the last page with the value
  obtain ⟨k, hk⟩ : ∃ k, k = (upTo column descending rows r - 1) / size := ⟨_, rfl⟩
  rw [← hk] at hne
  have hupTo : upTo column descending rows r ≤ s.length :=
    hperm.length_eq ▸ List.countP_le_length
  have hbefore : before column descending rows r < upTo column descending rows r :=
    before_lt_upTo hr
  have hlast : k * size ≤ upTo column descending rows r - 1 := hk ▸ Nat.div_mul_le_self _ _
  have hfirst : before column descending rows r < k * size := by
    refine (Nat.div_lt_iff_lt_mul hpos).mp (Nat.lt_of_le_of_ne ?_ hne)
    rw [hk]
    exact Nat.div_le_div_right (by omega)
  obtain ⟨j, hj⟩ : ∃ j, k * size = j + 1 := ⟨k * size - 1, by omega⟩
  have hlast' : s[j]? = some s[j] := List.getElem?_eq_getElem (by omega)
  have hfirst' : s[j + 1]? = some s[j + 1] := List.getElem?_eq_getElem (by omega)
  have htie : column s[j] = column s[j + 1] := by
    rw [column_of_index (r := r) hperm hs (by omega) (by omega) (by omega),
      column_of_index (r := r) hperm hs (by omega) (by omega) (by omega)]
  -- the row before the boundary is on both sides, if the next query has the two the other way
  obtain ⟨k, rfl⟩ : ∃ k', k = k' + 1 := Nat.exists_eq_succ_of_ne_zero (by rintro rfl; omega)
  have hdisjoint := disjoint_pages (m := k) (n := k + 1) htotal hnodup
    (hcrawl fun n => if n ≤ k then stable column descending else swapped column descending j)
    (by omega) (by rw [← hperm.length_eq]; omega)
  rw [if_pos (Nat.le_refl k), if_neg (by omega), hsort] at hdisjoint
  have hswap : ((swapped column descending j).sort rows)[j + 1]? = some s[j] := by
    show (swapTies column j ((stable column descending).sort rows))[j + 1]? = _
    rw [hsort]
    exact getElem?_swapTies hlast' hfirst' htie
  rw [Nat.succ_mul] at hj
  exact hdisjoint (mem_page hlast' (by omega) (by omega))
    (mem_page hswap (by rw [Nat.succ_mul]; omega) (by rw [Nat.succ_mul]; omega))

end Boundary

/-- On an unchanging table of distinct rows, the pages partition them, whatever the order of ties,
    if and only if no value is on two pages. -/
theorem partitions_iff {rows : List ρ} {size : ℕ} (hpos : 1 ≤ size) (hle : size ≤ 100)
    (htotal : rows.length < 2 ^ 53) (hnodup : rows.Nodup) :
    (∀ orders : ℕ → OrderBy column descending,
      Partitions rows size (crawl (fun n => listPaginated (orders n) rows) size hpos hle)) ↔
      OnePage column descending rows size := by
  refine ⟨fun h => onePage_of_crawl htotal hnodup fun orders => (h orders).perm, fun hone orders =>
    ⟨crawl_perm htotal hone, ?_, ?_, ?_⟩⟩
  · rw [crawl_eq htotal, List.forall_mem_map]
    exact fun n _ => List.length_take_le _ _
  · rw [crawl_eq htotal, List.forall_mem_map, List.length_map, List.length_range]
    exact fun n _ => pages_create htotal
  · have hleast : IsLeast {n | rows.length ≤ n * size}
        (Page.create rows rows.length (PageParams.nth size hpos hle 0)).pages := pages_least htotal
    rw [pages_create htotal] at hleast
    rwa [crawl_eq htotal, List.length_map, List.length_range]

end CloudScale.OffsetPagination
